import Polyad.Proofs.Code.Anchor
import Polyad.Proofs.Config.Settings

/-!
# Values written as names

Which values of a JSON document are written as a dotted path. Besides texts that are one, these are
nothing, truth values and the two floating point numbers that are written as words: all others start
with a digit, a sign or a bracket.
-/

namespace Polyad

namespace Text

/-- What does not start like a name is no dotted path. -/
theorem isDottedPath_eq_false {s : String} (h : ∀ c ∈ s.toList.head?, isNameStart c = false) :
    isDottedPath s = false := by
  rw [Bool.eq_false_iff]
  intro path
  cases chars : s.toList with
  | nil =>
    rw [String.toList_eq_nil_iff.1 chars] at path
    cases path
  | cons c cs =>
    rw [chars] at h
    have same : s = String.ofList (c :: cs) := by rw [← chars, String.ofList_toList]
    rw [same] at path
    have start : c = '.' := by
      by_contra ne
      exact Bool.false_ne_true ((h c rfl).symm.trans (isNameStart_of_dotted path ne))
    have relative : String.ofList (c :: cs) = "." ++ String.ofList cs := by
      rw [start]
      apply String.toList_inj.1
      simp
    rw [relative, isDottedPath_relative] at path
    cases path

theorem isNameStart_of_isDigit {c : Char} (h : c.isDigit) : isNameStart c = false := by
  have digits : ∀ n < 10, isNameStart (Char.ofNat (48 + n)) = false := by decide +kernel
  have range : 48 ≤ c.toNat ∧ c.toNat ≤ 57 := by
    simpa [Char.isDigit, UInt32.le_iff_toNat_le] using h
  have own := digits (c.toNat - 48) (by omega)
  rwa [show 48 + (c.toNat - 48) = c.toNat by omega, Char.ofNat_toNat] at own

end Text

namespace Decimal

theorem isDigit_of_mem_natDigits {n : Nat} {c : Char} (h : c ∈ natDigits n) : c.isDigit :=
  Json.isDigit_of_mem h

theorem isDigit_of_mem_significant {n : Nat} {c : Char} (h : c ∈ significant n) : c.isDigit := by
  rw [significant, List.mem_reverse] at h
  have there := (List.dropWhile_suffix _).subset h
  exact isDigit_of_mem_natDigits (List.mem_reverse.1 there)

theorem mem_positional {ds : List Char} {point : Int} {c : Char} (h : c ∈ positional ds point) :
    c ∈ ds ∨ c = '0' ∨ c = '.' := by
  rw [positional] at h
  split at h
  · simp only [List.mem_append, List.mem_cons, List.mem_replicate] at h
    tauto
  · split at h
    · simp only [List.mem_append, List.mem_cons, List.mem_replicate, List.not_mem_nil] at h
      tauto
    · simp only [List.mem_append, List.mem_cons] at h
      rcases h with here | point | there
      · exact .inl (List.mem_of_mem_take here)
      · exact .inr (.inr point)
      · exact .inl (List.mem_of_mem_drop there)

/-- The text of a positive number starts with a digit or a point. -/
theorem head?_layOut (s : Scaled) : ∀ c ∈ (layOut s).head?, c.isDigit ∨ c = '.' := by
  intro c first
  rw [layOut] at first
  split at first
  · rcases mem_positional (List.mem_of_mem_head? first) with own | rfl | rfl
    · exact .inl (isDigit_of_mem_significant own)
    · exact .inl rfl
    · exact .inr rfl
  · have digits : ∀ d ∈ significant s.digits, d.isDigit := fun d => isDigit_of_mem_significant
    rw [scientific.eq_def] at first
    split at first
    · cases first
    all_goals
      next ds =>
      rw [ds] at digits
      cases first
      exact .inl (digits c (by simp))

theorem isDottedPath_signed {cs : List Char} (first : ∀ c ∈ cs.head?, c.isDigit ∨ c = '.')
    (negative : Bool) :
    Text.isDottedPath (String.ofList (if negative then '-' :: cs else cs)) = false := by
  refine Text.isDottedPath_eq_false fun c own => ?_
  rw [String.toList_ofList] at own
  split at own
  · cases own
    decide
  · rcases first c own with digit | rfl
    · exact Text.isNameStart_of_isDigit digit
    · decide

/-- The text of a number is a name only if the number is boundless or none. -/
theorem isDottedPath_format {x : Float} :
    Text.isDottedPath (format x) ↔ classify x = .nan ∨ classify x = .infinite false := by
  rw [format]
  cases classify x with
  | nan => simpa using (by decide : Text.isDottedPath "nan" = true)
  | infinite negative => cases negative <;> decide
  | finite b =>
    have body : ∀ c ∈ (if b.mantissa == 0 then ['0', '.', '0']
        else layOut (shortest b.mantissa b.exponent)).head?, c.isDigit ∨ c = '.' := by
      intro c first
      split at first
      · cases first
        exact .inl rfl
      · exact head?_layOut _ c first
    simpa using isDottedPath_signed body b.negative

theorem isDottedPath_toString (n : Int) : Text.isDottedPath (toString n) = false := by
  have digits (k : Nat) : ∀ c ∈ (Nat.toDigits 10 k).head?, c.isDigit ∨ c = '.' := fun c first =>
    .inl (Json.isDigit_of_mem (List.mem_of_mem_head? first))
  rw [Int.toString_eq_repr, Int.repr_eq_if]
  split
  · have plain := isDottedPath_signed (digits n.toNat) false
    simpa [Nat.repr_eq_ofList_toDigits] using plain
  · have signed := isDottedPath_signed (digits (-n).toNat) true
    have chars : "-" ++ (-n).toNat.repr = String.ofList ('-' :: Nat.toDigits 10 (-n).toNat) := by
      apply String.toList_inj.1
      simp [Nat.toList_repr]
    simpa [chars] using signed

end Decimal

/-- What a JSON text can stand for. -/
inductive Value.IsJson : Value → Prop
  | null : IsJson .null
  | bool (b : Bool) : IsJson (.bool b)
  | int (n : Int) : IsJson (.int n)
  | float (x : Float) : IsJson (.float x)
  /-- A number that is none. -/
  | labelled (label : Nat) (x : Float) : IsJson (.named label (.float x))
  | str (s : String) : IsJson (.str s)
  | list {items : List Value} (each : ∀ v ∈ items, IsJson v) : IsJson (.list items)
  | dict {fields : List (String × Value)} (distinct : (fields.map Prod.fst).Nodup)
      (each : ∀ f ∈ fields, IsJson f.2) : IsJson (.dict (Json.named fields))

namespace Value

/-- A text of names between points, or a value that is written as one name. -/
inductive IsDotted : Value → Prop
  | str {s : String} (path : Text.isDottedPath s) : IsDotted (.str s)
  | null : IsDotted .null
  | bool (b : Bool) : IsDotted (.bool b)
  | float {x : Float}
      (boundless : Decimal.classify x = .nan ∨ Decimal.classify x = .infinite false) :
      IsDotted (.float x)
  | labelled {label : Nat} {x : Float}
      (boundless : Decimal.classify x = .nan ∨ Decimal.classify x = .infinite false) :
      IsDotted (.named label (.float x))

theorem isDotted_iff {v : Value} (json : v.IsJson) :
    v.IsDotted ↔ v.hasText ∧ Text.isDottedPath v.text := by
  have undotted {s : String} {c : Char} (first : s.toList.head? = some c)
      (other : Text.isNameStart c = false) : Text.isDottedPath s = false := by
    refine Text.isDottedPath_eq_false fun d there => ?_
    rw [first] at there
    cases there
    exact other
  cases json with
  | null => exact ⟨fun _ => ⟨by simp [hasText], by decide⟩, fun _ => .null⟩
  | bool b => exact ⟨fun _ => ⟨by simp [hasText], by cases b <;> decide⟩, fun _ => .bool b⟩
  | int n =>
    rw [text_int, Decimal.isDottedPath_toString]
    exact ⟨fun h => (by cases h), fun h => absurd h.2 Bool.false_ne_true⟩
  | float x =>
    have text : (Value.float x).text = Decimal.format x := by simp [text, content, shown, shownIn]
    rw [text, Decimal.isDottedPath_format]
    refine ⟨fun h => ⟨by simp [hasText], ?_⟩, fun h => .float h.2⟩
    cases h with
    | float boundless => exact boundless
  | labelled label x =>
    have text : (Value.named label (.float x)).text = Decimal.format x := by
      simp [text, content, shown, shownIn]
    rw [text, Decimal.isDottedPath_format]
    refine ⟨fun h => ⟨by simp [hasText], ?_⟩, fun h => .labelled h.2⟩
    cases h with
    | labelled boundless => exact boundless
  | str s =>
    rw [text_str]
    refine ⟨fun h => ⟨hasText_str s, ?_⟩, fun h => .str h.2⟩
    cases h with
    | str path => exact path
  | @list items each =>
    have first : (Value.list items).text.toList.head? = some '[' := by
      simp [text, content, shown, shownIn, listText]
    rw [undotted first (by decide)]
    exact ⟨fun h => (by cases h), fun h => absurd h.2 Bool.false_ne_true⟩
  | @dict fields distinct each =>
    have first : (Value.dict (Json.named fields)).text.toList.head? = some '\x7b' := by
      simp [text, content, shown, shownIn, dictText]
    rw [undotted first (by decide)]
    exact ⟨fun h => (by cases h), fun h => absurd h.2 Bool.false_ne_true⟩

end Value

end Polyad
