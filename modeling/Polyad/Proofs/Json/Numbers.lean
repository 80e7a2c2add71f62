import Mathlib.Data.List.TakeDrop
import Polyad.Json.Reader

/-!
# Whole numbers

The digits of a whole number are read as that number again when something follows that cannot
belong to it. No number is taken for a word, and none starts with a zero that it does not consist of.
-/

namespace Polyad.Json

/-- What follows a value inside others: nothing or a separator. -/
def Ends (rest : List Char) : Prop := ∀ c ∈ rest.head?, c ∈ [',', ']', '\x7d']

theorem ends_nil : Ends [] := nofun

theorem ends_cons {c : Char} (h : c ∈ [',', ']', '\x7d']) (rest : List Char) : Ends (c :: rest) := by
  intro d mem
  cases mem
  exact h

variable {c : Char} {cs rest : List Char} {n : Nat}

/-! ## Digits -/

theorem ne_of_isDigit (h : c.isDigit) {d : Char} (other : d.isDigit = false) : d ≠ c := by
  rintro rfl
  rw [other] at h
  cases h

theorem isDigit_of_mem (h : c ∈ Nat.toDigits 10 n) : c.isDigit :=
  Nat.isDigit_of_mem_toDigits (by decide) (by decide) h

/-- A number other than zero starts with another digit. -/
theorem head?_toDigits (pos : 0 < n) : (Nat.toDigits 10 n).head? ≠ some '0' := by
  induction n using Nat.strongRecOn with
  | _ n ih =>
    rw [Nat.toDigits_eq_if (by decide)]
    split
    · next small =>
      have all : ∀ k < 10, 0 < k → [Nat.digitChar k].head? ≠ some '0' := by decide
      exact all n small pos
    · next large =>
      have front := ih (n / 10) (by omega) (by omega)
      obtain ⟨d, ds, digits⟩ := List.exists_cons_of_ne_nil (@Nat.toDigits_ne_nil (n / 10) 10)
      rw [digits] at front ⊢
      exact front

theorem digitsValue_toDigits (n : Nat) : digitsValue (Nat.toDigits 10 n) = n := by
  have fold : digitsValue = fun cs => Nat.ofDigitChars 10 cs 0 := by
    funext cs
    rw [Nat.ofDigitChars_eq_foldl, digitsValue]
    congr
    funext k d
    rw [Nat.mul_comm]
    rfl
  rw [fold]
  exact Nat.ofDigitChars_ten_toDigits

theorem readDigits_append {ds : List Char} (digits : ∀ c ∈ ds, c.isDigit)
    (stop : ∀ c ∈ rest.head?, c.isDigit = false) : readDigits (ds ++ rest) = (ds, rest) := by
  have none : rest.takeWhile Char.isDigit = [] ∧ rest.dropWhile Char.isDigit = rest := by
    cases rest with
    | nil => exact ⟨rfl, rfl⟩
    | cons c rest =>
      have := stop c rfl
      simp [this]
  rw [readDigits, List.span_eq_takeWhile_dropWhile, List.takeWhile_append_of_pos digits,
    List.dropWhile_append_of_pos digits, none.1, none.2, List.append_nil]

/-! ## Numbers -/

theorem Ends.isDigit (ends : Ends rest) : ∀ c ∈ rest.head?, c.isDigit = false := by
  intro c mem
  have all : ∀ c ∈ [',', ']', '\x7d'], c.isDigit = false := by simp [Char.isDigit]
  exact all c (ends c mem)

theorem readFraction_of_ends (ends : Ends rest) : readFraction rest = (none, rest) := by
  unfold readFraction
  split
  · next more => exact absurd (ends '.' rfl) (by decide)
  · rfl

theorem readExponent_of_ends (ends : Ends rest) : readExponent rest = (none, rest) := by
  cases rest with
  | nil => rfl
  | cons c rest =>
    have ends := ends c rfl
    have plain : (c == 'e' || c == 'E') = false := by
      have all : ∀ c ∈ [',', ']', '\x7d'], (c == 'e' || c == 'E') = false := by simp
      exact all c ends
    unfold readExponent
    dsimp only
    split
    · next e more eq =>
      obtain ⟨rfl, -⟩ := List.cons.inj eq
      rw [plain]
      rfl
    · next e more eq =>
      obtain ⟨rfl, -⟩ := List.cons.inj eq
      rw [plain]
      rfl
    · next e more _ _ eq =>
      obtain ⟨rfl, -⟩ := List.cons.inj eq
      rw [plain]
      rfl
    · rfl

/-- The whole part of a number is all its digits. -/
theorem readWhole_toDigits (n : Nat) (stop : ∀ c ∈ rest.head?, c.isDigit = false) :
    readWhole (Nat.toDigits 10 n ++ rest) = (Nat.toDigits 10 n, rest) := by
  rcases Nat.eq_zero_or_pos n with rfl | pos
  · rfl
  · obtain ⟨d, ds, digits⟩ := List.exists_cons_of_ne_nil (@Nat.toDigits_ne_nil n 10)
    have first := head?_toDigits pos
    rw [digits] at first
    unfold readWhole
    split
    · next more eq =>
      rw [digits] at eq
      obtain ⟨rfl, -⟩ := List.cons.inj eq
      exact absurd rfl first
    · exact readDigits_append (fun c mem => isDigit_of_mem mem) stop

theorem readMagnitude_toDigits (negative : Bool)
    (short : (Nat.toDigits 10 n).length ≤ Decimal.maxDigits) (ends : Ends rest) :
    readMagnitude negative (Nat.toDigits 10 n ++ rest) =
      .ok (.int (if negative then -n else n), rest) := by
  unfold readMagnitude
  rw [readWhole_toDigits n ends.isDigit]
  split
  · next none => exact absurd (congrArg Prod.fst none) Nat.toDigits_ne_nil
  · next ds after _ eq =>
    cases eq
    rw [readFraction_of_ends ends]
    dsimp only
    rw [readExponent_of_ends ends, digitsValue_toDigits]
    dsimp only
    rw [if_pos (by decide), if_neg (Nat.not_lt.2 short)]

/-! ## Values that are numbers -/

theorem literal?_of_isDigit (h : c.isDigit) (cs : List Char) : literal? (c :: cs) = none := by
  have ne := fun d => ne_of_isDigit (c := c) h (d := d)
  simp [literal?, List.isPrefixOf, ne 'n' rfl, ne 't' rfl, ne 'f' rfl, ne 'N' rfl, ne 'I' rfl,
    ne '-' rfl]

theorem literal?_of_negative (h : c.isDigit) (cs : List Char) :
    literal? ('-' :: c :: cs) = none := by
  have ne := ne_of_isDigit h (d := 'I') rfl
  simp [literal?, List.isPrefixOf, ne]

theorem readValue_natDigits (fuel : Nat)
    (short : (Nat.toDigits 10 n).length ≤ Decimal.maxDigits) (ends : Ends rest) :
    readValue (fuel + 1) (Nat.toDigits 10 n ++ rest) = .ok (.int n, rest) := by
  obtain ⟨d, ds, digits⟩ := List.exists_cons_of_ne_nil (@Nat.toDigits_ne_nil n 10)
  have first : d.isDigit := isDigit_of_mem (n := n) (by simp [digits])
  have ne := fun e other => Ne.symm (ne_of_isDigit first (d := e) other)
  rw [digits, List.cons_append, readValue.eq_6, literal?_of_isDigit first, ← List.cons_append,
    ← digits]
  · exact readMagnitude_toDigits false short ends
  · exact fun _ eq => ne '"' rfl (List.cons.inj eq).1
  · exact fun _ eq => ne '[' rfl (List.cons.inj eq).1
  · exact fun _ eq => ne '\x7b' rfl (List.cons.inj eq).1
  · exact fun _ eq => ne '-' rfl (List.cons.inj eq).1

/-- A number that has a text has not too many digits to be read. -/
theorem length_toDigits_le {i : Int} (writable : (Value.int i).hasText) :
    (Nat.toDigits 10 i.natAbs).length ≤ Decimal.maxDigits := by
  have short : ∀ k, 0 < k → i.natAbs < Nat.pow 10 k → (Nat.toDigits 10 i.natAbs).length ≤ k :=
    fun k pos lt => (Nat.length_toDigits_le_iff (by decide) pos).2 lt
  unfold Value.hasText Value.widestWhole at writable
  exact short 4300 (by decide) (of_decide_eq_true writable)

/-- A whole number is read as itself. -/
theorem readValue_int {i : Int} (fuel : Nat) (writable : (Value.int i).hasText)
    (ends : Ends rest) :
    readValue (fuel + 1) ((toString i).toList ++ rest) = .ok (.int i, rest) := by
  have short := length_toDigits_le writable
  clear writable
  rw [Int.toString_eq_repr, Int.repr_eq_if]
  split
  · next pos =>
    have nat : i.toNat = i.natAbs := by omega
    have same : (i.natAbs : Int) = i := by omega
    rw [Nat.toList_repr, nat, readValue_natDigits fuel short ends, same]
  · next neg =>
    have nat : (-i).toNat = i.natAbs := by omega
    have same : -(i.natAbs : Int) = i := by omega
    obtain ⟨d, ds, digits⟩ := List.exists_cons_of_ne_nil (@Nat.toDigits_ne_nil i.natAbs 10)
    have first : d.isDigit := isDigit_of_mem (n := i.natAbs) (by simp [digits])
    rw [String.toList_append, Nat.toList_repr, nat]
    change readValue (fuel + 1) ('-' :: (Nat.toDigits 10 i.natAbs ++ rest)) = _
    rw [readValue.eq_5, digits, List.cons_append, literal?_of_negative first, ← List.cons_append,
      ← digits]
    dsimp only
    rw [readMagnitude_toDigits true short ends, if_pos rfl, same]

end Polyad.Json
