import Polyad.Proofs.Json.Numbers
import Polyad.Proofs.Json.Strings

/-!
# Trees as texts

A tree of mappings, lists, strings and whole numbers is read back from its text, with the entries of
each mapping in the order of their names. The reader is given fuel for two steps for each character,
which is more than it takes. Whether two trees are equal can be decided.
-/

namespace Polyad.Json

/-- Entries under names. -/
def named (fields : List (String × Value)) : List (Value × Value) :=
  fields.map fun f => (.str f.1, f.2)

/-- Mappings with different names for keys, lists, strings, and whole numbers that can be written. -/
inductive Tree : Value → Prop
  | str (s : String) : Tree (.str s)
  | int {n : Int} (writable : (Value.int n).hasText) : Tree (.int n)
  | list {items : List Value} (each : ∀ v ∈ items, Tree v) : Tree (.list items)
  | dict {fields : List (String × Value)} (distinct : (fields.map Prod.fst).Nodup)
      (each : ∀ f ∈ fields, Tree f.2) : Tree (.dict (named fields))

mutual

/-- A tree with the entries of each mapping in order. -/
def sortKeys : Value → Value
  | .list items => .list (sortItems items)
  | .dict entries => .dict ((sortValues entries).mergeSort fun a b => keyLe a.1 b.1)
  | v => v

def sortItems : List Value → List Value
  | [] => []
  | v :: vs => sortKeys v :: sortItems vs

def sortValues : List (Value × Value) → List (Value × Value)
  | [] => []
  | (k, v) :: rest => (k, sortKeys v) :: sortValues rest

end

theorem sortItems_eq (items : List Value) : sortItems items = items.map sortKeys := by
  induction items with
  | nil => rfl
  | cons v vs ih => rw [sortItems, ih, List.map_cons]

theorem sortValues_named (fields : List (String × Value)) :
    sortValues (named fields) = named (fields.map fun f => (f.1, sortKeys f.2)) := by
  induction fields with
  | nil => rfl
  | cons f fs ih =>
    rw [named, List.map_cons, sortValues]
    exact congrArg _ ih

/-- Fields in order of their names. -/
def inOrder (fields : List (String × Value)) : List (String × Value) :=
  fields.mergeSort fun a b => a.1 ≤ b.1

theorem keyLe_str (a b : String) : keyLe (.str a) (.str b) = decide (a ≤ b) := rfl

theorem sortKeys_dict (fields : List (String × Value)) :
    sortKeys (.dict (named fields)) =
      .dict (named ((inOrder fields).map fun f => (f.1, sortKeys f.2))) := by
  rw [sortKeys, sortValues_named, named, named, inOrder, List.map_map, List.map_map,
    List.map_mergeSort (s := fun a b => keyLe a.1 b.1)]
  intro a _ b _
  exact (keyLe_str a.1 b.1).symm

/-! ## Texts -/

/-- The text of a value that has one. -/
def text (v : Value) : String := Error.got (render v)

def fieldText (f : String × Value) : String := encodeString f.1 ++ ": " ++ text f.2

theorem renderList_eq {items : List Value} (written : ∀ v ∈ items, ∃ t, render v = .ok t) :
    renderList items = .ok (items.map text) := by
  induction items with
  | nil => rfl
  | cons v vs ih =>
    obtain ⟨first, rest⟩ := List.forall_mem_cons.1 written
    rw [renderList, Error.eq_ok_got first, ih rest]
    rfl

theorem renderEntries_named (fields : List (String × Value)) :
    renderEntries (named fields) = fields.map fun f => (.str f.1, render f.2) := by
  induction fields with
  | nil => rfl
  | cons f fs ih =>
    rw [named, List.map_cons, renderEntries]
    exact congrArg _ ih

theorem render_dict {fields : List (String × Value)}
    (written : ∀ f ∈ fields, ∃ t, render f.2 = .ok t) :
    render (.dict (named fields)) = .ok (dictText ((inOrder fields).map fieldText)) := by
  have names : sortable ((fields.map fun f => (Value.str f.1, render f.2)).map Prod.fst) := by
    simp [sortable]
  have sorted : (fields.map fun f => (Value.str f.1, render f.2)).mergeSort
      (fun a b => keyLe a.1 b.1) = (inOrder fields).map fun f => (.str f.1, render f.2) := by
    rw [inOrder, List.map_mergeSort]
    intro a _ b _
    exact (keyLe_str a.1 b.1).symm
  rw [render, renderEntries_named, object, if_pos names]
  dsimp only
  rw [sorted, List.mapM_map]
  refine Error.bind_eq_ok_iff.2 ⟨_, Error.mapM_eq_ok fun f mem => ?_, rfl⟩
  have own := Error.eq_ok_got (written f (List.mem_mergeSort.1 mem))
  change (do let t ← render f.2; return encodeString f.1 ++ ": " ++ t) = Except.ok (fieldText f)
  rw [own]
  rfl

/-! ## Reading -/

/-- A value has a text that is read as the value in order, whatever follows, with fuel for two steps
for each character. -/
structure Reads (v : Value) : Prop where
  written : ∃ t, render v = .ok t
  first : ∃ c cs, (text v).toList = c :: cs ∧ isSpace c = false ∧ c ≠ ']'
  read : ∀ fuel rest, 2 * (text v).toList.length ≤ fuel → Ends rest →
    readValue fuel ((text v).toList ++ rest) = .ok (sortKeys v, rest)

theorem skipSpace_cons {c : Char} (solid : isSpace c = false) (cs : List Char) :
    skipSpace (c :: cs) = c :: cs := by
  rw [skipSpace, List.dropWhile_cons_of_neg (by simp [solid])]

theorem Reads.skipSpace {v : Value} (reads : Reads v) (rest : List Char) :
    skipSpace ((text v).toList ++ rest) = (text v).toList ++ rest := by
  obtain ⟨c, cs, chars, solid, -⟩ := reads.first
  rw [chars, List.cons_append, skipSpace_cons solid]

/-- What is put together starts with its first part. -/
theorem exists_intercalate_cons (sep s : String) (ls : List String) :
    ∃ tail, (sep.intercalate (s :: ls)).toList = s.toList ++ tail := by
  cases ls with
  | nil => exact ⟨[], by simp⟩
  | cons l ls =>
    refine ⟨sep.toList ++ (sep.intercalate (l :: ls)).toList, ?_⟩
    rw [String.intercalate_cons_cons]
    simp

/-- The blank after a comma is passed over. -/
theorem skipSpace_blank {cs : List Char} (solid : skipSpace cs = cs) :
    skipSpace (' ' :: cs) = cs := by
  rw [skipSpace, List.dropWhile_cons_of_pos (by decide)]
  exact solid

/-- Items are read up to the closing bracket, after those already read. -/
theorem readItems_eq {items : List Value} (some : items ≠ []) (reads : ∀ v ∈ items, Reads v)
    (fuel : Nat) (done : List Value) (rest : List Char)
    (enough : 2 * (", ".intercalate (items.map text)).toList.length + 2 ≤ fuel) :
    readItems fuel done ((", ".intercalate (items.map text)).toList ++ ']' :: rest) =
      .ok (.list (done.reverse ++ items.map sortKeys), rest) := by
  induction items generalizing fuel done with
  | nil => exact absurd rfl some
  | cons v vs ih =>
    obtain ⟨own, others⟩ := List.forall_mem_cons.1 reads
    obtain ⟨fuel, rfl⟩ : ∃ f, fuel = f + 1 := ⟨fuel - 1, by omega⟩
    cases vs with
    | nil =>
      simp only [List.map_cons, List.map_nil, String.intercalate_singleton] at enough ⊢
      rw [readItems.eq_2, own.read fuel _ (by omega) (ends_cons (by decide) rest)]
      exact congrArg (fun l => Except.ok (Value.list l, rest)) (by simp)
    | cons w ws =>
      obtain ⟨next, -⟩ := List.forall_mem_cons.1 others
      have ih := ih (List.cons_ne_nil w ws) others fuel (sortKeys v :: done)
      obtain ⟨tail, starts⟩ := exists_intercalate_cons ", " (text w) (ws.map text)
      have solid := next.skipSpace (tail ++ ']' :: rest)
      rw [← List.append_assoc, ← starts] at solid
      simp only [List.map_cons, String.intercalate_cons_cons, String.toList_append,
        List.length_append, List.append_assoc] at enough ih ⊢
      generalize (", ".intercalate (text w :: ws.map text)).toList = joined at *
      have comma : ", ".toList = [',', ' '] := rfl
      rw [comma] at enough ⊢
      simp only [List.length_cons, List.length_nil] at enough
      have item := own.read fuel (',' :: ' ' :: (joined ++ ']' :: rest)) (by omega)
        (ends_cons (by decide) _)
      rw [readItems.eq_2]
      change (readValue fuel ((text v).toList ++ ',' :: ' ' :: (joined ++ ']' :: rest)) >>= _) = _
      rw [item]
      change readItems fuel (sortKeys v :: done) (skipSpace (' ' :: (joined ++ ']' :: rest))) = _
      rw [skipSpace_blank solid, ih (by omega)]
      exact congrArg (fun l => Except.ok (Value.list l, rest)) (by simp)

/-! ## Fields -/

theorem same_str_ne {a b : String} (ne : a ≠ b) : (Value.str a).same (.str b) = false := by
  simpa using ne

/-- A new name comes after those that are there. -/
theorem insertEntry_named {done : List (String × Value)} {name : String}
    (fresh : name ∉ done.map Prod.fst) (v : Value) :
    Value.insertEntry (.str name) v (named done) = named (done ++ [(name, v)]) := by
  induction done with
  | nil => rfl
  | cons f fs ih =>
    rw [List.map_cons, List.mem_cons, not_or] at fresh
    change (if (Value.str f.1).same (.str name) then _ else _) = _
    rw [same_str_ne (Ne.symm fresh.1), if_neg (by decide)]
    exact congrArg _ (ih fresh.2)

theorem toList_fieldText (f : String × Value) : (fieldText f).toList =
    '"' :: (f.1.toList.flatMap encodeChar ++ '"' :: ':' :: ' ' :: (text f.2).toList) := by
  simp [fieldText, encodeString, encodeChars]

/-- One field is read, and what follows it decides how to go on. -/
theorem readEntries_field {f : String × Value} (reads : Reads f.2) {fuel : Nat}
    {done : List (String × Value)} (fresh : f.1 ∉ done.map Prod.fst)
    (enough : 2 * (text f.2).toList.length ≤ fuel) {tail : List Char} (ends : Ends tail) :
    readEntries (fuel + 1) (named done) ((fieldText f).toList ++ tail) =
      match skipSpace tail with
      | '\x7d' :: after => .ok (.dict (named (done ++ [(f.1, sortKeys f.2)])), after)
      | ',' :: more =>
        readEntries fuel (named (done ++ [(f.1, sortKeys f.2)])) (skipSpace more)
      | _ => .error .malformedJson := by
  have chars : (fieldText f).toList ++ tail = '"' :: (f.1.toList.flatMap encodeChar ++ '"' ::
      (':' :: ' ' :: ((text f.2).toList ++ tail))) := by
    rw [toList_fieldText]
    simp
  rw [chars, readEntries.eq_2, readString_encode]
  change (readValue fuel (skipSpace (' ' :: ((text f.2).toList ++ tail))) >>= _) = _
  rw [skipSpace_blank (reads.skipSpace tail), reads.read fuel tail enough ends,
    ← insertEntry_named fresh]
  rfl

/-- Fields are read up to the closing brace, after those already read. -/
theorem readEntries_eq {fields : List (String × Value)} (some : fields ≠ [])
    (reads : ∀ f ∈ fields, Reads f.2) (fuel : Nat) (done : List (String × Value))
    (distinct : (done.map Prod.fst ++ fields.map Prod.fst).Nodup) (rest : List Char)
    (enough : 2 * (", ".intercalate (fields.map fieldText)).toList.length + 2 ≤ fuel) :
    readEntries fuel (named done)
        ((", ".intercalate (fields.map fieldText)).toList ++ '\x7d' :: rest) =
      .ok (.dict (named (done ++ fields.map fun f => (f.1, sortKeys f.2))), rest) := by
  induction fields generalizing fuel done with
  | nil => exact absurd rfl some
  | cons f fs ih =>
    obtain ⟨own, others⟩ := List.forall_mem_cons.1 reads
    obtain ⟨fuel, rfl⟩ : ∃ k, fuel = k + 1 := ⟨fuel - 1, by omega⟩
    have fresh : f.1 ∉ done.map Prod.fst := by
      intro mem
      exact (List.nodup_append.1 distinct).2.2 f.1 mem f.1 (by simp) rfl
    have value : (text f.2).toList.length ≤ (fieldText f).toList.length := by
      rw [toList_fieldText]
      simp only [List.length_cons, List.length_append]
      omega
    cases fs with
    | nil =>
      simp only [List.map_cons, List.map_nil, String.intercalate_singleton] at enough ⊢
      rw [readEntries_field own fresh (by omega) (ends_cons (by decide) rest)]
      rfl
    | cons g gs =>
      have after : ((done ++ [(f.1, sortKeys f.2)]).map Prod.fst ++
          (g :: gs).map Prod.fst).Nodup := by simpa using distinct
      have ih := ih (List.cons_ne_nil g gs) others fuel (done ++ [(f.1, sortKeys f.2)]) after
      obtain ⟨tail, starts⟩ := exists_intercalate_cons ", " (fieldText g) (gs.map fieldText)
      have solid : skipSpace ((", ".intercalate (fieldText g :: gs.map fieldText)).toList ++
          '\x7d' :: rest) =
            (", ".intercalate (fieldText g :: gs.map fieldText)).toList ++ '\x7d' :: rest := by
        rw [starts, toList_fieldText]
        exact skipSpace_cons (by decide) _
      simp only [List.map_cons, String.intercalate_cons_cons, String.toList_append,
        List.length_append, List.append_assoc] at enough ih ⊢
      generalize (", ".intercalate (fieldText g :: gs.map fieldText)).toList = joined at *
      have comma : ", ".toList = [',', ' '] := rfl
      rw [comma] at enough ⊢
      simp only [List.length_cons, List.length_nil] at enough
      change readEntries (fuel + 1) (named done)
        ((fieldText f).toList ++ ',' :: ' ' :: (joined ++ '\x7d' :: rest)) = _
      rw [readEntries_field own fresh (by omega) (ends_cons (by decide) _)]
      change readEntries fuel _ (skipSpace (' ' :: (joined ++ '\x7d' :: rest))) = _
      rw [skipSpace_blank solid, ih (by omega)]
      simp

/-! ## Trees -/

theorem text_eq {v : Value} {t : String} (h : render v = .ok t) : text v = t := by
  rw [text, h]
  rfl

theorem reads_str (s : String) : Reads (.str s) := by
  have chars : (text (.str s)).toList = '"' :: (s.toList.flatMap encodeChar ++ ['"']) := by
    simp [text_eq (v := .str s) rfl, encodeString, encodeChars]
  refine ⟨⟨_, rfl⟩, ⟨_, _, chars, rfl, by decide⟩, fun fuel rest enough _ => ?_⟩
  rw [chars, List.length_cons] at enough
  obtain ⟨fuel, rfl⟩ : ∃ k, fuel = k + 1 := ⟨fuel - 1, by omega⟩
  rw [chars, List.cons_append, readValue.eq_2, List.append_assoc, List.singleton_append,
    readString_encode]
  rfl

/-- A whole number starts with a sign or a digit. -/
theorem exists_toString (n : Int) :
    ∃ c cs, (toString n).toList = c :: cs ∧ isSpace c = false ∧ c ≠ ']' := by
  have digit : ∀ k : Nat, ∃ c cs, (Nat.repr k).toList = c :: cs ∧ isSpace c = false ∧ c ≠ ']' := by
    intro k
    obtain ⟨d, ds, digits⟩ := List.exists_cons_of_ne_nil (@Nat.toDigits_ne_nil k 10)
    have first : d.isDigit := isDigit_of_mem (n := k) (by simp [digits])
    have ne := fun e other => Ne.symm (ne_of_isDigit first (d := e) other)
    refine ⟨d, ds, Nat.toList_repr.trans digits, ?_, ne ']' rfl⟩
    simp [isSpace, ne ' ' rfl, ne '\t' rfl, ne '\n' rfl, ne '\r' rfl]
  rw [Int.toString_eq_repr, Int.repr_eq_if]
  split
  · exact digit _
  · exact ⟨'-', _, String.toList_append, rfl, by decide⟩

theorem reads_int {n : Int} (writable : (Value.int n).hasText) : Reads (.int n) := by
  have written : render (.int n) = .ok (toString n) := by
    rw [render, wholeText, if_pos writable]
  obtain ⟨c, cs, chars, first⟩ := exists_toString n
  rw [← text_eq written] at chars
  refine ⟨⟨_, written⟩, ⟨c, cs, chars, first⟩, fun fuel rest enough ends => ?_⟩
  rw [chars, List.length_cons] at enough
  obtain ⟨fuel, rfl⟩ : ∃ k, fuel = k + 1 := ⟨fuel - 1, by omega⟩
  rw [text_eq written]
  exact readValue_int fuel writable ends

theorem reads_list {items : List Value} (each : ∀ v ∈ items, Reads v) : Reads (.list items) := by
  have written : render (.list items) = .ok (listText (items.map text)) := by
    rw [render, renderList_eq fun v mem => (each v mem).written]
    rfl
  have chars : (text (.list items)).toList =
      '[' :: ((", ".intercalate (items.map text)).toList ++ [']']) := by
    simp [text_eq written, listText]
  refine ⟨⟨_, written⟩, ⟨_, _, chars, by decide, by decide⟩, fun fuel rest enough ends => ?_⟩
  rw [chars, List.length_cons, List.length_append] at enough
  rw [chars, List.cons_append, List.append_assoc, List.singleton_append]
  obtain ⟨fuel, rfl⟩ : ∃ k, fuel = k + 1 := ⟨fuel - 1, by omega⟩
  rw [readValue.eq_3, sortKeys, sortItems_eq]
  cases items with
  | nil => rfl
  | cons v vs =>
    obtain ⟨tail, starts⟩ := exists_intercalate_cons ", " (text v) (vs.map text)
    obtain ⟨c, cs, first, solid, ne⟩ := (each v (by simp)).first
    have read := readItems_eq (List.cons_ne_nil v vs) each fuel [] rest (by
      simp only [List.length_singleton] at enough
      omega)
    rw [List.map_cons, starts, first, List.cons_append, List.cons_append] at read ⊢
    rw [skipSpace_cons solid]
    split
    · next eq => exact absurd (List.cons.inj eq).1 ne
    · exact read

theorem reads_dict {fields : List (String × Value)} (distinct : (fields.map Prod.fst).Nodup)
    (each : ∀ f ∈ fields, Reads f.2) : Reads (.dict (named fields)) := by
  have written := render_dict fun f mem => (each f mem).written
  have chars : (text (.dict (named fields))).toList =
      '\x7b' :: ((", ".intercalate ((inOrder fields).map fieldText)).toList ++ ['\x7d']) := by
    simp [text_eq written, dictText]
  refine ⟨⟨_, written⟩, ⟨_, _, chars, by decide, by decide⟩, fun fuel rest enough ends => ?_⟩
  rw [chars, List.length_cons, List.length_append] at enough
  rw [chars, List.cons_append, List.append_assoc, List.singleton_append, sortKeys_dict]
  obtain ⟨fuel, rfl⟩ : ∃ k, fuel = k + 1 := ⟨fuel - 1, by omega⟩
  have perm := List.mergeSort_perm fields fun a b => decide (a.1 ≤ b.1)
  have each : ∀ f ∈ inOrder fields, Reads f.2 := fun f mem => each f (perm.mem_iff.1 mem)
  have distinct : ((inOrder fields).map Prod.fst).Nodup :=
    (perm.map Prod.fst).nodup_iff.2 distinct
  rw [readValue.eq_4]
  cases sorted : inOrder fields with
  | nil => rfl
  | cons f fs =>
    rw [sorted] at each distinct enough
    obtain ⟨tail, starts⟩ := exists_intercalate_cons ", " (fieldText f) (fs.map fieldText)
    have read := readEntries_eq (List.cons_ne_nil f fs) each fuel [] distinct rest (by
      simp only [List.length_singleton] at enough
      omega)
    rw [List.map_cons, starts, toList_fieldText, List.cons_append, List.cons_append] at read ⊢
    rw [skipSpace_cons (by decide)]
    split
    · next eq => exact absurd (List.cons.inj eq).1 (by decide)
    · exact read

theorem Tree.reads {v : Value} (tree : Tree v) : Reads v := by
  induction tree with
  | str s => exact reads_str s
  | int writable => exact reads_int writable
  | list _ ih => exact reads_list ih
  | dict distinct _ ih => exact reads_dict distinct ih

/-- A tree is read back from its text, with its mappings in order. -/
theorem read_render {v : Value} (tree : Tree v) :
    ∃ t, render v = .ok t ∧ read t = .ok (sortKeys v) := by
  have reads := tree.reads
  refine ⟨_, Error.eq_ok_got reads.written, ?_⟩
  change read (text v) = _
  have solid := reads.skipSpace []
  rw [List.append_nil] at solid
  have whole := reads.read (2 * (text v).toList.length + 1) [] (by omega) ends_nil
  rw [List.append_nil] at whole
  rw [read, solid, whole]
  rfl

/-! ## Comparing trees -/

mutual

/-- Whether two trees are equal. -/
def agree : Value → Value → Bool
  | .str a, .str b => a == b
  | .int a, .int b => a == b
  | .list a, .list b => agreeAll a b
  | .dict a, .dict b => agreeEach a b
  | _, _ => false

def agreeAll : List Value → List Value → Bool
  | [], [] => true
  | v :: vs, w :: ws => agree v w && agreeAll vs ws
  | _, _ => false

def agreeEach : List (Value × Value) → List (Value × Value) → Bool
  | [], [] => true
  | (k, v) :: es, (l, w) :: fs => agree k l && agree v w && agreeEach es fs
  | _, _ => false

end

mutual

theorem eq_of_agree : ∀ {v w : Value}, agree v w = true → v = w
  | .str a, .str b, h => by simpa [agree] using h
  | .int a, .int b, h => by simpa [agree] using h
  | .list a, .list b, h => congrArg Value.list (eq_of_agreeAll (by rwa [agree] at h))
  | .dict a, .dict b, h => congrArg Value.dict (eq_of_agreeEach (by rwa [agree] at h))

theorem eq_of_agreeAll : ∀ {vs ws : List Value}, agreeAll vs ws = true → vs = ws
  | [], [], _ => rfl
  | v :: vs, w :: ws, h => by
    rw [agreeAll, Bool.and_eq_true] at h
    rw [eq_of_agree h.1, eq_of_agreeAll h.2]

theorem eq_of_agreeEach : ∀ {es fs : List (Value × Value)}, agreeEach es fs = true → es = fs
  | [], [], _ => rfl
  | (k, v) :: es, (l, w) :: fs, h => by
    rw [agreeEach, Bool.and_eq_true, Bool.and_eq_true] at h
    rw [eq_of_agree h.1.1, eq_of_agree h.1.2, eq_of_agreeEach h.2]

end

theorem eq_ok_of_agree {x : Except Error Value} {v : Value}
    (h : x.toOption.any (agree · v) = true) : x = .ok v := by
  cases x with
  | error e => cases h
  | ok w => exact congrArg Except.ok (eq_of_agree h)

end Polyad.Json
