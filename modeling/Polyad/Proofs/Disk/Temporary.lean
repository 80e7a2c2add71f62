import Mathlib.Data.List.Nodup
import Polyad.Disk.Sink
import Polyad.Proofs.Disk.Growth

/-!
# Temporary files

The name of a temporary file is longer than that of the file it is for, and there are more numbers
to tell such names apart than entries on the disk. So creating one puts an empty file where nothing
was, in the directory of its file, and not in the place of its file.
-/

namespace Polyad

/-! ## Names -/

theorem toList_padded (width n : Nat) : (padded width n).toList =
    List.replicate (width - (Nat.toDigits 10 n).length) '0' ++ Nat.toDigits 10 n := by
  rw [padded, String.toList_ofList, Decimal.natDigits]

theorem le_length_padded (width n : Nat) : width ≤ (padded width n).toList.length := by
  rw [toList_padded, List.length_append, List.length_replicate]
  omega

/-- Zeros in front change no number. -/
theorem ofDigitChars_padded (width n : Nat) :
    Nat.ofDigitChars 10 (padded width n).toList 0 = n := by
  rw [toList_padded, Nat.ofDigitChars_append, Nat.ofDigitChars_replicate_zero, Nat.mul_zero,
    Nat.ofDigitChars_toDigits (by decide) (by decide)]

namespace Sink

theorem temporaryName_injective (name : String) {m n : Nat}
    (h : temporaryName name m = temporaryName name n) : m = n := by
  have chars := congrArg String.toList h
  simp only [temporaryName, String.toList_append, List.append_left_inj, List.append_assoc,
    List.append_right_inj] at chars
  rw [← ofDigitChars_padded 8 m, chars, ofDigitChars_padded]

theorem length_lt_length_temporaryName (name : String) (n : Nat) :
    name.toList.length + 8 < (temporaryName name n).toList.length := by
  have wide := le_length_padded 8 n
  simp only [temporaryName, String.toList_append, List.length_append]
  have : ".".toList.length = 1 := rfl
  omega

theorem temporaryName_ne (name : String) (n : Nat) : temporaryName name n ≠ name := by
  intro same
  have longer := length_lt_length_temporaryName name n
  rw [same] at longer
  omega

theorem temporaryName_ne_parent (name : String) (n : Nat) : temporaryName name n ≠ ".." := by
  intro same
  have longer := length_lt_length_temporaryName name n
  rw [same] at longer
  have : "..".toList.length = 2 := rfl
  omega

/-! ## Free numbers -/

variable {d : Disk} {dir : Location} {name : String}

theorem mem_of_isSome_find? {l : Location} (ne : l ≠ []) (h : (d.find? l).isSome) :
    l ∈ d.entries.map Prod.fst := by
  rw [Disk.find?, if_neg ne] at h
  generalize d.entries = es at h ⊢
  induction es with
  | nil => cases h
  | cons e es ih =>
    rw [List.lookup_cons] at h
    split at h
    · next same => exact List.mem_cons.2 (.inl (by simpa using same))
    · exact List.mem_cons_of_mem _ (ih h)

/-- The number found is free unless all the numbers tried are taken. -/
theorem find?_freeNumber_or (fuel n : Nat) :
    d.find? (dir ++ [temporaryName name (freeNumber d dir name fuel n)]) = none ∨
      ∀ i < fuel + 1, (d.find? (dir ++ [temporaryName name (n + i)])).isSome := by
  induction fuel generalizing n with
  | zero =>
    rw [freeNumber]
    cases found : d.find? (dir ++ [temporaryName name n]) with
    | none => exact .inl rfl
    | some e =>
      refine .inr fun i lt => ?_
      obtain rfl : i = 0 := by omega
      rw [Nat.add_zero, found]
      rfl
  | succ fuel ih =>
    rw [freeNumber]
    split
    · next taken =>
      refine (ih (n + 1)).imp_right fun all i lt => ?_
      cases i with
      | zero => exact taken
      | succ i =>
        rw [Nat.add_comm i 1, ← Nat.add_assoc]
        exact all i (by omega)
    · next free => exact .inl (by simpa using free)

/-- There are more numbers to try than entries that could take them. -/
theorem find?_freeNumber (d : Disk) (dir : Location) (name : String) :
    d.find? (dir ++ [temporaryName name (freeNumber d dir name d.entries.length 0)]) = none := by
  refine (find?_freeNumber_or d.entries.length 0).resolve_right fun all => ?_
  let places := (List.range (d.entries.length + 1)).map fun i => dir ++ [temporaryName name i]
  have distinct : places.Nodup := by
    refine List.Nodup.map (fun i j same => temporaryName_injective name ?_)
      List.nodup_range
    simpa using same
  have taken : places ⊆ d.entries.map Prod.fst := by
    intro l mem
    obtain ⟨i, lt, rfl⟩ := List.mem_map.1 mem
    have some := all i (List.mem_range.1 lt)
    rw [Nat.zero_add] at some
    exact mem_of_isSome_find? (by simp) some
  have le := distinct.length_le_of_subset taken
  simp only [places, List.length_map, List.length_range] at le
  omega

/-! ## Creation -/

/-- What the creation of a temporary file at `l` for the file at `path` has done. -/
structure Created (path : Path) (l : Location) (d d' : Disk) : Prop where
  beside : ∃ dir n, d.locate path.parent = .ok dir ∧ l = dir ++ [temporaryName path.name n]
  free : d.find? l = none
  eq : d' = d.put l (.file .empty privateMode)

theorem openFile_free {p : Path} {l : Location} (place : d.locate p = .ok l)
    (free : d.find? l = none) (mode : Nat) :
    DiskM.openFile p mode d = (.ok (l, .empty, mode), d.put l (.file .empty mode)) := by
  have located : DiskM.locate p d = (.ok l, d) := by rw [DiskM.locate_apply, place]
  rw [DiskM.openFile, Steps.bind_ok located, Steps.get_bind, free]
  rfl

/-- Below a directory, a name other than that of the parent leads to the entry of that name. -/
theorem locate_child {p : Path} {name : String} {l : Location} (parent : d.locate p = .ok dir)
    (ne : name ≠ "..") (place : d.locate (p.child name) = .ok l) : l = dir ++ [name] := by
  obtain ⟨k, before, last⟩ := Disk.walk_append_eq_ok_iff.1 (Disk.walk_of_locate place)
  have same : k = dir := by
    have walk := Disk.walk_of_locate parent
    change d.walk (d.start p) p.parts = .ok k at before
    rw [before] at walk
    cases walk
    rfl
  rw [same] at last
  exact Disk.eq_append_of_walk (by simpa using ne.symm) last

theorem freeNumber_le (d : Disk) (dir : Location) (name : String) (fuel n : Nat) :
    freeNumber d dir name fuel n ≤ n + fuel := by
  induction fuel generalizing n with
  | zero => exact Nat.le_refl n
  | succ fuel ih =>
    rw [freeNumber]
    split
    · have := ih (n + 1)
      omega
    · omega

/-- The path of the temporary file that is created next for a file. -/
def nextTemporary (path : Path) (d : Disk) (dir : Location) : Path :=
  path.parent.child
    (temporaryName path.name (freeNumber d dir path.name d.entries.length 0))

/-- The creation of a temporary file as a file of its own. -/
theorem createTemporary_eq {path : Path} (parent : d.locate path.parent = .ok dir) :
    createTemporary path d =
      (DiskM.openFile (nextTemporary path d dir) privateMode >>= fun x => pure x.1) d := by
  have located : DiskM.locate path.parent d = (.ok dir, d) := by rw [DiskM.locate_apply, parent]
  rw [createTemporary, Steps.bind_ok located]
  rfl

theorem createTemporary_ok {path : Path} {l : Location} (parent : d.locate path.parent = .ok dir)
    (place : d.locate (nextTemporary path d dir) = .ok l) :
    ∃ d', createTemporary path d = (.ok l, d') ∧ Created path l d d' := by
  obtain rfl := locate_child parent (temporaryName_ne_parent _ _) place
  have free := find?_freeNumber d dir path.name
  refine ⟨_, ?_, ⟨dir, _, parent, rfl⟩, free, rfl⟩
  rw [createTemporary_eq parent, Steps.bind_ok (openFile_free place free privateMode)]
  rfl

/-- A temporary file is created beside its file, or nothing happens. -/
theorem createTemporary_cases (path : Path) (d : Disk) :
    (∃ l d', createTemporary path d = (.ok l, d') ∧ Created path l d d') ∨
      ∃ e, createTemporary path d = (.error e, d) := by
  cases parent : d.locate path.parent with
  | error e =>
    have located : DiskM.locate path.parent d = (.error e, d) := by
      rw [DiskM.locate_apply, parent]
    exact .inr ⟨e, Steps.bind_error located⟩
  | ok dir =>
    cases place : d.locate (nextTemporary path d dir) with
    | error e =>
      have failed : DiskM.locate (nextTemporary path d dir) d = (.error e, d) := by
        rw [DiskM.locate_apply, place]
      rw [createTemporary_eq parent]
      exact .inr ⟨e, Steps.bind_error (Steps.bind_error failed)⟩
    | ok l => exact .inl ⟨l, createTemporary_ok parent place⟩

end Sink
end Polyad
