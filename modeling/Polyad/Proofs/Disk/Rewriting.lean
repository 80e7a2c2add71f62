import Polyad.Proofs.Disk.Atomic

/-!
# Writing a file again

A path that has been written can be written again. Its directory is there, so none is made, and its
temporary file gets the number it had before, because the same numbers are taken: what the write has
left behind does not go by the name of a temporary file.
-/

namespace Polyad

namespace Disk

variable {d d' : Disk} {dir : Path} {k l : Location}

/-- Where the whole way is there nothing is made on it. -/
theorem KeptOrMade.same (h : KeptOrMade dir d d' k) (keeps : d.KeepsDirectories d')
    (place : d.locate dir = .ok l) (found : d.find? l = some .directory) :
    d'.find? k = d.find? k := by
  refine h.resolve_right ?_
  rintro ⟨none, -, q, root, ⟨rest, parts⟩, leads⟩
  have walk := walk_of_locate place
  rw [← parts] at walk
  obtain ⟨k', first, second⟩ := walk_append_eq_ok_iff.1 walk
  have directory : d.find? k' = some .directory := by
    cases rest with
    | nil => rwa [Except.ok.inj second]
    | cons part rest => exact (walk_cons_eq_ok_iff.1 second).1
  have begin : d'.start q = d.start dir := by rw [start, start, root, keeps.working]
  have leads := walk_of_locate leads
  rw [begin, keeps.walk first] at leads
  rw [← Except.ok.inj leads, directory] at none
  cases none

end Disk

namespace Sink

variable {faults : Faults} {d d' : Disk} {path : Path} {l t dir : Location} {name : String}

/-! ## The number of a temporary file -/

theorem isSome_of_lt_freeNumber {fuel n m : Nat} (le : n ≤ m)
    (lt : m < freeNumber d dir name fuel n) :
    (d.find? (dir ++ [temporaryName name m])).isSome := by
  induction fuel generalizing n with
  | zero =>
    rw [freeNumber] at lt
    omega
  | succ fuel ih =>
    rw [freeNumber] at lt
    split at lt
    · next taken =>
      rcases Nat.eq_or_lt_of_le le with rfl | later
      · exact taken
      · exact ih later lt
    · omega

/-- The number found is the first free one, so it depends only on which ones are taken. -/
theorem freeNumber_congr (same : ∀ n, (d'.find? (dir ++ [temporaryName name n])).isSome =
      (d.find? (dir ++ [temporaryName name n])).isSome) :
    freeNumber d' dir name d'.entries.length 0 = freeNumber d dir name d.entries.length 0 := by
  have free := find?_freeNumber d dir name
  have free' := find?_freeNumber d' dir name
  rcases Nat.lt_trichotomy (freeNumber d' dir name d'.entries.length 0)
    (freeNumber d dir name d.entries.length 0) with lt | eq | lt
  · have taken := isSome_of_lt_freeNumber (Nat.zero_le _) lt
    rw [← same, free'] at taken
    cases taken
  · exact eq
  · have taken := isSome_of_lt_freeNumber (Nat.zero_le _) lt
    rw [same, free] at taken
    cases taken

theorem nextTemporary_congr (same : ∀ n, (d'.find? (dir ++ [temporaryName path.name n])).isSome =
      (d.find? (dir ++ [temporaryName path.name n])).isSome) :
    nextTemporary path d' dir = nextTemporary path d dir := by
  rw [nextTemporary, nextTemporary, freeNumber_congr same]

/-! ## Room for a temporary file -/

/-- Room for a temporary file stays where the same numbers are taken. -/
theorem HasRoom.mono (room : HasRoom path d) (keeps : d.KeepsDirectories d')
    (same : ∀ dir, d.locate path.parent = .ok dir → ∀ n,
      (d'.find? (dir ++ [temporaryName path.name n])).isSome =
        (d.find? (dir ++ [temporaryName path.name n])).isSome) : HasRoom path d' := by
  obtain ⟨dir, l, parent, directory, place⟩ := room
  refine ⟨dir, l, keeps.locate parent, keeps.directory dir directory, ?_⟩
  rw [nextTemporary_congr (same dir parent)]
  exact keeps.locate place

/-- There is room if the first name for a temporary file is free and has a place. -/
theorem hasRoom_of_free (parent : d.locate path.parent = .ok dir)
    (directory : d.find? dir = some .directory) (first : temporaryName path.name 0 = name)
    (free : d.find? (dir ++ [name]) = none) (place : d.locate (path.parent.child name) = .ok l) :
    HasRoom path d := by
  subst first
  have number : freeNumber d dir path.name d.entries.length 0 = 0 := by
    cases d.entries.length with
    | zero => rfl
    | succ fuel => rw [freeNumber, free, if_neg (by decide)]
  refine ⟨dir, l, parent, directory, ?_⟩
  rw [nextTemporary, number]
  exact place

/-- A temporary file that has been created has room. -/
theorem hasRoom_of_createTemporary (done : createTemporary path d = (.ok l, d')) :
    HasRoom path d := by
  cases parent : d.locate path.parent with
  | error e =>
    have located : DiskM.locate path.parent d = (.error e, d) := by
      rw [DiskM.locate_apply, parent]
    rw [createTemporary, Steps.bind_error located] at done
    cases done
  | ok dir =>
    cases place : d.locate (nextTemporary path d dir) with
    | error e =>
      have failed : DiskM.locate (nextTemporary path d dir) d = (.error e, d) := by
        rw [DiskM.locate_apply, place]
      have stuck : createTemporary path d = (.error e, d) := by
        rw [createTemporary_eq parent]
        exact Steps.bind_error (Steps.bind_error failed)
      rw [stuck] at done
      cases done
    | ok l =>
      obtain ⟨k, before, last⟩ := Disk.walk_append_eq_ok_iff.1 (Disk.walk_of_locate place)
      have same : k = dir :=
        Except.ok.inj (before.symm.trans (Disk.walk_of_locate parent))
      exact ⟨dir, l, parent, same ▸ (Disk.walk_cons_eq_ok_iff.1 last).1, place⟩

/-- The file that takes the place of the old one leaves the room as it was. -/
theorem Replaced.hasRoom {bytes : ByteArray} {mode : Nat} (room : HasRoom path d)
    (replaced : Replaced path t bytes mode d d') : HasRoom path d' := by
  have keeps : d.KeepsDirectories d' := by
    refine ⟨replaced.working, fun k found => ?_⟩
    rw [replaced.others k fun eq => replaced.file (eq ▸ found), found]
  refine room.mono keeps fun dir parent n => ?_
  rw [replaced.others _ (temporary_ne_target parent replaced.place n).symm]

/-! ## Writes -/

/-- After a write there is room for another one. -/
theorem hasRoom_of_writeBytes {bytes : ByteArray}
    (done : writeBytes faults path bytes d = (.ok (), d')) : HasRoom path d' := by
  unfold writeBytes at done
  rcases parents : makeParents faults path d with ⟨_ | u, d₁⟩
  · rw [Steps.bind_error parents] at done
    cases done
  · rw [Steps.bind_ok parents] at done
    rcases step_or faults .readMode (modeFor_cases path d₁) with
      ⟨mode, d₁, read, -, rfl⟩ | ⟨f, failed⟩
    · rw [Steps.bind_ok read] at done
      have creating : (∃ l d₂, createTemporary path d₁ = (.ok l, d₂) ∧
          Created path l d₁ d₂ ∧ HasRoom path d₁) ∨
          ∃ e, createTemporary path d₁ = (.error e, d₁) := by
        rcases createTemporary_cases path d₁ with ⟨l, d₂, act, created⟩ | failed
        · exact .inl ⟨l, d₂, act, created, hasRoom_of_createTemporary act⟩
        · exact .inr failed
      rcases step_or faults .createTemporary creating with
        ⟨l, d₂, made, created, room⟩ | ⟨f, failed⟩
      · rw [Steps.bind_ok made, removingOnFailure] at done
        rcases fillAndReplace_cases faults created bytes mode with
          ⟨t, d₃, filled, replaced⟩ | ⟨f, d₃, e, failed, -⟩
        · rw [filled] at done
          cases done
          exact replaced.hasRoom room
        · rw [failed] at done
          cases done
      · rw [Steps.bind_error failed] at done
        cases done
    · rw [Steps.bind_error failed] at done
      cases done

theorem hasRoom_of_write {encoding text : String} {size : Nat}
    (done : write faults encoding path text d = (.ok size, d')) : HasRoom path d' := by
  unfold write at done
  rcases performed : perform faults encoding path text d with ⟨_ | n, d₁⟩
  · rw [performed] at done
    cases done
  · rw [performed] at done
    cases done
    unfold perform at performed
    rcases encode_cases faults encoding text d with ⟨bytes, encoded, -⟩ | ⟨fault, failed, -⟩
    · rw [Steps.bind_ok encoded] at performed
      rcases written : writeBytes faults path bytes d with ⟨_ | u, d₂⟩
      · rw [Steps.bind_error written] at performed
        cases performed
      · rw [Steps.bind_ok written] at performed
        cases performed
        exact hasRoom_of_writeBytes written
    · rw [Steps.bind_error failed] at performed
      cases performed

/-- With room for a temporary file a file is written again. -/
theorem write_of_hasRoom {encoding text : String} {bytes : ByteArray}
    (calm : ∀ s, faults.at? s = none) (encoded : Text.encode encoding text = .ok bytes)
    (room : HasRoom path d) (target : d.locate path = .ok t)
    (file : d.find? t ≠ some .directory) :
    ∃ d', write faults encoding path text d = (.ok bytes.size, d') := by
  obtain ⟨d', done⟩ := perform_of_hasRoom calm encoded room target file
  exact ⟨d', by rw [write, done]⟩

/-- The permissions that a file gets have nothing to be taken away from. -/
theorem permissions_modeAt (d : Disk) (l : Location) : permissions (modeAt d l) = modeAt d l := by
  have small : modeAt d l < 0o1000 := by
    unfold modeAt
    split
    · exact Nat.mod_lt _ (by decide)
    · decide
  exact Nat.mod_eq_of_lt small

end Sink
end Polyad
