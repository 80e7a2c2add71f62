import Polyad.Proofs.Disk.Faults
import Polyad.Proofs.Disk.Temporary

/-!
# Replacing a file

The last steps of a write: the temporary file is filled and takes the place of the old one. It never
stands in that place itself, and until the end it is all that is new on the disk.
-/

namespace Polyad.Sink

variable {faults : Faults} {d d₁ d₂ d' : Disk} {path : Path} {l t : Location} {e e' : Entry}

/-! ## The temporary file -/

/-- `d'` is `d` with an entry at `l`. -/
structure IsPut (l : Location) (e : Entry) (d d' : Disk) : Prop where
  working : d'.working = d.working
  entry : ∀ k, d'.find? k = if k = l then some e else d.find? k

theorem isPut_put (ne : l ≠ []) : IsPut l e d (d.put l e) :=
  ⟨rfl, Disk.find?_put d ne e⟩

theorem IsPut.put (h : IsPut l e d d') (ne : l ≠ []) (e' : Entry) : IsPut l e' d (d'.put l e') := by
  refine ⟨h.working, fun k => ?_⟩
  rw [Disk.find?_put d' ne, h.entry]
  split <;> rfl

/-- Without the entry the disk is as it was, if the entry is all that was added. -/
theorem IsPut.find?_erase (h : IsPut l e d d') (free : d.find? l = none) (k : Location) :
    (d'.erase l).find? k = d.find? k := by
  rw [Disk.find?_erase d' (Disk.ne_nil_of_find?_eq_none free)]
  split
  · next same => rw [same, free]
  · next ne => rw [h.entry, if_neg ne]

theorem IsPut.keeps (h : IsPut l e d d') (free : d.find? l = none) : d.KeepsDirectories d' := by
  refine ⟨h.working, fun k found => ?_⟩
  have ne : k ≠ l := by
    rintro rfl
    rw [free] at found
    cases found
  rw [h.entry, if_neg ne, found]

theorem IsPut.keeps_of_file {bytes : ByteArray} {mode : Nat}
    (h : IsPut l (.file bytes mode) d d') : d'.KeepsDirectories d := by
  refine ⟨h.working.symm, fun k found => ?_⟩
  rw [h.entry] at found
  split at found
  · cases found
  · exact found

/-- A path never leads to one of its temporary files. -/
theorem temporary_ne_target {dir : Location} (parent : d.locate path.parent = .ok dir)
    (place : d.locate path = .ok t) (n : Nat) : t ≠ dir ++ [temporaryName path.name n] := by
  rintro rfl
  rcases List.eq_nil_or_concat path.parts with nil | ⟨above, name, parts⟩
  · have same : path.parent = path := by
      rw [Path.parent, nil, List.dropLast_nil, ← nil]
    rw [same, place] at parent
    have := congrArg List.length (Except.ok.inj parent)
    simp at this
  · have above_eq : path.parent.parts = above := by simp [Path.parent, parts]
    have name_eq : path.name = name := by simp [Path.name, parts]
    have walk := Disk.walk_of_locate place
    rw [parts, List.concat_eq_append] at walk
    obtain ⟨k, before, last⟩ := Disk.walk_append_eq_ok_iff.1 walk
    have same : k = dir := by
      have walk := Disk.walk_of_locate parent
      rw [above_eq] at walk
      exact Except.ok.inj (before.symm.trans walk)
    rw [same] at last
    obtain ⟨-, ⟨-, up⟩ | ⟨-, -, down⟩⟩ := Disk.walk_cons_eq_ok_iff.1 last
    · have := congrArg List.length (Except.ok.inj up)
      simp at this
    · have same := Except.ok.inj down
      rw [name_eq, List.append_right_inj, List.singleton_inj] at same
      exact temporaryName_ne name n same.symm

/-- The temporary file of a path never stands where the path leads. -/
theorem Created.ne_target (created : Created path l d₁ d₂) (keeps : d₁.KeepsDirectories d)
    (place : d.locate path = .ok t) : t ≠ l := by
  obtain ⟨dir, n, parent, rfl⟩ := created.beside
  exact temporary_ne_target (keeps.locate parent) place n

/-! ## Replacing a file -/

theorem replace_ok (source : d.find? l = some e) (place : d.locate path = .ok t)
    (file : d.find? t ≠ some .directory) :
    DiskM.replace l path d = (.ok (), (d.erase l).put t e) := by
  have located : DiskM.locate path d = (.ok t, d) := by rw [DiskM.locate_apply, place]
  rw [DiskM.replace, Steps.bind_ok located, Steps.get_bind, Steps.get_bind, source]
  cases found : d.find? t with
  | none => rfl
  | some old =>
    cases old with
    | directory => exact absurd found file
    | file bytes mode => rfl

theorem replace_directory (source : d.find? l = some e) (place : d.locate path = .ok t)
    (directory : d.find? t = some .directory) :
    DiskM.replace l path d = (.error .isDirectory, d) := by
  have located : DiskM.locate path d = (.ok t, d) := by rw [DiskM.locate_apply, place]
  rw [DiskM.replace, Steps.bind_ok located, Steps.get_bind, Steps.get_bind, source, directory]
  rfl

theorem replace_cases (source : d.find? l = some e) (path : Path) :
    (∃ u d', DiskM.replace l path d = (.ok u, d') ∧ ∃ t, d.locate path = .ok t ∧
      d.find? t ≠ some .directory ∧ d' = (d.erase l).put t e) ∨
    ∃ cause, DiskM.replace l path d = (.error cause, d) := by
  cases place : d.locate path with
  | error cause =>
    have failed : DiskM.locate path d = (.error cause, d) := by rw [DiskM.locate_apply, place]
    exact .inr ⟨cause, Steps.bind_error failed⟩
  | ok t =>
    by_cases directory : d.find? t = some .directory
    · exact .inr ⟨_, replace_directory source place directory⟩
    · exact .inl ⟨(), _, replace_ok source place directory, t, rfl, directory, rfl⟩

/-- `path` leads to `t`, which is no directory and holds `bytes`; nothing else has changed. -/
structure Replaced (path : Path) (t : Location) (bytes : ByteArray) (mode : Nat)
    (d d' : Disk) : Prop where
  working : d'.working = d.working
  place : d.locate path = .ok t
  file : d.find? t ≠ some .directory
  filled : d'.find? t = some (.file bytes mode)
  others : ∀ k, k ≠ t → d'.find? k = d.find? k

/-- Once the temporary file is there, either it takes the place of the file, or nothing but it is
left. -/
theorem fillAndReplace_cases (faults : Faults) (created : Created path l d₁ d₂)
    (bytes : ByteArray) (mode : Nat) :
    (∃ t d', fillAndReplace faults l path bytes mode d₂ = (.ok (), d') ∧
      Replaced path t bytes mode d₁ d') ∨
    ∃ f d' e, fillAndReplace faults l path bytes mode d₂ = (.error f, d') ∧
      IsPut l e d₁ d' := by
  have ne := Disk.ne_nil_of_find?_eq_none created.free
  have empty : IsPut l (.file .empty privateMode) d₁ d₂ := created.eq ▸ isPut_put ne
  unfold fillAndReplace
  rcases step_cases faults .writeData
      (modify (·.put l (.file (bytes.extract 0 faults.written) privateMode)))
      (modify (·.put l (.file bytes privateMode))) d₂ with
    ⟨_, d₃, done, -, act⟩ | ⟨_, _, -, -, act⟩ | ⟨fault, done, -⟩
  · obtain rfl : d₂.put l (.file bytes privateMode) = d₃ := congrArg Prod.snd act
    rw [Steps.bind_ok done]
    have full := empty.put ne (.file bytes privateMode)
    generalize d₂.put l (.file bytes privateMode) = d₃ at full
    have setting : (∃ x d₄, (modify (·.put l (.file bytes mode)) : DiskM Unit) d₃ = (.ok x, d₄) ∧
        d₄ = d₃.put l (.file bytes mode)) ∨ ∃ cause,
          (modify (·.put l (.file bytes mode)) : DiskM Unit) d₃ = (.error cause, d₃) :=
      .inl ⟨(), _, rfl, rfl⟩
    rcases step_or faults .setMode setting with
      ⟨_, d₄, done, rfl⟩ | ⟨f, done⟩
    · rw [Steps.bind_ok done]
      have ready := full.put ne (.file bytes mode)
      generalize d₃.put l (.file bytes mode) = d₄ at ready
      rcases step_or faults .replace
          (replace_cases ((ready.entry l).trans (if_pos rfl)) path) with
        ⟨_, d', done, t, place, file, rfl⟩ | ⟨f, done⟩
      · have other := created.ne_target (ready.keeps created.free) place
        have top : t ≠ [] := by
          rintro rfl
          exact file rfl
        have entry := Disk.find?_put (d₄.erase l) top (.file bytes mode)
        refine .inl ⟨t, _, done, ready.working, ready.keeps_of_file.locate place, ?_, ?_, ?_⟩
        · rwa [ready.entry, if_neg other] at file
        · rw [entry, if_pos rfl]
        · intro k ne
          rw [entry, if_neg ne, ready.find?_erase created.free]
      · exact .inr ⟨_, _, _, done, ready⟩
    · exact .inr ⟨_, _, _, Steps.bind_error done, full⟩
  · cases act
  · exact .inr ⟨_, _, _, Steps.bind_error done, empty.put ne _⟩

/-- A path that leads to no directory is replaced if nothing comes from outside. -/
theorem fillAndReplace_ok (calm : ∀ s, faults.at? s = none) (created : Created path l d₁ d₂)
    (place : d₁.locate path = .ok t) (file : d₁.find? t ≠ some .directory) (bytes : ByteArray)
    (mode : Nat) : ∃ d', fillAndReplace faults l path bytes mode d₂ = (.ok (), d') := by
  have ne := Disk.ne_nil_of_find?_eq_none created.free
  have empty : IsPut l (.file .empty privateMode) d₁ d₂ := created.eq ▸ isPut_put ne
  have ready := (empty.put ne (.file bytes privateMode)).put ne (.file bytes mode)
  have place' := (ready.keeps created.free).locate place
  have other := created.ne_target (ready.keeps created.free) place'
  have file' : ((d₂.put l (.file bytes privateMode)).put l (.file bytes mode)).find? t ≠
      some .directory := by
    rwa [ready.entry, if_neg other]
  have replaced := replace_ok ((ready.entry l).trans (if_pos rfl)) place' file'
  have written : (modify (·.put l (.file bytes privateMode)) : DiskM Unit) d₂ =
      (.ok (), d₂.put l (.file bytes privateMode)) := rfl
  generalize d₂.put l (.file bytes privateMode) = d₃ at *
  have settled : (modify (·.put l (.file bytes mode)) : DiskM Unit) d₃ =
      (.ok (), d₃.put l (.file bytes mode)) := rfl
  rw [fillAndReplace, Steps.bind_ok (step_ok (calm .writeData) written),
    Steps.bind_ok (step_ok (calm .setMode) settled)]
  exact ⟨_, step_ok (calm .replace) replaced⟩

/-- The permissions a file at `l` gets: those of the file that is there, or those of a new one. -/
def modeAt (d : Disk) (l : Location) : Nat :=
  match d.find? l with
  | some (.file _ mode) => permissions mode
  | _ => defaultMode

theorem modeFor_ok (place : d.locate path = .ok t) :
    modeFor path d = (.ok (modeAt d t), d) := by
  have looked : d.lookAt path = .ok (d.find? t) := by rw [Disk.lookAt, place]; rfl
  rw [modeFor, Steps.get_bind, looked, modeAt]
  cases d.find? t with
  | none => rfl
  | some old => cases old <;> rfl

theorem modeFor_cases (path : Path) (d : Disk) :
    (∃ mode d', modeFor path d = (.ok mode, d') ∧
      (∀ t, d.locate path = .ok t → mode = modeAt d t) ∧ d' = d) ∨
    ∃ cause, modeFor path d = (.error cause, d) := by
  cases place : d.locate path with
  | error cause =>
    have looked : d.lookAt path = .error cause := by rw [Disk.lookAt, place]; rfl
    have nowhere (mode : Nat) : ∀ t, .error cause = Except.ok t → mode = modeAt d t := by
      intro t same
      cases same
    rw [modeFor, Steps.get_bind, looked]
    cases cause with
    | nameTooLong => exact .inr ⟨_, rfl⟩
    | _ => exact .inl ⟨_, d, rfl, nowhere _, rfl⟩
  | ok t =>
    exact .inl ⟨_, d, modeFor_ok place, fun t' same => by rw [Except.ok.inj same], rfl⟩

end Polyad.Sink
