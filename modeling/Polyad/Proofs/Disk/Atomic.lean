import Polyad.Proofs.Disk.Replacing

/-!
# Writes as a whole

A write either puts a whole text at its destination or leaves every entry as it was, whatever step
fails and however. Only the directories made on the way to the destination stay. The failure of a
step is told apart by what the step raised.
-/

namespace Polyad.Sink

variable {faults : Faults} {d d₁ d' : Disk} {path : Path} {t : Location}

/-! ## Bytes -/

theorem opened_makeParents (faults : Faults) (path : Path) (d : Disk) :
    Disk.Opened path.parent d (makeParents faults path d).2 := by
  unfold makeParents
  have whole := DiskM.opened_ensureDirectory path.parent d
  rcases step_cases faults .makeParents
      (DiskM.ensureDirectory { path.parent with parts := path.parent.parts.take faults.settled })
      (DiskM.ensureDirectory path.parent) d with
    ⟨_, d', done, -, act⟩ | ⟨_, d', done, -, act⟩ | ⟨fault, done, -⟩
  · rw [done]
    rwa [act] at whole
  · rw [done]
    rwa [act] at whole
  · rw [done]
    exact (DiskM.opened_ensureDirectory _ d).mono rfl (List.take_prefix _ _)

/-- `path` leads to a file of `bytes` with the permissions it had before, or those of a new file.
Apart from it, only directories are made on the way. -/
structure Written (path : Path) (bytes : ByteArray) (d d' : Disk) : Prop where
  working : d'.working = d.working
  file : ∃ t, d'.locate path = .ok t ∧ d.find? t ≠ some .directory ∧
    d'.find? t = some (.file bytes (modeAt d t)) ∧
    ∀ k, k ≠ t → Disk.KeptOrMade path.parent d d' k

theorem Replaced.written {bytes : ByteArray} (opened : Disk.Opened path.parent d d₁)
    (replaced : Replaced path t bytes (modeAt d₁ t) d₁ d') : Written path bytes d d' := by
  have same : d₁.find? t = d.find? t := by
    rcases opened.entry t with same | ⟨-, made, -⟩
    · exact same
    · exact absurd made replaced.file
  have keeps : d₁.KeepsDirectories d' := by
    refine ⟨replaced.working, fun k found => ?_⟩
    rw [replaced.others k fun eq => replaced.file (eq ▸ found), found]
  refine ⟨replaced.working.trans opened.working, t, keeps.locate replaced.place, ?_, ?_, ?_⟩
  · exact same ▸ replaced.file
  · rw [replaced.filled, modeAt, modeAt, same]
  · intro k ne
    rcases opened.entry k with kept | ⟨none, made, q, root, parts, leads⟩
    · exact .inl ((replaced.others k ne).trans kept)
    · have made' := (replaced.others k ne).trans made
      exact .inr ⟨none, made', q, root, parts, keeps.locate leads⟩

/-- Bytes are written as a whole, or nothing is but directories on the way. -/
theorem writeBytes_cases (faults : Faults) (path : Path) (bytes : ByteArray) (d : Disk) :
    (∃ d', writeBytes faults path bytes d = (.ok (), d') ∧ Written path bytes d d') ∨
    ∃ f d', writeBytes faults path bytes d = (.error f, d') ∧ Disk.Opened path.parent d d' := by
  have opened := opened_makeParents faults path d
  unfold writeBytes
  rcases parents : makeParents faults path d with ⟨r, d₁⟩
  rw [parents] at opened
  cases r with
  | error f => exact .inr ⟨f, d₁, Steps.bind_error parents, opened⟩
  | ok u =>
    rw [Steps.bind_ok parents]
    rcases step_or faults .readMode (modeFor_cases path d₁) with
      ⟨mode, d₁, done, known, rfl⟩ | ⟨f, done⟩
    · rw [Steps.bind_ok done]
      rcases step_or faults .createTemporary (createTemporary_cases path d₁)
        with ⟨l, d₂, done, created⟩ | ⟨f, done⟩
      · rw [Steps.bind_ok done]
        unfold removingOnFailure
        rcases fillAndReplace_cases faults created bytes mode with
          ⟨t, d', done, replaced⟩ | ⟨f, d', e, done, put⟩
        · rw [done]
          obtain rfl := known t replaced.place
          exact .inl ⟨d', rfl, replaced.written opened⟩
        · rw [done]
          refine .inr ⟨f, _, rfl, opened.trans ⟨put.working, fun k => .inl ?_⟩⟩
          exact put.find?_erase created.free k
      · exact .inr ⟨_, _, Steps.bind_error done, opened⟩
    · exact .inr ⟨_, _, Steps.bind_error done, opened⟩

/-- Nothing on the disk is in the way of a write: the directory is there, the path leads to no
directory, and there is a place for a temporary file of every number that may be tried. -/
structure Ready (path : Path) (d : Disk) : Prop where
  parent : ∃ dir, d.locate path.parent = .ok dir ∧ d.find? dir = some .directory
  target : ∃ t, d.locate path = .ok t ∧ d.find? t ≠ some .directory
  temporary : ∀ n ≤ d.entries.length,
    ∃ l, d.locate (path.parent.child (temporaryName path.name n)) = .ok l

/-- A path has room for its next temporary file: its directory is there and the file has a place.
-/
def HasRoom (path : Path) (d : Disk) : Prop :=
  ∃ dir l, d.locate path.parent = .ok dir ∧ d.find? dir = some .directory ∧
    d.locate (nextTemporary path d dir) = .ok l

theorem Ready.hasRoom (ready : Ready path d) : HasRoom path d := by
  obtain ⟨dir, parent, directory⟩ := ready.parent
  obtain ⟨l, place⟩ := ready.temporary (freeNumber d dir path.name d.entries.length 0)
    (by simpa using freeNumber_le d dir path.name d.entries.length 0)
  exact ⟨dir, l, parent, directory, place⟩

theorem writeBytes_of_hasRoom (calm : ∀ s, faults.at? s = none) (room : HasRoom path d)
    (target : d.locate path = .ok t) (file : d.find? t ≠ some .directory) (bytes : ByteArray) :
    ∃ d', writeBytes faults path bytes d = (.ok (), d') := by
  obtain ⟨dir, l, parent, directory, place⟩ := room
  have made : makeParents faults path d = (.ok (), d) :=
    step_ok (calm .makeParents) (DiskM.ensureDirectory_of_directory parent directory)
  rw [writeBytes, Steps.bind_ok made,
    Steps.bind_ok (step_ok (calm .readMode) (modeFor_ok target))]
  obtain ⟨d₂, done, created⟩ := createTemporary_ok parent place
  rw [Steps.bind_ok (step_ok (calm .createTemporary) done)]
  obtain ⟨d', filled⟩ := fillAndReplace_ok calm created target file bytes (modeAt d t)
  exact ⟨d', by rw [removingOnFailure, filled]⟩

/-! ## Texts -/

/-- Without parent components the destination is none of the directories above it. -/
theorem find?_target_of_keptOrMade (named : path.parts ≠ []) (down : ".." ∉ path.parts)
    (place : d'.locate path = .ok t) (kept : Disk.KeptOrMade path.parent d d' t) :
    d'.find? t = d.find? t := by
  refine kept.resolve_right ?_
  rintro ⟨-, -, q, root, parts, leads⟩
  have short : q.parts.length < path.parts.length := by
    have le := parts.length_le
    have pos := List.length_pos_iff.2 named
    simp only [Path.parent, List.length_dropLast] at le
    omega
  have down' : ".." ∉ q.parts := by
    intro mem
    exact down (List.dropLast_subset _ (parts.subset mem))
  have straight := Disk.eq_append_of_walk down (Disk.walk_of_locate place)
  have straight' := Disk.eq_append_of_walk down' (Disk.walk_of_locate leads)
  have same : d'.start q = d'.start path := by
    rw [Disk.start, Disk.start, root]
    rfl
  rw [straight, same, List.append_right_inj] at straight'
  rw [straight'] at short
  exact absurd short (Nat.lt_irrefl _)

/-- A fault that is passed on is no failure to write. -/
theorem Fault.kind_error_ne (encoding path : String) (fault : Fault) :
    (fault.error encoding path).kind ≠ .report .failedWrite := by
  cases fault with
  | encoding cause => cases cause <;> exact nofun
  | _ => exact nofun

theorem Failure.error_on_disk {f : Failure} (ne : f.step ≠ .encode) (encoding path : String) :
    f.error encoding path =
      if f.fault.isRefusal then .cannotWrite path else f.fault.error encoding path := by
  obtain ⟨s, fault⟩ := f
  cases s with
  | encode => exact absurd rfl ne
  | _ => rfl

theorem Failure.error_of_encode {f : Failure} (eq : f.step = .encode) (encoding path : String) :
    (∃ reason, f.fault = .encoding (.unencodable reason) ∧
      f.error encoding path = .cannotEncode encoding reason path) ∨
    f.fault.isUnencodable = false ∧ f.error encoding path = f.fault.error encoding path := by
  obtain ⟨s, fault⟩ := f
  obtain rfl : s = .encode := eq
  cases fault with
  | encoding cause =>
    cases cause with
    | unencodable reason => exact .inl ⟨reason, rfl, rfl⟩
    | _ => exact .inr ⟨rfl, rfl⟩
  | _ => exact .inr ⟨rfl, rfl⟩

/-- A failure to write is a text that cannot be encoded or a refusal on the disk. -/
theorem Failure.kind_error_iff (encoding path : String) (f : Failure) :
    (f.error encoding path).kind = .report .failedWrite ↔
      f.step = .encode ∧ f.fault.isUnencodable ∨ f.step ≠ .encode ∧ f.fault.isRefusal := by
  have passed := Fault.kind_error_ne encoding path f.fault
  by_cases eq : f.step = .encode
  · rcases error_of_encode eq encoding path with ⟨reason, fault, error⟩ | ⟨fine, error⟩
    · rw [error, fault]
      exact iff_of_true rfl (.inl ⟨eq, rfl⟩)
    · rw [error]
      exact iff_of_false passed (by simp [eq, fine])
  · rw [error_on_disk eq]
    by_cases refused : f.fault.isRefusal = true
    · rw [if_pos refused]
      exact iff_of_true rfl (.inr ⟨eq, refused⟩)
    · rw [if_neg refused]
      exact iff_of_false passed (by simp [eq, refused])

/-- Anything else is passed on as it is. -/
theorem Failure.error_of_kind {f : Failure} {encoding path : String}
    (h : (f.error encoding path).kind ≠ .report .failedWrite) :
    f.error encoding path = f.fault.error encoding path := by
  by_cases eq : f.step = .encode
  · rcases error_of_encode eq encoding path with ⟨reason, -, error⟩ | ⟨-, error⟩
    · exact absurd (error ▸ rfl) h
    · exact error
  · rw [error_on_disk eq] at h ⊢
    by_cases refused : f.fault.isRefusal = true
    · rw [if_pos refused] at h
      exact absurd rfl h
    · rw [if_neg refused]

/-- A text is written as a whole, or nothing is but directories on the way. -/
theorem perform_cases (faults : Faults) (encoding : String) (path : Path) (text : String)
    (d : Disk) :
    (∃ bytes d', perform faults encoding path text d = (.ok bytes.size, d') ∧
      Text.encode encoding text = .ok bytes ∧ Written path bytes d d') ∨
    ∃ f d', perform faults encoding path text d = (.error f, d') ∧
      Disk.Opened path.parent d d' := by
  unfold perform
  rcases encode_cases faults encoding text d with ⟨bytes, done, -, encoded⟩ | ⟨fault, done, -⟩
  · rw [Steps.bind_ok done]
    rcases writeBytes_cases faults path bytes d with ⟨d', done, written⟩ | ⟨f, d', done, opened⟩
    · exact .inl ⟨bytes, d', Steps.bind_ok done, encoded, written⟩
    · exact .inr ⟨f, d', Steps.bind_error done, opened⟩
  · exact .inr ⟨_, d, Steps.bind_error done, .refl _ d⟩

/-- The same of a write, whose failures are as they are reported. -/
theorem write_cases (faults : Faults) (encoding : String) (path : Path) (text : String) (d : Disk) :
    (∃ bytes d', write faults encoding path text d = (.ok bytes.size, d') ∧
      Text.encode encoding text = .ok bytes ∧ Written path bytes d d') ∨
    ∃ e d', write faults encoding path text d = (.error e, d') ∧
      Disk.Opened path.parent d d' := by
  unfold write
  rcases perform_cases faults encoding path text d with
    ⟨bytes, d', done, holds⟩ | ⟨f, d', done, opened⟩
  · exact .inl ⟨bytes, d', by rw [done], holds⟩
  · exact .inr ⟨_, d', by rw [done], opened⟩

theorem perform_of_hasRoom {encoding text : String} {bytes : ByteArray}
    (calm : ∀ s, faults.at? s = none) (encoded : Text.encode encoding text = .ok bytes)
    (room : HasRoom path d) (target : d.locate path = .ok t)
    (file : d.find? t ≠ some .directory) :
    ∃ d', perform faults encoding path text d = (.ok bytes.size, d') := by
  have done : encode faults encoding text d = (.ok bytes, d) := by
    rw [encode, calm, encoded]
    rfl
  obtain ⟨d', written⟩ := writeBytes_of_hasRoom calm room target file bytes
  exact ⟨d', by rw [perform, Steps.bind_ok done, Steps.bind_ok written]; rfl⟩

theorem perform_of_ready {encoding text : String} {bytes : ByteArray}
    (calm : ∀ s, faults.at? s = none) (encoded : Text.encode encoding text = .ok bytes)
    (ready : Ready path d) : ∃ d', perform faults encoding path text d = (.ok bytes.size, d') := by
  obtain ⟨t, target, file⟩ := ready.target
  exact perform_of_hasRoom calm encoded ready.hasRoom target file

/-- Under every fault a write leaves a whole file or none. If it returns, no step met a fault, and
the destination holds the encoded text with the permissions it had before or those of a new file,
while apart from it only missing parents have been made. If it fails, every entry is as before apart
from missing parents that have been made; the destination is one of them only if its path leads back
through a parent component. The failure is that of the first step that went wrong: it is a failure
to write just if the text could not be encoded or the system refused a step on the disk, and is
passed on unchanged otherwise. A write that nothing stands in the way of returns. -/
theorem write_atomic (faults : Faults) (encoding : String) (path : Path) (text : String)
    (d : Disk) :
    (match write faults encoding path text d with
      | (.ok size, d') => (∀ s, faults.at? s = none) ∧ ∃ bytes,
          Text.encode encoding text = .ok bytes ∧ size = bytes.size ∧ Written path bytes d d'
      | (.error e, d') => Disk.Opened path.parent d d' ∧
          (path.parts ≠ [] → ".." ∉ path.parts →
            ∀ t, d'.locate path = .ok t → d'.find? t = d.find? t) ∧
          ∃ f, perform faults encoding path text d = (.error f, d') ∧ Raised faults f ∧
            (e.kind = .report .failedWrite ↔
              f.step = .encode ∧ f.fault.isUnencodable ∨ f.step ≠ .encode ∧ f.fault.isRefusal) ∧
            (e.kind ≠ .report .failedWrite → e = f.fault.error encoding path.text)) ∧
    ((∀ s, faults.at? s = none) → Ready path d → ∀ bytes, Text.encode encoding text = .ok bytes →
      ∃ d', write faults encoding path text d = (.ok bytes.size, d')) := by
  constructor
  · have steps := proceeds_perform faults encoding path text d (Calm.zero faults)
    unfold write
    rcases perform_cases faults encoding path text d with
      ⟨bytes, d', done, encoded, written⟩ | ⟨f, d', done, opened⟩
    · rw [done] at steps ⊢
      exact ⟨Calm.all steps, bytes, encoded, rfl, written⟩
    · rw [done] at steps ⊢
      have target := fun named down t place =>
        find?_target_of_keptOrMade named down place (opened.entry t)
      exact ⟨opened, target, f, rfl, steps, f.kind_error_iff encoding path.text, f.error_of_kind⟩
  · intro calm ready bytes encoded
    obtain ⟨d', done⟩ := perform_of_ready calm encoded ready
    exact ⟨d', by rw [write, done]⟩

/-- A destination that is one of its own missing parents is not as before when the write fails: on
the empty disk `x` is made on the way to `x/../x`, and then a directory stands at the destination.
Nor is every refusal or unencodable text reported as a failure to write, when it comes at a step
that is not expected to raise it. -/
theorem write_into_own_parent :
    (∃ e d', write noFaults "utf-8" (Path.ofString "x/../x") "t" {} = (.error e, d') ∧
      d'.locate (Path.ofString "x/../x") = .ok ["x"] ∧
      ({} : Disk).find? ["x"] = none ∧ d'.find? ["x"] = some .directory) ∧
    (∃ e d', write { at? := fun s => if s = .encode then some (.system .accessDenied) else none }
        "utf-8" (Path.ofString "x") "t" {} = (.error e, d') ∧ e.kind ≠ .report .failedWrite) ∧
    ∃ e d', write { at? := fun s =>
        if s = .makeParents then some (.encoding (.unencodable "")) else none }
        "utf-8" (Path.ofString "x") "t" {} = (.error e, d') ∧ e.kind ≠ .report .failedWrite :=
  ⟨⟨_, _, rfl, rfl, rfl, rfl⟩, ⟨_, _, rfl, nofun⟩, ⟨_, _, rfl, nofun⟩⟩

end Polyad.Sink
