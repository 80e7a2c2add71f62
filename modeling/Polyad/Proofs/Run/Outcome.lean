import Polyad.Proofs.Disk.Atomic
import Polyad.Run.Generate

/-!
# How runs end

A run writes two files, one after the other. Before the first is there it has changed nothing but its
log and missing directories, so a failure up to then leaves all other files alone. A failure of the
second write comes too late for that: the first file has been replaced by then and stays.
-/

namespace Polyad

namespace World

variable {w w' w'' : World} {dir path : Path} {l t : Location} {bytes : ByteArray}

/-! ## Records -/

/-- The files that the log has open. -/
def logFiles (w : World) : List Location :=
  w.log.handlers.filterMap fun
    | .file l _ => l
    | .console _ => none

/-- `l` is an open log file with something added to it. -/
def Recorded (w w' : World) (l : Location) : Prop :=
  l ∈ w.logFiles ∧ ∃ old more mode, w.disk.find? l = some (.file old mode) ∧
    w'.disk.find? l = some (.file (old ++ more) mode)

/-- Nothing has happened but that records were written. -/
structure Logged (w w' : World) : Prop where
  working : w'.disk.working = w.disk.working
  log : w'.log = w.log
  entry : ∀ l, w'.disk.find? l = w.disk.find? l ∨ Recorded w w' l

theorem Recorded.trans (h : Recorded w w' l) (h' : Recorded w' w'' l) : Recorded w w'' l := by
  obtain ⟨mem, old, more, mode, before, after⟩ := h
  obtain ⟨-, old', more', mode', before', after'⟩ := h'
  cases after.symm.trans before'
  exact ⟨mem, old, more ++ more', mode, before, by rw [after', ByteArray.append_assoc]⟩

theorem Logged.refl (w : World) : Logged w w := ⟨rfl, rfl, fun _ => .inl rfl⟩

theorem Logged.logFiles (h : Logged w w') : w'.logFiles = w.logFiles := by
  rw [World.logFiles, World.logFiles, h.log]

theorem Logged.trans (h : Logged w w') (h' : Logged w' w'') : Logged w w'' := by
  refine ⟨h'.working.trans h.working, h'.log.trans h.log, fun l => ?_⟩
  rcases h.entry l with same | recorded
  · rcases h'.entry l with same' | ⟨mem, old, more, mode, before, after⟩
    · exact .inl (same'.trans same)
    · exact .inr ⟨h.logFiles ▸ mem, old, more, mode, same ▸ before, after⟩
  · rcases h'.entry l with same' | recorded'
    · obtain ⟨mem, old, more, mode, before, after⟩ := recorded
      exact .inr ⟨mem, old, more, mode, before, same'.trans after⟩
    · exact .inr (recorded.trans recorded')

theorem logged_append (mem : l ∈ w.logFiles) (text : String) : Logged w (w.append l text) := by
  unfold append
  split
  · next bytes mode found =>
    have ne : l ≠ [] := by
      rintro rfl
      cases found
    refine ⟨rfl, rfl, fun k => ?_⟩
    by_cases eq : k = l
    · subst eq
      exact .inr ⟨mem, bytes, _, mode, found, (Disk.find?_put _ ne _ k).trans (if_pos rfl)⟩
    · exact .inl ((Disk.find?_put _ ne _ k).trans (if_neg eq))
  · exact .refl w

theorem logged_writeRecord (r : Record) {h : Handler} (mem : h ∈ w.log.handlers) :
    Logged w (writeRecord r w h) := by
  cases h with
  | console level => exact ⟨rfl, rfl, fun _ => .inl rfl⟩
  | file place level =>
    cases place with
    | none => exact .refl w
    | some l => exact logged_append (List.mem_filterMap.2 ⟨_, mem, rfl⟩) _

theorem logged_logged (r : Record) (w : World) : Logged w (w.logged r) := by
  have all : ∀ (hs : List Handler) (w : World), (∀ h ∈ hs, h ∈ w.log.handlers) →
      Logged w (hs.foldl (writeRecord r) w) := by
    intro hs
    induction hs with
    | nil => exact fun w _ => .refl w
    | cons h hs ih =>
      intro w mem
      have first := logged_writeRecord r (mem h List.mem_cons_self)
      exact first.trans (ih _ fun h' mem' => first.log ▸ mem h' (List.mem_cons_of_mem _ mem'))
  unfold logged
  split
  · exact ⟨rfl, rfl, fun _ => .inl rfl⟩
  · refine all _ w fun h mem => ?_
    unfold Log.handlersFor at mem
    split at mem
    · cases mem
    · exact List.mem_of_mem_filter mem

/-! ## Worlds without a new file -/

/-- `l` is as before, a directory made on the way to `dir`, or a log with more in it. -/
def Kept (dir : Path) (w w' : World) (l : Location) : Prop :=
  Disk.KeptOrMade dir w.disk w'.disk l ∨ Recorded w w' l

/-- Apart from records and directories on the way to `dir` nothing has been written. -/
structure Untouched (dir : Path) (w w' : World) : Prop where
  working : w'.disk.working = w.disk.working
  logs : w'.logFiles ⊆ w.logFiles
  entry : ∀ l, Kept dir w w' l

theorem Kept.directory (h : Kept dir w w' l) (found : w.disk.find? l = some .directory) :
    w'.disk.find? l = some .directory := by
  rcases h with kept | ⟨-, old, more, mode, before, -⟩
  · exact kept.directory found
  · rw [before] at found
    cases found

theorem Kept.trans (h : Kept dir w w' l) (keeps : w'.disk.KeepsDirectories w''.disk)
    (logs : w'.logFiles ⊆ w.logFiles) (h' : Kept dir w' w'' l) : Kept dir w w'' l := by
  rcases h with kept | recorded
  · rcases h' with kept' | ⟨mem, old, more, mode, before, after⟩
    · exact .inl (kept.trans keeps kept')
    · rcases kept with same | ⟨-, made, -⟩
      · exact .inr ⟨logs mem, old, more, mode, same ▸ before, after⟩
      · rw [made] at before
        cases before
  · rcases h' with (same | ⟨none, -⟩) | recorded'
    · obtain ⟨mem, old, more, mode, before, after⟩ := recorded
      exact .inr ⟨mem, old, more, mode, before, same.trans after⟩
    · obtain ⟨-, old, more, mode, -, after⟩ := recorded
      rw [after] at none
      cases none
    · exact .inr (recorded.trans recorded')

theorem Untouched.keeps (h : Untouched dir w w') : w.disk.KeepsDirectories w'.disk :=
  ⟨h.working, fun l => (h.entry l).directory⟩

theorem Untouched.trans (h : Untouched dir w w') (h' : Untouched dir w' w'') :
    Untouched dir w w'' :=
  ⟨h'.working.trans h.working, List.Subset.trans h'.logs h.logs,
    fun l => (h.entry l).trans h'.keeps h.logs (h'.entry l)⟩

theorem Logged.untouched (h : Logged w w') (dir : Path) : Untouched dir w w' :=
  ⟨h.working, fun _ mem => h.logFiles ▸ mem, fun l => (h.entry l).imp .inl id⟩

theorem untouched_of_opened {d : Disk} (h : Disk.Opened dir w.disk d) :
    Untouched dir w { w with disk := d } :=
  ⟨h.working, List.Subset.refl _, fun l => .inl (h.entry l)⟩

/-- `path` leads to a file of `bytes` at `t`, with the permissions it had before or those of a new
file, that the log does not write to. Nothing else has been written. -/
structure Wrote (path : Path) (bytes : ByteArray) (t : Location) (w w' : World) : Prop where
  working : w'.disk.working = w.disk.working
  logs : w'.logFiles ⊆ w.logFiles
  place : w'.disk.locate path = .ok t
  closed : t ∉ w'.logFiles
  file : w.disk.find? t ≠ some .directory
  filled : w'.disk.find? t = some (.file bytes (Sink.modeAt w.disk t))
  others : ∀ k, k ≠ t → Kept path.parent w w' k

theorem Wrote.keeps (h : Wrote path bytes t w w') : w.disk.KeepsDirectories w'.disk := by
  refine ⟨h.working, fun l found => (h.others l ?_).directory found⟩
  rintro rfl
  exact h.file found

theorem Kept.modeAt (h : Kept dir w w' t) (file : w'.disk.find? t ≠ some .directory) :
    Sink.modeAt w'.disk t = Sink.modeAt w.disk t := by
  rcases h with (same | ⟨-, made, -⟩) | ⟨-, old, more, mode, before, after⟩
  · rw [Sink.modeAt, same, Sink.modeAt]
  · exact absurd made file
  · rw [Sink.modeAt, after, Sink.modeAt, before]

theorem Wrote.after (h : Untouched path.parent w w') (h' : Wrote path bytes t w' w'') :
    Wrote path bytes t w w'' where
  working := h'.working.trans h.working
  logs := List.Subset.trans h'.logs h.logs
  place := h'.place
  closed := h'.closed
  file := mt (h.entry t).directory h'.file
  filled := by rw [h'.filled, (h.entry t).modeAt h'.file]
  others k ne := (h.entry k).trans h'.keeps h.logs (h'.others k ne)

/-- A file that is there, and that is no log, stays. -/
theorem Kept.find?_file {mode : Nat} (h : Kept dir w w' l) (other : l ∉ w.logFiles)
    (found : w.disk.find? l = some (.file bytes mode)) :
    w'.disk.find? l = some (.file bytes mode) := by
  rcases h with (same | ⟨none, -⟩) | ⟨mem, -⟩
  · rw [same, found]
  · rw [none] at found
    cases found
  · exact absurd mem other

theorem Wrote.before (h : Wrote path bytes t w w') (h' : Untouched path.parent w' w'') :
    Wrote path bytes t w w'' where
  working := h'.working.trans h.working
  logs := List.Subset.trans h'.logs h.logs
  place := h'.keeps.locate h.place
  closed mem := h.closed (h'.logs mem)
  file := h.file
  filled := (h'.entry t).find?_file h.closed h.filled
  others k ne := (h.others k ne).trans h'.keeps h.logs (h'.entry k)

end World

namespace RunM

variable {α β : Type}

theorem ofExcept_ok {r : Except Error α} {x : α} (h : r = .ok x) (w : World) :
    ofExcept r w = (.ok x, w) := by
  rw [h]
  rfl

theorem ofExcept_error {r : Except Error α} {e : Error} (h : r = .error e) (w : World) :
    ofExcept r w = (.error e, w) := by
  rw [h]
  rfl

theorem log_apply (logger : String) (level : Level) (message : String) (w : World) :
    log logger level message w = (.ok (), w.logged ⟨loggerName logger, level, message⟩) := rfl

end RunM

namespace Run

open World

variable {w w' : World}

/-- `act` gives `r` whatever the world, and writes nothing but records. -/
def Tells {α : Type} (act : RunM α) (r : Except Error α) : Prop :=
  ∀ w, ∃ w', act w = (r, w') ∧ Logged w w'

theorem tells_log (logger : String) (level : Level) (message : String) :
    Tells (RunM.log logger level message) (.ok ()) :=
  fun w => ⟨_, RunM.log_apply logger level message w, logged_logged _ w⟩

theorem tells_ofExcept {α : Type} (r : Except Error α) : Tells (RunM.ofExcept r) r := by
  intro w
  cases r with
  | ok x => exact ⟨w, rfl, .refl w⟩
  | error e => exact ⟨w, rfl, .refl w⟩

theorem Tells.bind {α β : Type} {act : RunM α} {r : Except Error α} {next : α → RunM β}
    {s : α → Except Error β} (h : Tells act r) (h' : ∀ x, Tells (next x) (s x)) :
    Tells (act >>= next) (r >>= s) := by
  intro w
  obtain ⟨w', done, logged⟩ := h w
  cases r with
  | ok x =>
    obtain ⟨w'', done', logged'⟩ := h' x w'
    exact ⟨w'', (Steps.bind_ok done).trans done', logged.trans logged'⟩
  | error e => exact ⟨w', Steps.bind_error done, logged⟩

theorem Tells.pure {α : Type} (x : α) : Tells (Pure.pure x) (.ok x) := fun w => ⟨w, rfl, .refl w⟩

theorem Tells.next {α β : Type} {act : RunM α} {x : α} {next : α → RunM β} {r : Except Error β}
    (h : Tells act (.ok x)) (h' : Tells (next x) r) : Tells (act >>= next) r := by
  intro w
  obtain ⟨w', done, logged⟩ := h w
  obtain ⟨w'', done', logged'⟩ := h' w'
  exact ⟨w'', (Steps.bind_ok done).trans done', logged.trans logged'⟩

theorem tells_logMembers (logger : String) (f : Family) (message : Member → String) :
    Tells (logMembers logger f message) (.ok ()) := by
  unfold logMembers
  induction f.members with
  | nil => exact .pure ()
  | cons m ms ih => exact (tells_log logger .debug (message m)).next ih

theorem tells_buildFamily (bound : Value) :
    Tells (buildFamily bound) (Family.buildFrom bound) := by
  rw [← bind_pure (Family.buildFrom bound)]
  exact (tells_ofExcept _).bind fun f => (tells_logMembers "builder" f _).next (.pure f)

/-- The header is read first of all in rendering. -/
theorem headerLines_bind_renderFamily (reformat : Code.Reformatter) (c : Config) (f : Family) :
    (c.headerLines >>= fun _ => c.renderFamily reformat f) = c.renderFamily reformat f := by
  cases header : c.headerLines with
  | ok lines => rfl
  | error e =>
    rw [Config.renderFamily, header]
    rfl

/-- Building and rendering a family only tells what it does. -/
theorem tells_render (reformat : Code.Reformatter) (c : Config) :
    Tells (render reformat c) (c.render reformat) := by
  refine (tells_buildFamily c.maxArity).bind fun f => ?_
  refine Eq.subst (motive := Tells _) (headerLines_bind_renderFamily reformat c f) ?_
  refine (tells_ofExcept c.headerLines).bind fun _ => ?_
  refine (tells_logMembers "emitters.interfaces" f _).next ?_
  exact (tells_logMembers "emitters.implementations" f _).next (tells_ofExcept _)

/-! ## Writes -/

theorem write_eq_ok {faults : Sink.Faults} {encoding : String} {path : Path} {text : String}
    {size : Nat} {d : Disk} {t : Location}
    (done : Sink.write faults encoding path text w.disk = (.ok size, d))
    (place : d.locate path = .ok t) :
    write faults encoding path text w = (.ok t,
      World.logged { w with disk := d, log := w.log.detach t }
        ⟨loggerName "writer", .info,
          "Wrote " ++ path.text ++ " (" ++ toString size ++ " bytes)"⟩) := by
  have first : RunM.onDisk (Sink.write faults encoding path text) w =
      (.ok size, { w with disk := d }) := by
    rw [RunM.onDisk, done]
  rw [write, Steps.bind_ok first, Steps.get_bind, place]
  rfl

/-- A file that has given way to another one is no longer written to. -/
theorem mem_logFiles_detach {d : Disk} {t k : Location} :
    k ∈ World.logFiles { w with disk := d, log := w.log.detach t } ↔ k ∈ w.logFiles ∧ k ≠ t := by
  simp only [World.logFiles, Log.detach, List.filterMap_map, List.mem_filterMap, Function.comp]
  constructor
  · rintro ⟨h, mem, found⟩
    rcases h with level | ⟨_ | l, level⟩
    · cases found
    · cases found
    · by_cases same : l = t
      · simp [same] at found
      · obtain rfl : l = k := by simpa [same] using found
        exact ⟨⟨_, mem, rfl⟩, same⟩
  · rintro ⟨⟨h, mem, found⟩, ne⟩
    refine ⟨h, mem, ?_⟩
    rcases h with level | ⟨_ | l, level⟩
    · cases found
    · cases found
    · obtain rfl : l = k := by simpa using found
      simp [ne]

/-- A file is written as a whole, or nothing is but directories on the way. -/
theorem write_cases (faults : Sink.Faults) (encoding : String) (path : Path) (text : String)
    (w : World) :
    (∃ t bytes w', write faults encoding path text w = (.ok t, w') ∧
      Text.encode encoding text = .ok bytes ∧ Wrote path bytes t w w') ∨
    ∃ e w', write faults encoding path text w = (.error e, w') ∧
      (Sink.write faults encoding path text w.disk).1 = .error e ∧
      Untouched path.parent w w' := by
  rcases Sink.write_cases faults encoding path text w.disk with
    ⟨bytes, d, done, encoded, written⟩ | ⟨e, d, done, opened⟩
  · obtain ⟨t, place, file, filled, others⟩ := written.file
    refine .inl ⟨t, bytes, _, write_eq_ok done place, encoded, ?_⟩
    generalize (⟨_, _, _⟩ : Record) = r
    have wrote : Wrote path bytes t w { w with disk := d, log := w.log.detach t } := {
      working := written.working
      logs := fun k mem => (mem_logFiles_detach.1 mem).1
      place := place
      closed := fun mem => (mem_logFiles_detach.1 mem).2 rfl
      file := file
      filled := filled
      others := fun k ne => .inl (others k ne) }
    exact wrote.before ((logged_logged r _).untouched path.parent)
  · have failed : RunM.onDisk (Sink.write faults encoding path text) w =
        (.error e, { w with disk := d }) := by
      rw [RunM.onDisk, done]
    exact .inr ⟨e, _, Steps.bind_error failed, by rw [done], untouched_of_opened opened⟩

/-! ## Runs -/

theorem tells_announce (c : Config) (out : Path) : Tells (announce c out) (.ok ()) := by
  unfold announce
  split
  · exact tells_log _ _ _
  · exact .pure ()

/-- Where a run writes the contracts and where the concrete types, below a directory. -/
def contractsIn (c : Config) (out : Path) : Path := out.child (c.interfacesModule ++ ".py")
def concretesIn (c : Config) (out : Path) : Path := out.child (c.implementationsModule ++ ".py")

theorem interfacesPath_eq {c : Config} {out : Path} (h : c.requireOutputDir = .ok out) :
    c.interfacesPath = .ok (contractsIn c out) := by
  rw [Config.interfacesPath, h]
  rfl

theorem implementationsPath_eq {c : Config} {out : Path} (h : c.requireOutputDir = .ok out) :
    c.implementationsPath = .ok (concretesIn c out) := by
  rw [Config.implementationsPath, h]
  rfl

end Run
end Polyad
