import Polyad.Proofs.Config.Header
import Polyad.Proofs.Disk.Rewriting
import Polyad.Proofs.Run.Outcome

/-!
# Runs that are repeated

A run that returns has written its two files and nothing else but missing directories on the way to
them. Running again with the same configuration finds both files as it would leave them, so nothing
but the log changes: each file is replaced by the same bytes and keeps its permissions.
-/

namespace Polyad

namespace World

variable {w w' w'' : World} {path : Path} {l t : Location} {bytes : ByteArray}

/-! ## Worlds in which nothing but the log changes -/

/-- `l` is as before or an open log file with something added to it. -/
def Rests (w w' : World) (l : Location) : Prop :=
  w'.disk.find? l = w.disk.find? l ∨ Recorded w w' l

/-- Every entry is as before or an open log file with something added to it. -/
structure Resting (w w' : World) : Prop where
  working : w'.disk.working = w.disk.working
  logs : w'.logFiles ⊆ w.logFiles
  entry : ∀ l, Rests w w' l

theorem Rests.isSome_eq (h : Rests w w' l) :
    (w'.disk.find? l).isSome = (w.disk.find? l).isSome := by
  rcases h with same | ⟨-, old, more, mode, before, after⟩
  · rw [same]
  · rw [before, after]
    rfl

theorem Rests.directory (h : Rests w w' l) (found : w.disk.find? l = some .directory) :
    w'.disk.find? l = some .directory := by
  rcases h with same | ⟨-, old, more, mode, before, -⟩
  · rw [same, found]
  · rw [before] at found
    cases found

/-- A file that the log does not write to stays. -/
theorem Rests.find?_eq (h : Rests w w' l) (closed : l ∉ w.logFiles) :
    w'.disk.find? l = w.disk.find? l :=
  h.resolve_right fun recorded => closed recorded.1

theorem Logged.resting (h : Logged w w') : Resting w w' :=
  ⟨h.working, fun _ mem => h.logFiles ▸ mem, h.entry⟩

theorem Resting.keeps (h : Resting w w') : w.disk.KeepsDirectories w'.disk :=
  ⟨h.working, fun l => (h.entry l).directory⟩

theorem Resting.trans (h : Resting w w') (h' : Resting w' w'') : Resting w w'' := by
  refine ⟨h'.working.trans h.working, List.Subset.trans h'.logs h.logs, fun l => ?_⟩
  rcases h'.entry l with same | recorded
  · rcases h.entry l with before | ⟨mem, old, more, mode, before, after⟩
    · exact .inl (same.trans before)
    · exact .inr ⟨mem, old, more, mode, before, same.trans after⟩
  · rcases h.entry l with before | first
    · obtain ⟨mem, old, more, mode, found, after⟩ := recorded
      exact .inr ⟨h.logs mem, old, more, mode, before ▸ found, after⟩
    · exact .inr (first.trans recorded)

/-! ## Files that can be written again -/

/-- A file of `bytes` stands at the end of the path, with nothing but permissions in its mode, the
log does not write to it, and there is room for a temporary file. -/
structure Standing (path : Path) (bytes : ByteArray) (t : Location) (w : World) : Prop where
  place : w.disk.locate path = .ok t
  closed : t ∉ w.logFiles
  file : ∃ mode, w.disk.find? t = some (.file bytes mode) ∧ Sink.permissions mode = mode
  room : Sink.HasRoom path w.disk

/-- A file stays ready to be written again where neither it nor what goes by the name of one of its
temporary files changes. -/
theorem Standing.mono (h : Standing path bytes t w) (keeps : w.disk.KeepsDirectories w'.disk)
    (logs : w'.logFiles ⊆ w.logFiles) (own : Rests w w' t)
    (beside : ∀ dir, w.disk.locate path.parent = .ok dir → ∀ n,
      Rests w w' (dir ++ [Sink.temporaryName path.name n])) : Standing path bytes t w' where
  place := keeps.locate h.place
  closed mem := h.closed (logs mem)
  file := by
    rw [own.find?_eq h.closed]
    exact h.file
  room := h.room.mono keeps fun dir parent n => (beside dir parent n).isSome_eq

theorem Standing.resting (h : Standing path bytes t w) (rest : Resting w w') :
    Standing path bytes t w' :=
  h.mono rest.keeps rest.logs (rest.entry t) fun _ _ _ => rest.entry _

theorem Standing.ne_directory (h : Standing path bytes t w) :
    w.disk.find? t ≠ some .directory := by
  obtain ⟨mode, file, -⟩ := h.file
  rw [file]
  exact fun same => Entry.noConfusion (Option.some.inj same)

/-- Once a directory is there a write into it makes none. -/
theorem Wrote.rests (h : Wrote path bytes t w w') {dir : Location}
    (place : w.disk.locate path.parent = .ok dir) (found : w.disk.find? dir = some .directory)
    {k : Location} (ne : k ≠ t) : Rests w w' k :=
  (h.others k ne).imp_left fun kept => kept.same h.keeps place found

/-- Writing the same bytes again changes nothing. -/
theorem Standing.wrote_again (h : Standing path bytes t w) (again : Wrote path bytes t w w') :
    Resting w w' := by
  obtain ⟨mode, file, permitted⟩ := h.file
  obtain ⟨dir, -, parent, directory, -⟩ := h.room
  refine ⟨again.working, again.logs, fun k => ?_⟩
  by_cases eq : k = t
  · subst eq
    left
    rw [again.filled, Sink.modeAt, file]
    dsimp only
    rw [permitted]
  · exact again.rests parent directory eq

end World

namespace Run

open World

variable {w w' : World} {path : Path} {encoding text : String} {bytes : ByteArray} {t : Location}

/-! ## Writes -/

/-- After a write there is room for another one. -/
theorem hasRoom_of_write {faults : Sink.Faults}
    (done : write faults encoding path text w = (.ok t, w')) : Sink.HasRoom path w'.disk := by
  rcases Sink.write_cases faults encoding path text w.disk with
    ⟨bytes, d, sunk, -, written⟩ | ⟨e, d, sunk, -⟩
  · obtain ⟨t', place, -⟩ := written.file
    have told := congrArg Prod.snd (done.symm.trans (write_eq_ok sunk place))
    dsimp only at told
    rw [told]
    generalize (⟨_, _, _⟩ : Record) = r
    have logged := (logged_logged r { w with disk := d, log := w.log.detach t' }).resting
    exact (Sink.hasRoom_of_write sunk).mono logged.keeps fun dir _ n =>
      (logged.entry _).isSome_eq
  · have failed : RunM.onDisk (Sink.write faults encoding path text) w =
        (.error e, { w with disk := d }) := by
      rw [RunM.onDisk, sunk]
    have stuck : write faults encoding path text w = (.error e, { w with disk := d }) :=
      Steps.bind_error failed
    rw [stuck] at done
    cases done

/-- A write that returns leaves a file that can be written again. -/
theorem standing_of_write {faults : Sink.Faults}
    (done : write faults encoding path text w = (.ok t, w')) :
    ∃ bytes, Text.encode encoding text = .ok bytes ∧ Wrote path bytes t w w' ∧
      Standing path bytes t w' := by
  rcases write_cases faults encoding path text w with
    ⟨t', bytes, w'', done', encoded, wrote⟩ | ⟨e, w'', failed, -⟩
  · rw [done] at done'
    obtain rfl : t = t' := Except.ok.inj (congrArg Prod.fst done')
    obtain rfl : w' = w'' := congrArg Prod.snd done'
    exact ⟨bytes, encoded, wrote, wrote.place, wrote.closed,
      ⟨_, wrote.filled, Sink.permissions_modeAt _ _⟩, hasRoom_of_write done⟩
  · rw [done] at failed
    cases failed

/-- A file that stands can be written again, and nothing but the log changes by it. -/
theorem write_standing (h : Standing path bytes t w)
    (encoded : Text.encode encoding text = .ok bytes) :
    ∃ w', write Sink.noFaults encoding path text w = (.ok t, w') ∧ Resting w w' := by
  have calm : ∀ s, Sink.noFaults.at? s = none := fun _ => rfl
  obtain ⟨d, sunk⟩ := Sink.write_of_hasRoom calm encoded h.room h.place h.ne_directory
  rcases write_cases Sink.noFaults encoding path text w with
    ⟨t', bytes', w', done, encoded', wrote⟩ | ⟨e, w', -, failed, -⟩
  · obtain rfl : bytes' = bytes := Except.ok.inj (encoded'.symm.trans encoded)
    have same : t' = t := Except.ok.inj (wrote.place.symm.trans (wrote.keeps.locate h.place))
    subst same
    exact ⟨w', done, h.wrote_again wrote⟩
  · rw [sunk] at failed
    cases failed

/-! ## Runs -/

variable {c : Config} {out : Path} {r : Rendered} {g : Generated} {reformat : Code.Reformatter}

/-- The two writes of a run and what it says at its end. -/
def writeBoth (first second : Sink.Faults) (encoding : String) (c : Config) (out : Path)
    (r : Rendered) : RunM Generated := do
  let contracts ← write first encoding (contractsIn c out) r.contracts
  let concretes ← write second encoding (concretesIn c out) r.concretes
  RunM.log "pipeline" .info ("Generated " ++ toString r.family.members.length ++ " tuple types")
  return { family := r.family, contracts, concretes }

/-- With a directory and with both texts a run only tells what it does before it writes. -/
theorem generateWith_eq (first second : Sink.Faults) (encoding : String)
    (dir : c.requireOutputDir = .ok out) (texts : c.render reformat = .ok r) (w : World) :
    ∃ w₀, Logged w w₀ ∧ generateWith reformat first second encoding c w =
      writeBoth first second encoding c out r w₀ := by
  obtain ⟨w₁, announced, told⟩ := tells_announce c out w
  obtain ⟨w₀, rendered, told'⟩ := tells_render reformat c w₁
  rw [texts] at rendered
  refine ⟨w₀, told.trans told', ?_⟩
  rw [generateWith, dir, Steps.bind_ok (RunM.ofExcept_ok rfl w), Steps.bind_ok announced,
    Steps.bind_ok rendered, interfacesPath_eq dir, implementationsPath_eq dir]
  rfl

/-- A run that returns has a directory and both texts, and both of its writes return. -/
theorem exists_writes {first second : Sink.Faults}
    (run : generateWith reformat first second encoding c w = (.ok g, w')) :
    ∃ out r w₀ w₁ w₂, c.requireOutputDir = .ok out ∧ c.render reformat = .ok r ∧
      g.family = r.family ∧ Logged w w₀ ∧
      write first encoding (contractsIn c out) r.contracts w₀ = (.ok g.contracts, w₁) ∧
      write second encoding (concretesIn c out) r.concretes w₁ = (.ok g.concretes, w₂) ∧
      Logged w₂ w' := by
  cases dir : c.requireOutputDir with
  | error e =>
    rw [generateWith, dir, Steps.bind_error (RunM.ofExcept_error rfl w)] at run
    cases run
  | ok out =>
  cases texts : c.render reformat with
  | error e =>
    obtain ⟨w₁, announced, -⟩ := tells_announce c out w
    obtain ⟨w₀, rendered, -⟩ := tells_render reformat c w₁
    rw [texts] at rendered
    rw [generateWith, dir, Steps.bind_ok (RunM.ofExcept_ok rfl w), Steps.bind_ok announced,
      Steps.bind_error rendered] at run
    cases run
  | ok r =>
    obtain ⟨w₀, logged, eq⟩ := generateWith_eq first second encoding dir texts w
    rw [eq, writeBoth] at run
    rcases done : write first encoding (contractsIn c out) r.contracts w₀ with ⟨_ | t, w₁⟩
    · rw [Steps.bind_error done] at run
      cases run
    rw [Steps.bind_ok done] at run
    rcases done' : write second encoding (concretesIn c out) r.concretes w₁ with ⟨_ | t', w₂⟩
    · rw [Steps.bind_error done'] at run
      cases run
    rw [Steps.bind_ok done', Steps.bind_ok (RunM.log_apply ..)] at run
    cases run
    exact ⟨out, r, w₀, w₁, w₂, rfl, rfl, rfl, logged, done, done', logged_logged _ w₂⟩

/-- Where both files stand as a run leaves them, a run changes nothing but the log. -/
theorem generate_standing {a b : ByteArray} {t t' : Location} (dir : c.requireOutputDir = .ok out)
    (texts : c.render reformat = .ok r) (encoded : Text.encode encoding r.contracts = .ok a)
    (encoded' : Text.encode encoding r.concretes = .ok b)
    (stands : Standing (contractsIn c out) a t w) (stands' : Standing (concretesIn c out) b t' w) :
    ∃ w', generateWith reformat Sink.noFaults Sink.noFaults encoding c w =
      (.ok ⟨r.family, t, t'⟩, w') ∧ Resting w w' := by
  obtain ⟨w₀, logged, eq⟩ := generateWith_eq Sink.noFaults Sink.noFaults encoding dir texts w
  obtain ⟨w₁, done, rest⟩ := write_standing (stands.resting logged.resting) encoded
  have before := logged.resting.trans rest
  obtain ⟨w₂, done', rest'⟩ := write_standing (stands'.resting before) encoded'
  refine ⟨_, ?_, (before.trans rest').trans (logged_logged ⟨loggerName "pipeline", .info,
    "Generated " ++ toString r.family.members.length ++ " tuple types"⟩ w₂).resting⟩
  rw [eq, writeBoth, Steps.bind_ok done, Steps.bind_ok done',
    Steps.bind_ok (RunM.log_apply ..)]
  rfl

/-! ## The names of the two files -/

section Names

variable {m m' : String}

theorem module_ne_parent (m : String) : m ++ ".py" ≠ ".." := by
  intro same
  have chars := congrArg (·.toList.length) same
  simp at chars

/-- A module is not named like a temporary file, since it starts with a letter. -/
theorem module_ne_temporaryName (named : Text.isIdentifier m) (name : String) (n : Nat) :
    m ++ ".py" ≠ Sink.temporaryName name n := by
  intro same
  have chars := congrArg String.toList same
  cases start : m.toList with
  | nil => simp [Text.isIdentifier, start] at named
  | cons c cs =>
    obtain rfl : c = '.' := by
      simp [Sink.temporaryName, start] at chars
      exact chars.1
    simp [Text.isIdentifier, start] at named
    exact absurd named.1 (by decide)

theorem child_injective {out : Path} (same : out.child m = out.child m') : m = m' := by
  have parts := congrArg Path.parts same
  simpa [Path.child] using parts

end Names

/-! ## What a run leaves behind -/

/-- A file of `bytes` stands at the end of the path. -/
def Holds (w : World) (path : Path) (t : Location) (bytes : ByteArray) : Prop :=
  w.disk.locate path = .ok t ∧ ∃ mode, w.disk.find? t = some (.file bytes mode)

/-- What a run leaves behind: the two texts at the ends of two different paths. Every other entry is
as before, a directory made on the way to the files, or an open log file with records added. -/
structure Leaves (c : Config) (out : Path) (r : Rendered) (g : Generated) (w w' : World) :
    Prop where
  paths : contractsIn c out ≠ concretesIn c out
  places : g.contracts ≠ g.concretes
  contracts : Holds w' (contractsIn c out) g.contracts r.contracts.toUTF8
  concretes : Holds w' (concretesIn c out) g.concretes r.concretes.toUTF8
  others : ∀ l, l ≠ g.contracts → l ≠ g.concretes → Kept out w w' l

theorem encode_utf8 (text : String) : Text.encode "utf-8" text = .ok text.toUTF8 := rfl

/-- The first file of a run is left alone by the second write. -/
theorem standing_of_write_beside {n n' : String} {a b : ByteArray} {t t' : Location}
    (stands : Standing (out.child n) a t w) (wrote : Wrote (out.child n') b t' w w')
    (down : n ≠ "..") (down' : n' ≠ "..") (differ : n ≠ n')
    (other : ∀ i, n' ≠ Sink.temporaryName n i) :
    t ≠ t' ∧ Standing (out.child n) a t w' ∧ ∀ k, k ≠ t' → Rests w w' k := by
  obtain ⟨dir, -, parent, directory, -⟩ := stands.room
  rw [Path.parent_child] at parent
  have own := Sink.locate_child parent down stands.place
  have own' := Sink.locate_child (wrote.keeps.locate parent) down' wrote.place
  have rests : ∀ k, k ≠ t' → Rests w w' k := fun k ne =>
    wrote.rests (by rwa [Path.parent_child]) directory ne
  have ne : t ≠ t' := by
    rw [own, own']
    simpa using differ
  refine ⟨ne, stands.mono wrote.keeps wrote.logs (rests t ne) fun dir' parent' i => ?_, rests⟩
  rw [Path.parent_child, parent] at parent'
  rw [Path.name_child, ← Except.ok.inj parent']
  -- The next temporary place is free as before: the other text does not go there.
  refine rests _ ?_
  rw [own']
  simpa using (other i).symm

/-- A run that returns leaves both texts at two different places and changes nothing else but
directories on the way and open log files. Another run with the same configuration returns the same,
and leaves every entry as it is, contents and permissions, but for records in open log files. -/
theorem generate_twice {s : Settings} (valid : s.check = .ok c)
    (run : generateWith reformat Sink.noFaults Sink.noFaults "utf-8" c w = (.ok g, w')) :
    (∃ out r, c.requireOutputDir = .ok out ∧ c.render reformat = .ok r ∧ Leaves c out r g w w') ∧
    ∃ w'', generateWith reformat Sink.noFaults Sink.noFaults "utf-8" c w' = (.ok g, w'') ∧
      Resting w' w'' := by
  obtain ⟨out, r, w₀, w₁, w₂, dir, texts, family, logged, done, done', told⟩ := exists_writes run
  obtain ⟨a, encoded, wrote, stands⟩ := standing_of_write done
  obtain ⟨b, encoded', wrote', stands'⟩ := standing_of_write done'
  obtain ⟨named, named'⟩ := Settings.isIdentifier_of_check valid
  have differ : c.interfacesModule ++ ".py" ≠ c.implementationsModule ++ ".py" := by
    simpa using Settings.modules_ne_of_check valid
  -- the second write neither lands on the first file nor on one of its temporary files
  obtain ⟨places, stands, rests⟩ := standing_of_write_beside stands wrote' (module_ne_parent _)
    (module_ne_parent _) differ (module_ne_temporaryName named' _)
  have stands := stands.resting told.resting
  have stands' := stands'.resting told.resting
  obtain rfl : a = r.contracts.toUTF8 := Except.ok.inj (encoded.symm.trans (encode_utf8 _))
  obtain rfl : b = r.concretes.toUTF8 := Except.ok.inj (encoded'.symm.trans (encode_utf8 _))
  constructor
  · refine ⟨out, r, dir, texts, fun same => differ (child_injective same), places,
      ⟨stands.place, ?_⟩, ⟨stands'.place, ?_⟩, fun l ne ne' => ?_⟩
    · obtain ⟨mode, file, -⟩ := stands.file
      exact ⟨mode, file⟩
    · obtain ⟨mode, file, -⟩ := stands'.file
      exact ⟨mode, file⟩
    · have wrote := Wrote.after (logged.untouched _) wrote
      have wrote' := wrote'.before (told.untouched _)
      have first := wrote.others l ne
      have second := wrote'.others l ne'
      rw [contractsIn, Path.parent_child] at first
      rw [concretesIn, Path.parent_child] at second
      exact first.trans wrote'.keeps wrote.logs second
  · obtain ⟨family', contracts, concretes⟩ := g
    obtain rfl : family' = r.family := family
    exact generate_standing dir texts encoded encoded' stands stands'

/-- The configuration of a run that writes the smallest family below `out`. -/
def smallRun : Config :=
  { Config.default with outputDir := .str "out", maxArity := .int 1, formatter := .plain }

/-- A disk with a directory and in it the two files of the run. -/
def smallDisk (r : Rendered) : Disk where
  entries := [(["out"], .directory), (["out", "tuples.py"], .file r.contracts.toUTF8 0o600),
    (["out", "tuples_impl.py"], .file r.concretes.toUTF8 0o644)]

theorem exists_render_smallRun : ∃ r, smallRun.render Code.reformat = .ok r := by
  have built : Family.buildFrom smallRun.maxArity = .ok (Family.built 1) :=
    Family.build_natCast (Nat.le_refl 1) (by decide)
  have lines : smallRun.headerLines = .ok _ := Config.headerLines_eq rfl
  obtain ⟨contracts, concretes, text, text', files, own, own'⟩ :=
    Config.exists_files built (by decide) _
  exact ⟨_, (Config.render_eq_ok_iff built lines files own.written own'.written _).2
    ⟨Config.tellHeader_eq rfl, ⟨_, rfl⟩, rfl⟩⟩

theorem generate_twice_smallRun :
    smallRun.toSettings.check = .ok smallRun ∧
    ∃ r g w' w'', smallRun.render Code.reformat = .ok r ∧
      generate "utf-8" smallRun { disk := smallDisk r } = (.ok g, w') ∧
      generate "utf-8" smallRun w' = (.ok g, w'') ∧
      Resting { disk := smallDisk r } w' ∧ Resting w' w'' := by
  have valid : smallRun.toSettings.check = .ok smallRun := rfl
  obtain ⟨r, texts⟩ := exists_render_smallRun
  have name : Sink.temporaryName (contractsIn smallRun (.ofString "out")).name 0 =
      ".tuples.py.00000000.tmp" := by decide
  have name' : Sink.temporaryName (concretesIn smallRun (.ofString "out")).name 0 =
      ".tuples_impl.py.00000000.tmp" := by decide
  have stands : Standing (contractsIn smallRun (.ofString "out")) r.contracts.toUTF8
      ["out", "tuples.py"] { disk := smallDisk r } :=
    ⟨rfl, List.not_mem_nil, ⟨_, rfl, rfl⟩, Sink.hasRoom_of_free rfl rfl name rfl rfl⟩
  have stands' : Standing (concretesIn smallRun (.ofString "out")) r.concretes.toUTF8
      ["out", "tuples_impl.py"] { disk := smallDisk r } :=
    ⟨rfl, List.not_mem_nil, ⟨_, rfl, rfl⟩, Sink.hasRoom_of_free rfl rfl name' rfl rfl⟩
  obtain ⟨w', run, rest⟩ :=
    generate_standing rfl texts (encode_utf8 _) (encode_utf8 _) stands stands'
  obtain ⟨-, w'', again, rest'⟩ := generate_twice valid run
  exact ⟨valid, r, _, w', w'', texts, run, again, rest, rest'⟩

end Run
end Polyad
