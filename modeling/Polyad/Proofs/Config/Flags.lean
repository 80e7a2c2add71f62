import Polyad.Proofs.Config.Checks
import Polyad.Proofs.Config.Settings
import Polyad.Proofs.Disk.PathText
import Polyad.Proofs.Family.Members

/-!
# Flags

The fields that can be given with a call. A call puts them over its configuration; a document can
hold the same fields. Both ways come to the same: the directory is put into plain form by the
document only, but then again where a run asks for it.
-/

namespace Polyad.Config

namespace Flags

/-- A field as a document holds it. -/
def value? (g : Flags) : Key → Option Value
  | .outputDir => g.outputDir.map .str
  | .maxArity => g.maxArity.map .int
  | .formatter => g.formatter.map fun f => .str f.name
  | .lineLength => g.lineLength.map .int
  | _ => none

/-- The fields that are given, by name. -/
def named (g : Flags) : List (String × Value) :=
  Key.all.filterMap fun k => (g.value? k).map (k.name, ·)

/-- The entries of a document with the given fields written over them. -/
def writeOver (g : Flags) (entries : List (Value × Value)) : List (Value × Value) :=
  g.named.foldl (fun done f => Value.insertEntry (.str f.1) f.2 done) entries

/-- The flags of two calls as those of one: what is given later counts. -/
def merge (g later : Flags) : Flags where
  outputDir := later.outputDir.or g.outputDir
  maxArity := later.maxArity.or g.maxArity
  formatter := later.formatter.or g.formatter
  lineLength := later.lineLength.or g.lineLength

/-- Settings with the given fields in the place of their own. -/
def put (g : Flags) (s : Settings) : Settings :=
  { s with
    outputDir := (g.outputDir.map .str).getD s.outputDir
    maxArity := (g.maxArity.map .int).getD s.maxArity
    formatter := (g.formatter.map .formatter).getD s.formatter
    lineLength := (g.lineLength.map .int).getD s.lineLength }

/-! ## Over a configuration -/

theorem setAll_settings (g : Flags) (s : Settings) :
    s.setAll (g.settings.filter fun f => isGiven f.2) = g.put s := by
  obtain ⟨outputDir, maxArity, formatter, lineLength⟩ := g
  cases outputDir <;> cases maxArity <;> cases formatter <;> cases lineLength <;> rfl

theorem put_put (g later : Flags) (s : Settings) :
    later.put (g.put s) = (g.merge later).put s := by
  obtain ⟨outputDir, maxArity, formatter, lineLength⟩ := later
  cases outputDir <;> cases maxArity <;> cases formatter <;> cases lineLength <;> rfl

end Flags

theorem override_eq (c : Config) (g : Flags) :
    c.override g.settings = (g.put c.toSettings).check := by
  rw [override, ← Flags.setAll_settings]

/-- Flags put over a configuration one after the other are put over it at once. -/
theorem override_override {c c' : Config} {g : Flags} (first : c.override g.settings = .ok c')
    (later : Flags) : c'.override later.settings = c.override (g.merge later).settings := by
  rw [override_eq] at first
  rw [override_eq, override_eq, Settings.toSettings_of_check first, Flags.put_put]

/-! ## Over the entries of a document -/

/-- A field put among others under its name, the first place of which stays. -/
def putField (name : String) (v : Value) : List (String × Value) → List (String × Value)
  | [] => [(name, v)]
  | (s, w) :: rest => if s = name then (s, v) :: rest else (s, w) :: putField name v rest

theorem lookup_cons_eq_ite (f : String × Value) (fs : List (String × Value)) (s : String) :
    (f :: fs).lookup s = if s = f.1 then some f.2 else fs.lookup s := by
  rw [List.lookup_cons]
  by_cases here : s = f.1
  · rw [if_pos here, here, BEq.rfl]
  · have other : (s == f.1) = false := by simpa using here
    rw [if_neg here, other]

section Put

variable (name : String) (v : Value) (fields : List (String × Value))

theorem insertEntry_eq_putField :
    Value.insertEntry (.str name) v (Json.named fields) = Json.named (putField name v fields) := by
  induction fields with
  | nil => rfl
  | cons f fs ih =>
    change (if (Value.str f.1).same (.str name) then _ else _) = _
    rw [putField, Value.same_str]
    by_cases here : f.1 = name
    · rw [if_pos here, if_pos (by simpa using here)]
      rfl
    · rw [if_neg here, if_neg (by simpa using here)]
      exact congrArg _ ih

theorem lookup_putField (s : String) :
    (putField name v fields).lookup s = if s = name then some v else fields.lookup s := by
  induction fields with
  | nil => rw [putField, lookup_cons_eq_ite]
  | cons f fs ih =>
    rw [putField, lookup_cons_eq_ite]
    by_cases first : f.1 = name
    · rw [if_pos first, lookup_cons_eq_ite, first]
      by_cases here : s = name
      · rw [if_pos here, if_pos here]
      · rw [if_neg here, if_neg here, if_neg here]
    · rw [if_neg first, lookup_cons_eq_ite, ih]
      by_cases here : s = f.1
      · rw [if_pos here, if_pos here, if_neg (here ▸ first)]
      · rw [if_neg here, if_neg here]

theorem keys_putField : (putField name v fields).map Prod.fst =
    if name ∈ fields.map Prod.fst then fields.map Prod.fst else fields.map Prod.fst ++ [name] := by
  induction fields with
  | nil => rfl
  | cons f fs ih =>
    rw [putField]
    by_cases first : f.1 = name
    · rw [if_pos first, if_pos (by simp [first])]
      rfl
    · rw [if_neg first, List.map_cons, ih]
      by_cases later : name ∈ fs.map Prod.fst
      · rw [if_pos later, if_pos (by simp [later])]
        rfl
      · rw [if_neg later, if_neg (by simp [later, Ne.symm first])]
        rfl

end Put

/-- Fields put among others one after the other. -/
def putFields (more fields : List (String × Value)) : List (String × Value) :=
  more.foldl (fun done f => putField f.1 f.2 done) fields

section PutAll

variable {more fields : List (String × Value)}

theorem foldl_insertEntry (more fields : List (String × Value)) :
    more.foldl (fun done f => Value.insertEntry (.str f.1) f.2 done) (Json.named fields) =
      Json.named (putFields more fields) := by
  induction more generalizing fields with
  | nil => rfl
  | cons f fs ih => rw [List.foldl_cons, insertEntry_eq_putField, ih, putFields, putFields,
      List.foldl_cons]

theorem lookup_putFields (distinct : (more.map Prod.fst).Nodup) (s : String) :
    (putFields more fields).lookup s = (more.lookup s).or (fields.lookup s) := by
  induction more generalizing fields with
  | nil => rfl
  | cons f fs ih =>
    rw [List.map_cons, List.nodup_cons] at distinct
    rw [putFields, List.foldl_cons, ← putFields, ih distinct.2, lookup_putField, lookup_cons_eq_ite]
    by_cases here : s = f.1
    · have last : fs.lookup s = none := by
        rw [List.lookup_eq_none_iff]
        intro e mem
        have ne : s ≠ e.1 := fun eq => distinct.1 (here ▸ eq ▸ List.mem_map_of_mem mem)
        simpa using ne
      rw [last, if_pos here, if_pos here]
      rfl
    · rw [if_neg here, if_neg here]

/-- Fields put among others add no key twice, and none but their own. -/
theorem keys_putFields (distinct : (fields.map Prod.fst).Nodup) (known : Known fields)
    (own : Known more) :
    ((putFields more fields).map Prod.fst).Nodup ∧ Known (putFields more fields) := by
  induction more generalizing fields with
  | nil => exact ⟨distinct, known⟩
  | cons f fs ih =>
    obtain ⟨first, rest⟩ := List.forall_mem_cons.1 own
    have keys := keys_putField f.1 f.2 fields
    refine ih ?_ ?_ rest
    · rw [keys]
      split
      · exact distinct
      · next fresh => exact List.Nodup.append distinct (List.nodup_singleton _) (by simpa using fresh)
    · intro e mem
      have there := List.mem_map_of_mem (f := Prod.fst) mem
      rw [keys] at there
      split at there
      · obtain ⟨e', mem', eq⟩ := List.mem_map.1 there
        exact eq ▸ known e' mem'
      · rcases List.mem_append.1 there with old | new
        · obtain ⟨e', mem', eq⟩ := List.mem_map.1 old
          exact eq ▸ known e' mem'
        · exact List.mem_singleton.1 new ▸ first

end PutAll

/-! ## Both ways -/

namespace Flags

theorem value?_eq_lookup (g : Flags) (k : Key) : g.named.lookup k.name = g.value? k := by
  obtain ⟨outputDir, maxArity, formatter, lineLength⟩ := g
  cases outputDir <;> cases maxArity <;> cases formatter <;> cases lineLength <;> cases k <;> rfl

theorem known_named (g : Flags) : Known g.named := by
  intro f mem
  obtain ⟨k, -, own⟩ := List.mem_filterMap.1 mem
  obtain ⟨v, -, rfl⟩ := Option.map_eq_some_iff.1 own
  exact ⟨k, rfl⟩

theorem nodup_named (g : Flags) : (g.named.map Prod.fst).Nodup := by
  have keys : g.named.map Prod.fst = (Key.all.filter fun k => (g.value? k).isSome).map Key.name := by
    obtain ⟨outputDir, maxArity, formatter, lineLength⟩ := g
    cases outputDir <;> cases maxArity <;> cases formatter <;> cases lineLength <;> rfl
  have all : (Key.all.map Key.name).Nodup := by decide
  rw [keys]
  exact all.sublist (List.filter_sublist.map Key.name)

/-- The flags with the directory in the form that a document gives it. -/
def plain (g : Flags) : Flags :=
  { g with outputDir := g.outputDir.map fun s => (Path.ofString s).text }

theorem settingsOf_put {given : Key → Option Value} {s : Settings}
    (read : settingsOf given = .ok s) (g : Flags) :
    settingsOf (fun k => (g.value? k).or (given k)) = .ok (g.plain.put s) := by
  simp only [settingsOf, Error.bind_eq_ok_iff] at read
  obtain ⟨dir, dirOk, form, formOk, head, headOk, eq⟩ := read
  cases eq
  have outputDir : ((g.value? .outputDir).or (given .outputDir)).mapM readOutputDir =
      .ok ((g.plain.outputDir.map .str).or dir) := by
    rw [value?, plain]
    cases g.outputDir with
    | none => exact dirOk
    | some s => rfl
  have formatter : ((g.value? .formatter).or (given .formatter)).mapM readFormatter =
      .ok ((g.formatter.map .formatter).or form) := by
    rw [value?]
    cases g.formatter with
    | none => exact formOk
    | some f => simp [readFormatter, Code.Formatter.ofName?_name, Functor.map, Except.map]
  have header : ((g.value? .header).or (given .header)).mapM readHeader = .ok head := headOk
  rw [settingsOf, outputDir, formatter, header]
  simp only [bind, Except.bind, value?, put, plain, Option.getD_or, Option.none_or]
  rfl

end Flags

theorem known_of_unknownKeys {keys : List Value} (accepted : unknownKeys keys = .ok ()) :
    ∀ v ∈ keys, ∃ k : Key, v = .str k.name := by
  rw [unknownKeys] at accepted
  split at accepted
  · next none =>
    rw [List.isEmpty_iff, List.filter_eq_nil_iff] at none
    intro v mem
    have known := none v mem
    cases v with
    | str s =>
      obtain ⟨k, rfl⟩ := isSome_ofName?.1 (by simpa [Option.isSome_iff_ne_none] using known)
      exact ⟨k, rfl⟩
    | _ => exact absurd rfl known
  · obtain ⟨names, -, thrown⟩ := Error.bind_eq_ok_iff.1 accepted
    cases thrown

/-- A document is accepted only if all its keys are names of fields. -/
theorem exists_named {entries : List (Value × Value)}
    (accepted : unknownKeys (entries.map Prod.fst) = .ok ()) :
    ∃ fields, entries = Json.named fields ∧ Known fields := by
  have keys := known_of_unknownKeys accepted
  have own : ∀ e ∈ entries, ∃ k : Key, e.1 = .str k.name := fun e mem =>
    keys e.1 (List.mem_map_of_mem mem)
  refine ⟨entries.map fun e => (e.1.text, e.2), ?_, ?_⟩
  · rw [Json.named, List.map_map]
    refine (List.map_id entries).symm.trans (List.map_congr_left fun e mem => ?_)
    obtain ⟨k, eq⟩ := own e mem
    simp [eq, Prod.ext_iff]
  · intro f mem
    obtain ⟨e, there, rfl⟩ := List.mem_map.1 mem
    obtain ⟨k, eq⟩ := own e there
    exact ⟨k, by rw [eq, Value.text_str]⟩

/-- The same settings but for the text of the directory, which names the same path. -/
structure Agrees (c c' : Config) : Prop where
  maxArity : c.maxArity = c'.maxArity
  interfacesModule : c.interfacesModule = c'.interfacesModule
  implementationsModule : c.implementationsModule = c'.implementationsModule
  runtimeModule : c.runtimeModule = c'.runtimeModule
  formatter : c.formatter = c'.formatter
  lineLength : c.lineLength = c'.lineLength
  header : c.header = c'.header
  requireOutputDir : c.requireOutputDir = c'.requireOutputDir
  interfacesPath : c.interfacesPath = c'.interfacesPath
  implementationsPath : c.implementationsPath = c'.implementationsPath

/-- Two ways to a configuration that are refused with the same report, or lead to configurations
that agree. -/
inductive SameEnd : Except Error Config → Except Error Config → Prop
  | refused {e : Error} (bad : e.kind = .report .badConfig) : SameEnd (.error e) (.error e)
  | accepted {c c' : Config} (agrees : c.Agrees c') : SameEnd (.ok c) (.ok c')

/-- A text and its plain form name the same directory. -/
theorem agrees_outputDir {c : Config} {s : String} (own : c.outputDir = .str s) :
    c.Agrees { c with outputDir := .str (Path.ofString s).text } := by
  have dir : c.requireOutputDir =
      ({ c with outputDir := .str (Path.ofString s).text } : Config).requireOutputDir := by
    simp only [requireOutputDir, own, Path.ofString_text_ofString]
  exact ⟨rfl, rfl, rfl, rfl, rfl, rfl, rfl, dir, by rw [interfacesPath, interfacesPath, dir],
    by rw [implementationsPath, implementationsPath, dir]⟩

namespace Flags

/-- Fields put over settings that pass the check pass as well, or are reported. -/
theorem check_put {s : Settings} {c : Config} (h : s.check = .ok c) (g : Flags) :
    (∃ c', (g.put s).check = .ok c') ∨ Refused (g.put s).check := by
  rcases s.check_cases with ⟨a, b, -, -, -, -, -, run⟩ | ⟨-, bad⟩
  · rw [run] at h
    obtain ⟨narrow, -, -, f, -, known⟩ := Settings.checkRest_eq_ok h
    rcases (g.put s).check_cases with ⟨a, b, -, -, -, -, -, run⟩ | ⟨-, bad⟩
    · have formatter : (g.put s).formatter = .formatter (g.formatter.getD f) := by
        rw [put, known]
        cases g.formatter <;> rfl
      rw [run]
      rcases Settings.checkRest_cases (s := g.put s) narrow formatter a b with ⟨-, ok⟩ | ⟨-, bad⟩
      · exact .inl ok
      · exact .inr bad
    · exact .inr bad
  · exact absurd h (bad.ne_ok c)

/-- In the plain form of the directory, the same is accepted. -/
theorem check_plain (g : Flags) (s : Settings) :
    (∀ e, (g.put s).check = .error e → (g.plain.put s).check = .error e) ∧
      ∀ c, (g.put s).check = .ok c → ∃ c', (g.plain.put s).check = .ok c' ∧ c.Agrees c' := by
  cases given : g.outputDir with
  | none =>
    have same : g.plain.put s = g.put s := by rw [plain, put, put, given]; rfl
    rw [same]
    exact ⟨fun e h => h, fun c h => ⟨c, h, ⟨rfl, rfl, rfl, rfl, rfl, rfl, rfl, rfl, rfl, rfl⟩⟩⟩
  | some dir =>
    have placed : (g.put s).outputDir = .str dir := by rw [put, given]; rfl
    let place : Value := .str (Path.ofString dir).text
    have moved : g.plain.put s = { g.put s with outputDir := place } := by
      rw [plain, put, put, given]
      rfl
    rw [moved, Settings.check_outputDir (g.put s) place]
    refine ⟨fun e h => by rw [h]; rfl, fun c h => ⟨_, by rw [h]; rfl, agrees_outputDir ?_⟩⟩
    rw [← placed, ← Settings.toSettings_of_check h]
    rfl

end Flags

/-- Flags put over the configuration of a document and a document with the flags written over it come
to the same. What two calls put over a configuration one after the other, one call puts over it with
the flags of both, the later ones first. -/
theorem flags_agree {d : Value} {entries : List (Value × Value)} {c : Config}
    (mapping : d.bare = .dict entries) (distinct : Value.distinct (entries.map Prod.fst))
    (accepted : ofValue d = .ok c) (g : Flags) :
    SameEnd (c.override g.settings) (ofValue (.dict (g.writeOver entries))) ∧
      ∀ c', c.override g.settings = .ok c' → ∀ later : Flags,
        c'.override later.settings = c.override (g.merge later).settings := by
  refine ⟨?_, fun c' first later => override_override first later⟩
  rw [ofValue_eq_of_bare (w := .dict entries) mapping ⟨entries, rfl⟩] at accepted
  obtain ⟨fields, rfl, known⟩ := exists_named
    (by rw [ofValue] at accepted; exact (Error.bind_eq_ok_iff.1 accepted).choose_spec.1)
  have nodup : (fields.map Prod.fst).Nodup := by
    rw [← distinct_str_iff]
    simpa [Json.named, Function.comp_def] using distinct
  rw [ofValue_named nodup, unknownKeys_known known] at accepted
  obtain ⟨s, read, check⟩ : ∃ s, settingsOf (field fields) = .ok s ∧ s.check = .ok c :=
    Error.bind_eq_ok_iff.1 accepted
  have written : ofValue (.dict (g.writeOver (Json.named fields))) = (g.plain.put s).check := by
    obtain ⟨nodup', known'⟩ := keys_putFields nodup known g.known_named
    have given : field (putFields g.named fields) = fun k => (g.value? k).or (field fields k) := by
      funext k
      rw [field, lookup_putFields g.nodup_named, g.value?_eq_lookup, field]
    rw [Flags.writeOver, foldl_insertEntry, ofValue_named nodup', unknownKeys_known known', given]
    exact congrArg (· >>= Settings.check) (g.settingsOf_put read)
  rw [written, override_eq, Settings.toSettings_of_check check]
  obtain ⟨failing, passing⟩ := g.check_plain s
  rcases g.check_put check with ⟨c', own⟩ | ⟨e, own, bad⟩
  · obtain ⟨c'', other, agrees⟩ := passing c' own
    rw [own, other]
    exact .accepted agrees
  · rw [own, failing e own]
    exact .refused bad

/-- A directory that is not in plain form, over a document of a bound. -/
theorem flags_agree_directory :
    let g : Flags := { outputDir := some "out//gen/", maxArity := some 5 }
    let entries := Json.named [("max_arity", .int 3)]
    let c : Config := { default with maxArity := .int 3 }
    SameEnd (c.override g.settings) (ofValue (.dict (g.writeOver entries))) ∧
      ∀ c', c.override g.settings = .ok c' → ∀ later : Flags,
        c'.override later.settings = c.override (g.merge later).settings :=
  flags_agree (d := .dict (Json.named [("max_arity", .int 3)])) rfl (by decide) rfl _

end Polyad.Config
