import Polyad.Proofs.Config.Checks
import Polyad.Proofs.Config.Names

/-!
# The grammar of configurations

Which documents are configurations, field by field. A document outside the grammar is refused with a
report about the configuration, with two exceptions: a directory or a header of a type that cannot
be read at all, and a whole number too long to be written out.
-/

namespace Polyad

namespace Config

/-! ## Reading fields -/

section Reading

variable {α : Type} {o : Option Value} {v : Value}

theorem mapM_ok {read : Value → Except Error α} (h : ∀ v ∈ o, ∃ x, read v = .ok x) :
    ∃ y, o.mapM read = .ok y := by
  cases o with
  | none => exact ⟨none, rfl⟩
  | some v =>
    obtain ⟨x, own⟩ := h v rfl
    exact ⟨some x, by simp [own, Functor.map, Except.map]⟩

theorem mapM_error {read : Value → Except Error α} {e : Error} (mem : v ∈ o)
    (h : read v = .error e) : o.mapM read = .error e := by
  cases mem
  simp [h, Functor.map, Except.map]

/-- A header: a text, or a collection of things that have texts. -/
inductive IsHeader : Value → Prop
  | null : IsHeader .null
  | str (s : String) : IsHeader (.str s)
  | list {items : List Value} (each : ∀ v ∈ items, v.hasText) : IsHeader (.list items)
  | dict (fields : List (String × Value)) : IsHeader (.dict (Json.named fields))

/-- A list with a whole number in it that is too long to be written out. -/
def IsWide (v : Value) : Prop := ∃ items, v = .list items ∧ ∃ i ∈ items, i.hasText = false

/-- A text, or nothing. -/
def IsPath (v : Value) : Prop := v = .null ∨ ∃ s, v = .str s

def IsFormatter (v : Value) : Prop := ∃ f : Code.Formatter, v = .str f.name

theorem readOutputDir_path (path : IsPath v) : ∃ w, readOutputDir v = .ok w := by
  rcases path with rfl | ⟨s, rfl⟩
  · exact ⟨_, rfl⟩
  · exact ⟨_, rfl⟩

theorem readOutputDir_other (other : ¬IsPath v) : readOutputDir v = .error .wrongType := by
  cases v with
  | null => exact absurd (.inl rfl) other
  | str s => exact absurd (.inr ⟨s, rfl⟩) other
  | _ => rfl

theorem readFormatter_cases (v : Value) :
    IsFormatter v ∧ (∃ f, readFormatter v = .ok (.formatter f)) ∨
      ¬IsFormatter v ∧ Refused (readFormatter v) := by
  cases v with
  | str s =>
    cases found : Code.Formatter.ofName? s with
    | some f =>
      have name : f.name = s := by simpa using List.find?_some found
      exact .inl ⟨⟨f, by rw [name]⟩, f, by rw [readFormatter, found]⟩
    | none =>
      refine .inr ⟨?_, _, by rw [readFormatter, found], rfl⟩
      rintro ⟨f, ⟨⟩⟩
      rw [Code.Formatter.ofName?_name] at found
      cases found
  | _ => exact .inr ⟨nofun, _, rfl, rfl⟩

theorem readLines_ok {items : List Value} (each : ∀ v ∈ items, v.hasText) :
    items.mapM readLine = .ok (items.map fun i => Value.str i.text) :=
  Error.mapM_eq_ok fun i mem => if_pos (each i mem)

theorem readLines_wide {items : List Value} (mem : v ∈ items) (wide : v.hasText = false) :
    items.mapM readLine = .error .unwritable := by
  induction items with
  | nil => cases mem
  | cons i is ih =>
    rw [List.mapM_cons]
    by_cases text : i.hasText
    · have later : v ∈ is := by
        rcases List.mem_cons.1 mem with rfl | later
        · exact absurd text (Bool.eq_false_iff.1 wide)
        · exact later
      rw [readLine, if_pos text, ih later]
      rfl
    · rw [readLine, if_neg text]
      rfl

theorem readHeader_header (header : IsHeader v) : ∃ w, readHeader v = .ok w := by
  have items (is : List Value) (each : ∀ v ∈ is, v.hasText) :
      ∃ w, (is.mapM readLine).map Value.list = .ok w := ⟨_, by rw [readLines_ok each]; rfl⟩
  cases header with
  | null => exact ⟨_, rfl⟩
  | str s => exact ⟨_, rfl⟩
  | list each => exact items _ each
  | dict fields =>
    refine items _ fun v mem => ?_
    obtain ⟨f, -, rfl⟩ := mem_keys mem
    exact Value.hasText_str f.1

theorem readHeader_number (json : v.IsJson) (number : v.isNumber) :
    readHeader v = .error .wrongType := by
  cases json with
  | bool b => rfl
  | int n => rfl
  | float x => rfl
  | labelled label x => simp [readHeader, Value.items?, Value.bare, Value.plug]
  | _ => cases number

theorem readHeader_wide (wide : IsWide v) : readHeader v = .error .unwritable := by
  obtain ⟨items, rfl, i, mem, wide⟩ := wide
  change (items.mapM readLine).map Value.list = _
  rw [readLines_wide mem wide]
  rfl

theorem header_cases (json : v.IsJson) : IsHeader v ∨ v.isNumber ∨ IsWide v := by
  cases json with
  | null => exact .inl .null
  | str s => exact .inl (.str s)
  | dict distinct each => exact .inl (.dict _)
  | @list items each =>
    by_cases texts : ∀ i ∈ items, i.hasText
    · exact .inl (.list texts)
    · simp only [not_forall, Bool.not_eq_true] at texts
      obtain ⟨i, mem, wide⟩ := texts
      exact .inr (.inr ⟨items, rfl, i, mem, wide⟩)
  | _ => exact .inr (.inl rfl)

end Reading

/-! ## Settings of a document -/

section Given

variable {given : Key → Option Value}

/-- Settings as a document gives them: what is not read on its own is as it stands there, and the
formatter is known. -/
structure Gives (given : Key → Option Value) (s : Settings) : Prop where
  interfaces : s.interfacesModule = (given .interfacesModule).getD (.str "tuples")
  implementations : s.implementationsModule = (given .implementationsModule).getD (.str "tuples_impl")
  runtime : s.runtimeModule = (given .runtimeModule).getD (.str "tuplegen.runtime")
  lineLength : s.lineLength = (given .lineLength).getD .null
  formatter : ∃ f, s.formatter = .formatter f

theorem mapM_formatter (formatter : ∀ v ∈ given .formatter, IsFormatter v) :
    ∃ y f, (given .formatter).mapM readFormatter = .ok y ∧
      y.getD (.formatter .black) = .formatter f := by
  cases own : given .formatter with
  | none => exact ⟨none, .black, rfl, rfl⟩
  | some v =>
    rcases readFormatter_cases v with ⟨-, f, read⟩ | ⟨no, -⟩
    · exact ⟨some (.formatter f), f, by simp [read, Functor.map, Except.map], rfl⟩
    · exact absurd (formatter v own) no

theorem settingsOf_ok (path : ∀ v ∈ given .outputDir, IsPath v)
    (formatter : ∀ v ∈ given .formatter, IsFormatter v)
    (header : ∀ v ∈ given .header, IsHeader v) :
    ∃ s, settingsOf given = .ok s ∧ Gives given s := by
  obtain ⟨out, outOk⟩ := mapM_ok fun v mem => readOutputDir_path (path v mem)
  obtain ⟨head, headOk⟩ := mapM_ok fun v mem => readHeader_header (header v mem)
  obtain ⟨form, f, formOk, known⟩ := mapM_formatter formatter
  rw [settingsOf, outOk, formOk, headOk]
  exact ⟨_, rfl, rfl, rfl, rfl, rfl, f, known⟩

theorem settingsOf_path {v : Value} (own : given .outputDir = some v) (other : ¬IsPath v) :
    settingsOf given = .error .wrongType := by
  rw [settingsOf, mapM_error own (readOutputDir_other other)]
  rfl

theorem settingsOf_header {v : Value} {e : Error} (path : ∀ v ∈ given .outputDir, IsPath v)
    (formatter : ∀ v ∈ given .formatter, IsFormatter v) (own : given .header = some v)
    (bad : readHeader v = .error e) : settingsOf given = .error e := by
  obtain ⟨out, outOk⟩ := mapM_ok fun v mem => readOutputDir_path (path v mem)
  obtain ⟨form, -, formOk, -⟩ := mapM_formatter formatter
  rw [settingsOf, outOk, formOk, mapM_error own bad]
  rfl

theorem settingsOf_formatter {v : Value} (path : ∀ v ∈ given .outputDir, IsPath v)
    (own : given .formatter = some v) (other : ¬IsFormatter v) : Refused (settingsOf given) := by
  obtain ⟨out, outOk⟩ := mapM_ok fun v mem => readOutputDir_path (path v mem)
  rcases readFormatter_cases v with ⟨is, -⟩ | ⟨-, e, read, kind⟩
  · exact absurd is other
  · rw [settingsOf, outOk, mapM_error own read]
    exact ⟨e, rfl, kind⟩

end Given

/-! ## Documents -/

section Document

variable {fields : List (String × Value)}

/-- The fields of a configuration: known ones, each of which fits. The bound may be anything. -/
structure IsConfig (fields : List (String × Value)) : Prop where
  known : Known fields
  outputDir : ∀ v ∈ field fields .outputDir, IsPath v
  modules : DifferentModules ((field fields .interfacesModule).getD (.str "tuples"))
    ((field fields .implementationsModule).getD (.str "tuples_impl"))
  runtimeModule : ∀ v ∈ field fields .runtimeModule, v.IsDotted
  formatter : ∀ v ∈ field fields .formatter, IsFormatter v
  lineLength : ∀ v ∈ field fields .lineLength, IsLineLength v
  header : ∀ v ∈ field fields .header, IsHeader v

/-- Fields with a directory or a header of a type that is not even looked at. -/
inductive IsMistyped (fields : List (String × Value)) : Prop
  | outputDir {v : Value} (known : Known fields) (own : field fields .outputDir = some v)
      (other : ¬IsPath v)
  | header {v : Value} (known : Known fields) (path : ∀ v ∈ field fields .outputDir, IsPath v)
      (formatter : ∀ v ∈ field fields .formatter, IsFormatter v)
      (own : field fields .header = some v) (number : v.isNumber)

/-- Fields with a whole number in them that would have to be written out and is too long. -/
inductive IsTooLong (fields : List (String × Value)) : Prop
  | header {v : Value} (known : Known fields) (path : ∀ v ∈ field fields .outputDir, IsPath v)
      (formatter : ∀ v ∈ field fields .formatter, IsFormatter v)
      (own : field fields .header = some v) (wide : IsWide v)
  | runtimeModule {v : Value} (known : Known fields)
      (path : ∀ v ∈ field fields .outputDir, IsPath v)
      (formatter : ∀ v ∈ field fields .formatter, IsFormatter v)
      (header : ∀ v ∈ field fields .header, IsHeader v)
      (modules : DifferentModules ((field fields .interfacesModule).getD (.str "tuples"))
        ((field fields .implementationsModule).getD (.str "tuples_impl")))
      (own : field fields .runtimeModule = some v) (wide : v.hasText = false)

theorem getD_iff {P : Value → Prop} {o : Option Value} {d : Value} (default : P d) :
    P (o.getD d) ↔ ∀ v ∈ o, P v := by
  cases o with
  | none => simpa using default
  | some v => simp

theorem json_of_field (each : ∀ f ∈ fields, f.2.IsJson) {k : Key} :
    ∀ v ∈ field fields k, v.IsJson := by
  intro v own
  obtain ⟨before, after, rfl, -⟩ := List.lookup_eq_some_iff.1 own
  exact each (k.name, v) (by simp)

section Outcome

variable (distinct : (fields.map Prod.fst).Nodup) (each : ∀ f ∈ fields, f.2.IsJson)

theorem Gives.json {s : Settings} (gives : Gives (field fields) s)
    (each : ∀ f ∈ fields, f.2.IsJson) : s.runtimeModule.IsJson := by
  rw [gives.runtime]
  exact (getD_iff (.str _)).2 (json_of_field each)

theorem Gives.isDotted {given : Key → Option Value} {s : Settings} (gives : Gives given s) :
    s.runtimeModule.IsDotted ↔ ∀ v ∈ given .runtimeModule, v.IsDotted := by
  rw [gives.runtime]
  exact getD_iff (.str (by decide))

theorem Gives.hasText {given : Key → Option Value} {s : Settings} (gives : Gives given s) :
    s.runtimeModule.hasText ↔ ∀ v ∈ given .runtimeModule, v.hasText := by
  rw [gives.runtime]
  exact getD_iff (P := fun v => v.hasText) (Value.hasText_str _)

theorem Gives.isLineLength {given : Key → Option Value} {s : Settings} (gives : Gives given s) :
    IsLineLength s.lineLength ↔ ∀ v ∈ given .lineLength, IsLineLength v := by
  rw [gives.lineLength]
  exact getD_iff (.inl rfl)

theorem Gives.check_cases {given : Key → Option Value} {s : Settings} (gives : Gives given s) :
    DifferentModules ((given .interfacesModule).getD (.str "tuples"))
        ((given .implementationsModule).getD (.str "tuples_impl")) ∧
      (∃ a b, s.check = s.checkRest a b) ∨
    ¬DifferentModules ((given .interfacesModule).getD (.str "tuples"))
        ((given .implementationsModule).getD (.str "tuples_impl")) ∧ Refused s.check := by
  rw [← gives.interfaces, ← gives.implementations]
  refine s.check_cases.imp_left ?_
  rintro ⟨a, b, va, vb, na, nb, ne, run⟩
  exact ⟨⟨a, b, va, vb, na, nb, ne⟩, a, b, run⟩

include distinct

theorem ofValue_of_known (known : Known fields) :
    ofValue (.dict (Json.named fields)) = (do (← settingsOf (field fields)).check) := by
  rw [ofValue_named distinct, unknownKeys_known known]
  rfl

theorem ofValue_of_read (known : Known fields) (path : ∀ v ∈ field fields .outputDir, IsPath v)
    (formatter : ∀ v ∈ field fields .formatter, IsFormatter v)
    (header : ∀ v ∈ field fields .header, IsHeader v) :
    ∃ s, Gives (field fields) s ∧ ofValue (.dict (Json.named fields)) = s.check := by
  obtain ⟨s, read, gives⟩ := settingsOf_ok path formatter header
  refine ⟨s, gives, ?_⟩
  rw [ofValue_of_known distinct known, read]
  rfl

theorem ofValue_tooLong (h : IsTooLong fields) :
    ofValue (.dict (Json.named fields)) = .error .unwritable := by
  cases h with
  | header known path formatter own wide =>
    have bad := readHeader_wide wide
    rw [ofValue_of_known distinct known, settingsOf_header path formatter own bad]
    rfl
  | runtimeModule known path formatter header modules own wide =>
    obtain ⟨s, gives, read⟩ := ofValue_of_read distinct known path formatter header
    have runtime := gives.runtime
    rw [own] at runtime
    rcases gives.check_cases with ⟨-, a, b, run⟩ | ⟨no, -⟩
    · rw [read, run]
      exact Settings.checkRest_wide (by rw [runtime]; exact wide) a b
    · exact absurd modules no

include each

theorem ofValue_mistyped (h : IsMistyped fields) :
    ofValue (.dict (Json.named fields)) = .error .wrongType := by
  cases h with
  | outputDir known own other =>
    rw [ofValue_of_known distinct known, settingsOf_path own other]
    rfl
  | header known path formatter own number =>
    have bad := readHeader_number (json_of_field each _ own) number
    rw [ofValue_of_known distinct known, settingsOf_header path formatter own bad]
    rfl

theorem ofValue_config (h : IsConfig fields) :
    ∃ c, ofValue (.dict (Json.named fields)) = .ok c := by
  obtain ⟨s, gives, read⟩ := ofValue_of_read distinct h.known h.outputDir h.formatter h.header
  obtain ⟨f, known⟩ := gives.formatter
  have dotted := (Value.isDotted_iff (gives.json each)).1 (gives.isDotted.2 h.runtimeModule)
  rw [read]
  rcases gives.check_cases with ⟨-, a, b, run⟩ | ⟨no, -⟩
  · rcases Settings.checkRest_cases dotted.1 known a b with ⟨-, c, ok⟩ | ⟨no, -⟩
    · exact ⟨c, run.trans ok⟩
    · exact absurd ⟨dotted.2, gives.isLineLength.2 h.lineLength⟩ no
  · exact absurd h.modules no

/-- Everything else is reported. -/
theorem ofValue_cases : IsConfig fields ∨ IsMistyped fields ∨ IsTooLong fields ∨
    Refused (ofValue (.dict (Json.named fields))) := by
  by_cases known : Known fields
  swap
  · obtain ⟨names, unknown⟩ := unknownKeys_unknown known
    rw [ofValue_named distinct, unknown]
    exact .inr (.inr (.inr ⟨_, rfl, rfl⟩))
  by_cases path : ∀ v ∈ field fields .outputDir, IsPath v
  swap
  · simp only [not_forall] at path
    obtain ⟨v, own, other⟩ := path
    exact .inr (.inl (.outputDir known own other))
  by_cases formatter : ∀ v ∈ field fields .formatter, IsFormatter v
  swap
  · simp only [not_forall] at formatter
    obtain ⟨v, own, other⟩ := formatter
    have bad := settingsOf_formatter path own other
    rw [ofValue_of_known distinct known]
    exact .inr (.inr (.inr (bad.bind _)))
  by_cases header : ∀ v ∈ field fields .header, IsHeader v
  swap
  · simp only [not_forall] at header
    obtain ⟨v, own, other⟩ := header
    rcases header_cases (json_of_field each _ own) with is | number | wide
    · exact absurd is other
    · exact .inr (.inl (.header known path formatter own number))
    · exact .inr (.inr (.inl (.header known path formatter own wide)))
  obtain ⟨s, gives, read⟩ := ofValue_of_read distinct known path formatter header
  obtain ⟨f, has⟩ := gives.formatter
  rw [read]
  rcases gives.check_cases with ⟨modules, a, b, run⟩ | ⟨-, bad⟩
  swap
  · exact .inr (.inr (.inr bad))
  rw [run]
  by_cases text : s.runtimeModule.hasText
  swap
  · rw [gives.hasText] at text
    simp only [not_forall, Bool.not_eq_true] at text
    obtain ⟨v, own, wide⟩ := text
    exact .inr (.inr (.inl (.runtimeModule known path formatter header modules own wide)))
  rcases Settings.checkRest_cases text has a b with ⟨fits, -⟩ | ⟨-, bad⟩
  · have dotted := gives.isDotted.1 ((Value.isDotted_iff (gives.json each)).2 ⟨text, fits.1⟩)
    exact .inl ⟨known, path, modules, dotted, formatter, gives.isLineLength.1 fits.2, header⟩
  · exact .inr (.inr (.inr bad))

end Outcome
end Document

theorem named_injective : Function.Injective Json.named := by
  refine List.map_injective_iff.2 ?_
  rintro ⟨s, v⟩ ⟨t, w⟩ h
  cases h
  rfl

/-- What reading a document ends with: a configuration, which passes the check once more, or one of
two failures that are no reports, or a report about the configuration. -/
structure ReadsExactly (d : Value) : Prop where
  accepted : (∃ c, ofValue d = .ok c) ↔ ∃ fields, d = .dict (Json.named fields) ∧ IsConfig fields
  checked : ∀ c, ofValue d = .ok c → c.toSettings.check = .ok c
  mistyped : ofValue d = .error .wrongType ↔
    ∃ fields, d = .dict (Json.named fields) ∧ IsMistyped fields
  tooLong : ofValue d = .error .unwritable ↔
    ∃ fields, d = .dict (Json.named fields) ∧ IsTooLong fields
  reported : ∀ e, ofValue d = .error e →
    e = .wrongType ∨ e = .unwritable ∨ e.kind = .report .badConfig

theorem check_of_ofValue {d : Value} {c : Config} (h : ofValue d = .ok c) :
    c.toSettings.check = .ok c := by
  rw [ofValue.eq_def] at h
  split at h
  · obtain ⟨-, -, h⟩ := Error.bind_eq_ok_iff.1 h
    obtain ⟨fields, -, h⟩ := Error.bind_eq_ok_iff.1 h
    exact Settings.check_toSettings h
  · cases h

theorem readsExactly_other {d : Value} (other : ∀ fields, d ≠ .dict (Json.named fields))
    (bad : Refused (ofValue d)) : ReadsExactly d := by
  have none (P : List (String × Value) → Prop) :
      ¬∃ fields, d = .dict (Json.named fields) ∧ P fields := fun ⟨fields, eq, _⟩ => other fields eq
  refine ⟨iff_of_false ?_ (none _), fun c => check_of_ofValue, iff_of_false ?_ (none _),
    iff_of_false ?_ (none _), fun e run => .inr (.inr (bad.kind_eq run))⟩
  · exact fun ⟨c, ok⟩ => bad.ne_ok c ok
  · exact fun run => nomatch bad.kind_eq run
  · exact fun run => nomatch bad.kind_eq run

theorem readsExactly_named {fields : List (String × Value)}
    (distinct : (fields.map Prod.fst).Nodup) (each : ∀ f ∈ fields, f.2.IsJson) :
    ReadsExactly (.dict (Json.named fields)) := by
  have own (P : List (String × Value) → Prop) :
      (∃ fs, Value.dict (Json.named fields) = .dict (Json.named fs) ∧ P fs) ↔ P fields := by
    refine ⟨?_, fun h => ⟨fields, rfl, h⟩⟩
    rintro ⟨fs, eq, h⟩
    rwa [named_injective (Value.dict.inj eq)]
  have config := ofValue_config distinct each
  have mistyped := ofValue_mistyped distinct each
  have tooLong (h : IsTooLong fields) := ofValue_tooLong distinct h
  have ends := ofValue_cases distinct each
  -- Each way to end excludes the others by what it ends with.
  have notOk (bad : Refused (ofValue (.dict (Json.named fields)))) (c : Config) := bad.ne_ok c
  have kind (bad : Refused (ofValue (.dict (Json.named fields)))) (e : Error) := bad.kind_eq (e := e)
  have kindMistyped : Error.wrongType.kind ≠ .report .badConfig := nofun
  have kindTooLong : Error.unwritable.kind ≠ .report .badConfig := nofun
  refine ⟨?_, fun c => check_of_ofValue, ?_, ?_, fun e run => ?_⟩
  · rw [own]
    grind
  · rw [own]
    grind
  · rw [own]
    grind
  · grind

/-- Every JSON document is a configuration, or refused, for the reason that the grammar gives. -/
theorem ofValue_exact {d : Value} (json : d.IsJson) : ReadsExactly d := by
  cases json with
  | dict distinct each => exact readsExactly_named distinct each
  | labelled label x =>
    refine readsExactly_other (fun _ eq => by cases eq)
      ⟨.notMapping (Value.named label (.float x)).typeName, ?_, rfl⟩
    simp [ofValue, Value.bare, Value.plug]
  | _ => exact readsExactly_other (fun _ eq => by cases eq) ⟨_, rfl, rfl⟩

/-- A number for the directory is refused without a report; without one there, a header of named
lines and a runtime of nothing at all are read. -/
theorem ofValue_number_for_directory :
    (Value.dict (Json.named [("output_dir", .int 5)])).IsJson ∧
      ofValue (.dict (Json.named [("output_dir", .int 5)])) = .error .wrongType ∧
      ∃ c, ofValue (.dict (Json.named [("header", .dict (Json.named [("line", .int 1)])),
        ("runtime_module", .null)])) = .ok c := by
  have number : (Value.dict (Json.named [("output_dir", .int 5)])).IsJson :=
    .dict (by decide) (by simpa using .int 5)
  have loose : (Value.dict (Json.named [("header", .dict (Json.named [("line", .int 1)])),
      ("runtime_module", .null)])).IsJson :=
    .dict (by decide) (by simpa using ⟨.dict (by decide) (by simpa using .int 1), .null⟩)
  refine ⟨number, (ofValue_exact number).mistyped.2 ⟨_, rfl, ?_⟩,
    (ofValue_exact loose).accepted.2 ⟨_, rfl, ?_⟩⟩
  · exact .outputDir (by simpa [Known] using ⟨.outputDir, rfl⟩) rfl (by simp [IsPath])
  · exact {
      known := by simpa [Known] using ⟨⟨.header, rfl⟩, .runtimeModule, rfl⟩
      outputDir := by rintro _ ⟨⟩
      modules := ⟨_, _, rfl, rfl, by decide, by decide, by decide⟩
      runtimeModule := by rintro _ ⟨⟩; exact .null
      formatter := by rintro _ ⟨⟩
      lineLength := by rintro _ ⟨⟩
      header := by rintro _ ⟨⟩; exact .dict _ }

end Config
end Polyad
