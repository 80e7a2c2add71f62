import Mathlib.Data.List.Nodup
import Polyad.Config
import Polyad.Proofs.Json.Trees

/-!
# Settings of a document

The settings a document with fields gives: each field is found by looking its name up, and read on
its own. So the order of the fields does not matter, apart from which failure is met first.
-/

namespace Polyad

namespace Settings

/-- The setting of a field. -/
def get (s : Settings) : Key → Setting
  | .outputDir => .value s.outputDir
  | .maxArity => .value s.maxArity
  | .interfacesModule => .value s.interfacesModule
  | .implementationsModule => .value s.implementationsModule
  | .runtimeModule => .value s.runtimeModule
  | .formatter => s.formatter
  | .lineLength => .value s.lineLength
  | .header => .value s.header

theorem ext_get {s t : Settings} (h : ∀ k, s.get k = t.get k) : s = t := by
  obtain ⟨⟩ := s
  obtain ⟨⟩ := t
  have outputDir := h .outputDir
  have maxArity := h .maxArity
  have interfaces := h .interfacesModule
  have implementations := h .implementationsModule
  have runtime := h .runtimeModule
  have formatter := h .formatter
  have lineLength := h .lineLength
  have header := h .header
  simp only [get, Setting.value.injEq] at *
  simp [*]

/-- A setting of the type its field takes: only the formatter may be known already. -/
def Fits (k : Key) (x : Setting) : Prop := k = .formatter ∨ ∃ v, x = .value v

theorem get_set (s : Settings) {k : Key} {x : Setting} (fits : Fits k x) (k' : Key) :
    (s.set k x).get k' = if k' = k then x else s.get k' := by
  rcases fits with rfl | ⟨v, rfl⟩
  · cases k' <;> rfl
  · cases k <;> cases k' <;> rfl

theorem get_setAll {fields : List (Key × Setting)} (fits : ∀ f ∈ fields, Fits f.1 f.2)
    (distinct : (fields.map Prod.fst).Nodup) (s : Settings) (k : Key) :
    (s.setAll fields).get k = (fields.lookup k).getD (s.get k) := by
  induction fields generalizing s with
  | nil => rfl
  | cons f fs ih =>
    obtain ⟨own, rest⟩ := List.forall_mem_cons.1 fits
    rw [List.map_cons, List.nodup_cons] at distinct
    have later := ih rest distinct.2 (s.set f.1 f.2)
    rw [get_set s own] at later
    rw [setAll, List.foldl_cons, ← setAll, later, List.lookup_cons]
    by_cases same : k = f.1
    · have none : fs.lookup k = none := by
        rw [List.lookup_eq_none_iff]
        intro g mem
        have ne : k ≠ g.1 := fun eq => distinct.1 (same ▸ eq ▸ List.mem_map_of_mem mem)
        simpa using ne
      have here : (k == f.1) = true := by simpa using same
      rw [none, here, if_pos same]
      rfl
    · have here : (k == f.1) = false := by simpa using same
      rw [here, if_neg same]

theorem setAll_append (s : Settings) (fields more : List (Key × Setting)) :
    s.setAll (fields ++ more) = (s.setAll fields).setAll more :=
  List.foldl_append

end Settings

namespace Config

/-! ## Fields by name -/

/-- The settings of a document with these values under its keys. -/
def settingsOf (given : Key → Option Value) : Except Error Settings := do
  let outputDir ← (given .outputDir).mapM readOutputDir
  let formatter ← (given .formatter).mapM readFormatter
  let header ← (given .header).mapM readHeader
  return {
    outputDir := outputDir.getD .null
    maxArity := (given .maxArity).getD (.int 24)
    interfacesModule := (given .interfacesModule).getD (.str "tuples")
    implementationsModule := (given .implementationsModule).getD (.str "tuples_impl")
    runtimeModule := (given .runtimeModule).getD (.str "tuplegen.runtime")
    formatter := formatter.getD (.formatter .black)
    lineLength := (given .lineLength).getD .null
    header := header.getD (.list (defaultHeader.map .str)) }

/-- A field that was read, as a list of one setting or none. -/
def readAs (k : Key) (x : Option Setting) : List (Key × Setting) := (x.map (k, ·)).toList

theorem readField_eq (fields : List (Key × Value)) (k : Key)
    (read : Value → Except Error Setting) :
    readField fields k read = ((given? fields k).mapM read).map (readAs k) := by
  rw [readField]
  cases given? fields k with
  | none => rfl
  | some v => cases h : read v <;> simp [h, Except.map, readAs, Functor.map]

theorem mapM_value (o : Option Value) (read : Value → Except Error Value) :
    o.mapM (fun v => (read v).map Setting.value) =
      (o.mapM read).map (Option.map Setting.value) := by
  cases o with
  | none => rfl
  | some v => cases h : read v <;> simp [h, Except.map, Functor.map]

theorem get_setAll_readAs {k : Key} {x : Option Setting} (fits : ∀ y ∈ x, Settings.Fits k y)
    (s : Settings) (k' : Key) :
    (s.setAll (readAs k x)).get k' = if k' = k then x.getD (s.get k') else s.get k' := by
  cases x with
  | none => simp [readAs, Settings.setAll]
  | some y =>
    have own := Settings.get_set s (fits y rfl) k'
    simpa [readAs, Settings.setAll] using own

theorem lookup_others (p : Key → Bool) (fields : List (Key × Value)) (k : Key) :
    ((fields.filter fun f => p f.1).map fun f => (f.1, Setting.value f.2)).lookup k =
      if p k then (given? fields k).map .value else none := by
  rw [given?]
  induction fields with
  | nil => simp
  | cons f fs ih =>
    obtain ⟨k', v⟩ := f
    rw [List.filter_cons]
    dsimp only
    by_cases taken : p k'
    · rw [if_pos taken, List.map_cons, List.lookup_cons, List.lookup_cons, ih]
      by_cases here : k = k'
      · simp [here, taken]
      · have other : (k == k') = false := by simpa using here
        rw [other]
    · rw [if_neg taken, List.lookup_cons, ih]
      by_cases here : k = k'
      · simp [here, taken]
      · have other : (k == k') = false := by simpa using here
        rw [other]

/-- The settings of a document are found by looking its keys up. -/
theorem setAll_readFields {fields : List (Key × Value)} (distinct : (fields.map Prod.fst).Nodup) :
    (do let given ← readFields fields; return ({} : Settings).setAll given) =
      settingsOf (given? fields) := by
  rw [readFields, settingsOf, readField_eq, readField_eq, readField_eq, mapM_value, mapM_value]
  cases (given? fields .outputDir).mapM readOutputDir with
  | error e => rfl
  | ok outputDir =>
  cases named : (given? fields .formatter).mapM readFormatter with
  | error e => rfl
  | ok formatter =>
  cases (given? fields .header).mapM readHeader with
  | error e => rfl
  | ok header =>
  refine congrArg Except.ok (Settings.ext_get fun k => ?_)
  let plain (k : Key) : Bool := ! [Key.outputDir, .formatter, .header].contains k
  let others := (fields.filter fun f => plain f.1).map fun f => (f.1, Setting.value f.2)
  have fits : ∀ f ∈ others, Settings.Fits f.1 f.2 := by
    intro f mem
    obtain ⟨g, -, rfl⟩ := List.mem_map.1 mem
    exact .inr ⟨g.2, rfl⟩
  have apart : (others.map Prod.fst).Nodup := by
    rw [List.map_map]
    exact distinct.sublist (List.filter_sublist.map Prod.fst)
  have values {o : Option Value} {k : Key} : ∀ x ∈ o.map Setting.value, Settings.Fits k x := by
    intro x mem
    obtain ⟨v, -, rfl⟩ := Option.map_eq_some_iff.1 mem
    exact .inr ⟨v, rfl⟩
  change (Settings.setAll _ (_ ++ _ ++ _ ++ others)).get k = _
  rw [Settings.setAll_append, Settings.setAll_append, Settings.setAll_append,
    Settings.get_setAll fits apart, lookup_others, get_setAll_readAs values,
    get_setAll_readAs fun _ _ => .inl rfl, get_setAll_readAs values]
  cases k <;> simp [Settings.get, plain]

/-! ## Documents with fields -/

theorem ofValue_eq_of_bare {v w : Value} (same : v.bare = w.bare)
    (mapping : ∃ es, w.bare = .dict es) : ofValue v = ofValue w := by
  obtain ⟨es, mapping⟩ := mapping
  rw [ofValue, ofValue, same, mapping]

section Named

variable {fields : List (String × Value)}

/-- The value of a field of a document. -/
def field (fields : List (String × Value)) (k : Key) : Option Value := fields.lookup k.name

theorem name_of_ofName? {s : String} {k : Key} (h : Key.ofName? s = some k) : k.name = s := by
  simpa using List.find?_some h

theorem knownFields_cons (s : String) (v : Value) (fs : List (String × Value)) :
    knownFields (Json.named ((s, v) :: fs)) =
      ((Key.ofName? s).map (·, v)).toList ++ knownFields (Json.named fs) := by
  rw [knownFields, Json.named, List.map_cons, List.filterMap_cons]
  dsimp only
  cases Key.ofName? s <;> rfl

theorem given?_knownFields (fields : List (String × Value)) (k : Key) :
    given? (knownFields (Json.named fields)) k = field fields k := by
  rw [given?, field]
  induction fields with
  | nil => rfl
  | cons f fs ih =>
    obtain ⟨s, v⟩ := f
    rw [knownFields_cons, List.lookup_append, List.lookup_cons, ih]
    by_cases here : k.name = s
    · rw [← here, Key.ofName?_name, BEq.rfl]
      simp
    · have other : (k.name == s) = false := by simpa using here
      rw [other]
      cases found : Key.ofName? s with
      | none => rfl
      | some k' =>
        have ne : (k == k') = false := by
          simp only [beq_eq_false_iff_ne]
          rintro rfl
          exact here (name_of_ofName? found)
        simp [List.lookup_cons, ne]

theorem knownFields_distinct (distinct : (fields.map Prod.fst).Nodup) :
    ((knownFields (Json.named fields)).map Prod.fst).Nodup := by
  have keys : (knownFields (Json.named fields)).map Prod.fst =
      (fields.map Prod.fst).filterMap Key.ofName? := by
    induction fields with
    | nil => rfl
    | cons f fs ih =>
      obtain ⟨s, v⟩ := f
      rw [List.map_cons, List.nodup_cons] at distinct
      rw [knownFields_cons, List.map_append, ih distinct.2, List.map_cons, List.filterMap_cons]
      cases Key.ofName? s <;> rfl
  rw [keys]
  refine List.Nodup.filterMap (fun s t k left right => ?_) distinct
  rw [← name_of_ofName? left, ← name_of_ofName? right]

/-- A document with fields is read by looking them up, once its keys are known. -/
theorem ofValue_named (distinct : (fields.map Prod.fst).Nodup) :
    ofValue (.dict (Json.named fields)) = (do
      unknownKeys ((Json.named fields).map Prod.fst)
      (← settingsOf (field fields)).check) := by
  have settings := setAll_readFields (knownFields_distinct distinct)
  have given : given? (knownFields (Json.named fields)) = field fields :=
    funext (given?_knownFields fields)
  rw [given] at settings
  rw [ofValue, Value.bare, ← settings]
  simp only [bind_assoc, pure_bind]
  exact nofun

/-- Every key is that of a field. -/
def Known (fields : List (String × Value)) : Prop := ∀ f ∈ fields, ∃ k : Key, k.name = f.1

theorem isSome_ofName? {s : String} : (Key.ofName? s).isSome ↔ ∃ k : Key, k.name = s := by
  rw [Option.isSome_iff_exists]
  refine ⟨fun ⟨k, found⟩ => ⟨k, name_of_ofName? found⟩, ?_⟩
  rintro ⟨k, rfl⟩
  exact ⟨k, Key.ofName?_name k⟩

theorem mem_keys {v : Value} (mem : v ∈ (Json.named fields).map Prod.fst) :
    ∃ f ∈ fields, v = .str f.1 := by
  rw [Json.named, List.map_map] at mem
  obtain ⟨f, there, rfl⟩ := List.mem_map.1 mem
  exact ⟨f, there, rfl⟩

theorem unknownKeys_known (known : Known fields) :
    unknownKeys ((Json.named fields).map Prod.fst) = .ok () := by
  rw [unknownKeys]
  refine if_pos ?_
  rw [List.isEmpty_iff, List.filter_eq_nil_iff]
  intro v mem
  obtain ⟨f, there, rfl⟩ := mem_keys mem
  simpa using Option.isSome_iff_ne_none.1 (isSome_ofName?.2 (known f there))

theorem unknownKeys_unknown (unknown : ¬Known fields) :
    ∃ names, unknownKeys ((Json.named fields).map Prod.fst) = .error (.unknownKeys names) := by
  obtain ⟨f, mem, none⟩ : ∃ f ∈ fields, Key.ofName? f.1 = none := by
    simp only [Known, not_forall] at unknown
    obtain ⟨f, mem, none⟩ := unknown
    refine ⟨f, mem, ?_⟩
    rw [← isSome_ofName?] at none
    simpa using none
  rw [unknownKeys, if_neg, Error.mapM_eq_ok (g := Value.text)]
  · exact ⟨_, rfl⟩
  · intro v there
    obtain ⟨g, -, rfl⟩ := mem_keys (List.mem_filter.1 there).1
    rw [Value.text_str]
  · rw [List.isEmpty_iff, List.filter_eq_nil_iff]
    intro clear
    refine clear (.str f.1) ?_ (by simp [none])
    exact List.mem_map_of_mem (f := Prod.fst) (List.mem_map_of_mem mem)

end Named

end Config
end Polyad
