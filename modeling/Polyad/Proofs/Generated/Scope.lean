import Polyad.Proofs.Generated.Bodies

/-!
# Scope of the emitted files

Both files of a family are well scoped, whatever its size and whatever the module that supports
them, and what the one imports from the other is defined there. Imports are asked for definition by
definition, so this rests on what each of them needs and on their order.
-/

namespace Polyad.Generated

open Code

variable {f : Family} {m null next terminal : Member} {runtime : String}
variable {early late : List String}

/-! ## Contracts -/

theorem bound_import {imports : List Import} {known : List String} {path s : String}
    (mem : ⟨path, some s⟩ ∈ imports) : Bound imports known s :=
  .inr (.inl ⟨_, mem, List.mem_singleton_self s⟩)

/-- A contract needs the type parameters of its member. -/
theorem scoped_fullContract {c : ClassDef} (emitted : fullContract m f runtime = .ok c)
    (params : ∀ s ∈ m.typeParams, s ∈ early) :
    (Definition.classDef c).Scoped (emittedImports runtime) early late := by
  by_cases arity : m.arity = 0
  · rw [contract_of_null arity emitted]
    have items : (withConversions (nullContract m f runtime) m).items = emptySlots ::
        (extensions m f runtime ++ iteration m ++ conversions m).map ClassItem.function := by
      simp [withConversions, ClassDef.addFunctions, nullContract]
    have asks : Import.several runtime ["TupleMarker", "ValueIdentity"] ⊆ emittedImports runtime :=
      runtime_subset_emittedImports (by decide)
    refine Definition.scoped_classDef items ⟨rfl, rfl⟩ asks (fun s base => ?_) fun fn held => ?_
    · have base : s ∈ ["TupleMarker", "ValueIdentity"] := base
      exact bound_import (List.mem_map_of_mem base)
    · rcases List.mem_append.1 held with held | conversion
      · rcases List.mem_append.1 held with extension | iteration
        · exact scoped_extensions extension
        · exact scoped_iteration iteration
      · exact scoped_conversions conversion
  · obtain ⟨ts, -, hts, eq⟩ := fullContract_eq_ok arity emitted
    rw [eq]
    have asks : Import.several runtime ["TupleMarker", "ValueIdentity"] ++
        Import.several "typing" ["Generic"] ⊆ emittedImports runtime :=
      List.append_subset.2 ⟨runtime_subset_emittedImports (by decide),
        typing_subset_emittedImports (by decide)⟩
    refine Definition.scoped_classDef rfl ⟨rfl, rfl⟩ asks (fun s base => ?_) fun fn held => ?_
    · have base : s ∈ ["TupleMarker", "ValueIdentity"] ++
          ((TypeTerm.generic "Generic" (TypeTerm.names m.typeParams)).mentions ++ []) := base
      rw [TypeTerm.mentions_generic_names, List.append_nil] at base
      rcases List.mem_append.1 base with marker | base
      · exact bound_import (List.mem_append_left _ (List.mem_map_of_mem marker))
      · rcases List.mem_cons.1 base with rfl | param
        · exact bound_import (List.mem_append_right _ List.mem_cons_self)
        · exact .inr (.inr (params s param))
    · exact scoped_contractFunctions hts held

theorem scoped_typeVariable (positions : List String) (name : String) :
    (Definition.assignment (typeVariable positions name)).Scoped (emittedImports runtime)
      early late := by
  have asks : Import.several "typing" ["TypeVar"] ⊆ emittedImports runtime :=
    typing_subset_emittedImports (by decide)
  refine Definition.scoped_assignment asks fun s mention => ?_
  have mention : s ∈ ["TypeVar", "True"] := by
    unfold typeVariable at mention
    split at mention
    · exact mention
    · exact List.mem_append_left ["True"] mention
  rcases List.mem_cons.1 mention with rfl | constant
  · exact bound_import List.mem_cons_self
  · cases List.mem_singleton.1 constant
    exact .inl (by decide)

/-- What the file of contracts defines: the type variables and the contracts. -/
theorem names_contractsBody (d : f.Derived) :
    (contractsBody f runtime terminal).map Definition.name =
      typeVarsOf terminal ++ f.members.map (·.interfaceName) := by
  have declared : (((typeVarsOf terminal).map (typeVariable terminal.typeParams)).map
      Definition.assignment).map Definition.name = typeVarsOf terminal := by
    rw [List.map_map, List.map_map]
    exact List.map_id _
  have contracts : ((f.members.map (contractOf f runtime)).map Definition.classDef).map
      Definition.name = f.members.map (·.interfaceName) := by
    rw [List.map_map, List.map_map]
    exact List.map_congr_left fun m mem => name_contractOf d mem runtime
  rw [contractsBody, List.map_append, declared, contracts]

theorem ordered_contractsBody (d : f.Derived)
    (params : ∀ m ∈ f.members, m.typeParams ⊆ terminal.typeParams) :
    Definition.Ordered (emittedImports runtime) late early (contractsBody f runtime terminal) := by
  rw [contractsBody, Definition.ordered_append]
  constructor
  · refine Definition.ordered_of_forall fun definition mem => ?_
    rw [List.map_map] at mem
    obtain ⟨name, -, rfl⟩ := List.mem_map.1 mem
    exact scoped_typeVariable ..
  · refine Definition.ordered_of_forall fun definition mem => ?_
    rw [List.map_map] at mem
    obtain ⟨m, own, rfl⟩ := List.mem_map.1 mem
    refine scoped_fullContract (fullContract_eq d own) fun s param => List.mem_append_right _ ?_
    have declared : s ∈ typeVarsOf terminal :=
      List.mem_append_left _ (List.mem_append_left _ (params m own param))
    rw [List.map_map, List.map_map]
    exact List.mem_map.2 ⟨s, declared, rfl⟩

/-! ## Concrete classes -/

/-- A concrete class needs its contract and the type parameters of its member. -/
theorem scoped_concreteClass {c : ClassDef} (emitted : concreteClass m f = .ok c)
    (mem : m ∈ f.members) (contract : m.interfaceName ∈ early) (params : ∀ s ∈ m.typeParams, s ∈ early)
    (own : m.className ∈ late) (neighbours : ∀ n ∈ f.proper, n.className ∈ late) :
    (Definition.classDef c).Scoped (emittedImports runtime) early late := by
  obtain ⟨doc, ext, ts, valid, hext, hts, eq⟩ := concreteClass_eq_ok emitted
  have constant : (slotsAssignment m).value.mentions = [] := by
    rw [slotsAssignment, Expr.mentions, Expr.mentionsAll_literals]
  rw [eq]
  refine Definition.scoped_classDef rfl ⟨constant, rfl⟩ (List.nil_subset _) (fun s base => ?_)
    fun fn held => ?_
  · have base : s ∈ (contractType m m.typeParams).mentions ++ [] := base
    rw [contractType, TypeTerm.mentions_generic_names, List.append_nil] at base
    rcases List.mem_cons.1 base with rfl | param
    · exact .inr (.inr contract)
    · exact .inr (.inr (params s param))
  · exact scoped_concreteFunctions mem valid hext hts own neighbours held

theorem scoped_nullOutline (contract : null.interfaceName ∈ early) (own : null.className ∈ late)
    (following : next.className ∈ late) :
    (Definition.classDef (nullOutline null next)).Scoped (emittedImports runtime) early late := by
  refine Definition.scoped_classDef rfl ⟨rfl, rfl⟩ (List.nil_subset _) (fun s base => ?_)
    fun fn held => scoped_nullMethods own following held
  cases List.mem_singleton.1 base
  exact .inr (.inr contract)

/-- What the file of concrete classes defines. -/
theorem names_concretesBody (d : f.Derived) (le : f.maxArity ≤ 999) :
    (concretesBody f runtime null next).map Definition.name =
      null.className :: nullInstance :: (f.proper.map (·.className) ++
        (nativeConverters f).map Function.name ++ ["_CONSTRUCTORS", "tuple_of"]) := by
  have classes : f.proper.map (Definition.name ∘ fun m => Definition.classDef (classOf f m)) =
      f.proper.map (·.className) :=
    List.map_congr_left fun m mem => name_classOf d le (Family.mem_proper_iff.1 mem).1
  have converters : (nativeConverters f).map (Definition.name ∘ Definition.function) =
      (nativeConverters f).map Function.name := rfl
  simp only [concretesBody, List.cons_append, List.map_cons, List.map_append, List.map_map, classes,
    converters]
  rfl

theorem ordered_concretesBody (d : f.Derived) (le : f.maxArity ≤ 999)
    (members : f.members = null :: f.proper) (succ : f.successor? null = some next)
    (contracts : ∀ m ∈ f.members, m.interfaceName ∈ early)
    (params : ∀ m ∈ f.members, ∀ s ∈ m.typeParams, s ∈ early)
    (defined : (concretesBody f runtime null next).map Definition.name ⊆ late) :
    Definition.Ordered (emittedImports runtime) late early (concretesBody f runtime null next) := by
  have there : null ∈ f.members := by
    rw [members]
    exact List.mem_cons_self
  rw [names_concretesBody d le] at defined
  have nullClass : null.className ∈ late := defined List.mem_cons_self
  have nullTuple : nullInstance ∈ late := defined (List.mem_cons_of_mem _ List.mem_cons_self)
  have rest {s : String} (mem : s ∈ f.proper.map (·.className) ++
      (nativeConverters f).map Function.name ++ ["_CONSTRUCTORS", "tuple_of"]) : s ∈ late :=
    defined (List.mem_cons_of_mem _ (List.mem_cons_of_mem _ mem))
  have classes : ∀ n ∈ f.proper, n.className ∈ late := fun n mem =>
    rest (List.mem_append_left _ (List.mem_append_left _ (List.mem_map_of_mem mem)))
  have table : "_CONSTRUCTORS" ∈ late := rest (List.mem_append_right _ List.mem_cons_self)
  have following := classes next (Family.mem_proper_of_successor? there succ)
  have split : concretesBody f runtime null next =
      [.classDef (nullOutline null next), .assignment (nullAssignment null)] ++
        (f.proper.map (fun m => Definition.classDef (classOf f m)) ++
          ((nativeConverters f).map .function ++ factory f runtime)) := by
    simp [concretesBody]
  rw [split, Definition.ordered_append, Definition.ordered_append, Definition.ordered_append]
  refine ⟨⟨scoped_nullOutline (contracts null there) nullClass following, ?_, trivial⟩, ?_, ?_, ?_⟩
  · refine Definition.scoped_assignment (List.nil_subset _) fun s mention => .inr (.inr ?_)
    cases List.mem_singleton.1 mention
    exact List.mem_append_right _ List.mem_cons_self
  · refine Definition.ordered_of_forall fun definition mem => ?_
    obtain ⟨m, proper, rfl⟩ := List.mem_map.1 mem
    have own := (Family.mem_proper_iff.1 proper).1
    exact scoped_concreteClass (concreteClass_eq d le own) own
      (List.mem_append_left _ (contracts m own))
      (fun s param => List.mem_append_left _ (params m own s param)) (classes m proper) classes
  · refine Definition.ordered_of_forall fun definition mem => ?_
    obtain ⟨fn, converter, rfl⟩ := List.mem_map.1 mem
    obtain ⟨m, own, eq⟩ := List.mem_filterMap.1 converter
    obtain ⟨n, -, rfl⟩ := Option.map_eq_some_iff.1 eq
    refine Definition.scoped_function (scoped_converterFunction n ?_)
    rw [members] at own
    rcases List.mem_cons.1 own with rfl | proper
    · exact nullClass
    · exact classes m proper
  · refine ⟨Definition.scoped_assignment (List.nil_subset _) fun s mention => .inr (.inr ?_),
      Definition.scoped_function (scoped_factoryFunction nullTuple table), trivial⟩
    have mention : s ∈ Expr.mentionsAll (f.proper.map (Expr.name ∘ Member.className)) := mention
    rw [← List.map_map, Expr.mentionsAll_names] at mention
    obtain ⟨m, proper, rfl⟩ := List.mem_map.1 mention
    refine List.mem_append_left _ (List.mem_append_right _ (List.mem_map.2 ⟨_,
      List.mem_map_of_mem proper, ?_⟩))
    exact name_classOf d le (Family.mem_proper_iff.1 proper).1

/-! ## Import blocks -/

theorem isDottedPath_typing : Text.isDottedPath "typing" = true := by decide

/-- Definitions ask for no module by a relative path. -/
theorem isDottedPath_of_mem_emittedImports (path : Text.isDottedPath runtime = true) {i : Import}
    (mem : i ∈ emittedImports runtime) : Text.isDottedPath i.path = true := by
  simp only [emittedImports, List.cons_append, List.mem_cons, List.mem_append] at mem
  rcases mem with rfl | rfl | typing | support
  · decide
  · decide
  · obtain ⟨s, -, rfl⟩ := List.mem_map.1 typing
    exact isDottedPath_typing
  · obtain ⟨s, -, rfl⟩ := List.mem_map.1 support
    exact path

/-- Only the module of warnings is imported as a whole. -/
theorem path_eq_of_bare {i : Import} (mem : i ∈ emittedImports runtime) (bare : i.name = none) :
    i.path = "warnings" := by
  simp only [emittedImports, List.cons_append, List.mem_cons, List.mem_append] at mem
  rcases mem with rfl | rfl | typing | support
  · rfl
  · cases bare
  · obtain ⟨s, -, rfl⟩ := List.mem_map.1 typing
    cases bare
  · obtain ⟨s, -, rfl⟩ := List.mem_map.1 support
    cases bare

/-- A file asks for what it imports itself and for what its definitions do. -/
theorem mem_of_mem_collectImports {file : File}
    (asks : ∀ d ∈ file.body, d.allImports ⊆ emittedImports runtime) {i : Import}
    (mem : i ∈ file.collectImports) : i ∈ file.imports ++ emittedImports runtime := by
  rcases List.mem_append.1 (File.mem_collectImports.1 mem) with own | part
  · exact List.mem_append_left _ own
  · obtain ⟨d, there, hi⟩ := List.mem_flatMap.1 part
    exact List.mem_append_right _ (asks d there hi)

/-- So it imports only modules with paths as a whole. -/
theorem words_of_bare {file : File} (named : ∀ i ∈ file.imports, i.name ≠ none)
    (asks : ∀ d ∈ file.body, d.allImports ⊆ emittedImports runtime) :
    ∀ i ∈ file.collectImports, i.name = none → Text.words i.path ≠ [] := by
  intro i mem whole
  rcases List.mem_append.1 (mem_of_mem_collectImports asks mem) with own | emitted
  · exact absurd whole (named i own)
  · rw [path_eq_of_bare emitted whole]
    decide

/-- A file with ordered definitions has an import block. With it the file is well scoped, and the
block takes nothing from a module that neither the file nor a definition in it asks for. -/
theorem exists_block (file : File) (deferred : annotationsImport ∈ file.imports)
    (named : ∀ i ∈ file.imports, i.name ≠ none)
    (ordered : Definition.Ordered (emittedImports runtime)
      (file.ownNames ++ file.body.map Definition.name) file.ownNames file.body) :
    ∃ groups, importGroups file.collectImports = .ok groups ∧
      WellScoped file (groups.flatten.flatMap ImportLine.bound) ∧
      ∀ l ∈ groups.flatten, ∀ name ∈ l.bound,
        ∃ i ∈ file.imports ++ emittedImports runtime, i.path = l.path ∧ name ∈ i.bound := by
  have asked := fun i => mem_of_mem_collectImports (i := i) ordered.asks
  obtain ⟨groups, made, same⟩ := exists_importGroups (words_of_bare named ordered.asks)
  refine ⟨groups, made, wellScoped_of_ordered deferred (fun i mem name bound => ?_) ordered, ?_⟩
  · obtain ⟨l, line, -, there⟩ := ImportLine.exists_bound_ofImports_iff.2
      ⟨i, File.mem_collectImports.2 mem, rfl, bound⟩
    exact List.mem_flatMap.2 ⟨l, (same l).2 line, there⟩
  · intro l mem name bound
    obtain ⟨i, hi, path, there⟩ := ImportLine.exists_bound_ofImports_iff.1
      ⟨l, (same l).1 mem, rfl, bound⟩
    exact ⟨i, asked i hi, path, there⟩

/-! ## Both files -/

/-- Concrete classes need the type variables of positions but not those of projections. -/
theorem mem_concreteVarsOf {s : String} (mem : s ∈ terminal.typeParams)
    (free : s ∉ [elementType, keyType, valueType]) : s ∈ concreteVarsOf terminal := by
  refine List.mem_filter.2 ⟨List.mem_append_left _ (List.mem_append_left _ mem), ?_⟩
  simpa using free

theorem bound_several {path name : String} {names : List String} :
    name ∈ (Import.several path names).flatMap Import.bound ↔ name ∈ names := by
  rw [Import.several, List.flatMap_map]
  simp [Import.bound]

/-- The file of contracts: what it imports, and its definitions in an order that suits them. -/
theorem exists_contractsFile (d : f.Derived) (last : f.terminal? = some terminal)
    (params : ∀ m ∈ f.members, m.typeParams ⊆ terminal.typeParams) (runtime name : String) :
    ∃ file, contractsFile f runtime name = .ok file ∧ file.imports = [annotationsImport] ∧
      file.body.map Definition.name = typeVarsOf terminal ++ f.members.map (·.interfaceName) ∧
      Definition.Ordered (emittedImports runtime)
        (file.ownNames ++ file.body.map Definition.name) file.ownNames file.body := by
  obtain ⟨file, emitted, imports, body⟩ : ∃ file, contractsFile f runtime name = .ok file ∧
      file.imports = [annotationsImport] ∧ file.body = contractsBody f runtime terminal :=
    ⟨_, contractsFile_eq_ok d last runtime name, rfl, rfl⟩
  refine ⟨file, emitted, imports, ?_, ?_⟩
  · rw [body, names_contractsBody d]
  · rw [body]
    exact ordered_contractsBody d params

/-- The file of concrete classes, likewise. -/
theorem exists_concretesFile (d : f.Derived) (pos : 1 ≤ f.maxArity) (le : f.maxArity ≤ 999)
    (last : f.terminal? = some terminal)
    (params : ∀ m ∈ f.members, m.typeParams ⊆ terminal.typeParams)
    (free : ∀ s ∈ terminal.typeParams, s ∉ [elementType, keyType, valueType])
    (runtime contracts name : String) :
    ∃ file, concretesFile f runtime contracts name = .ok file ∧
      file.imports = annotationsImport ::
        Import.several ("." ++ contracts) (concreteVarsOf terminal) ++
        Import.several ("." ++ contracts) (f.members.map (·.interfaceName)) ++
        Import.several "typing" ["Callable"] ∧
      Definition.Ordered (emittedImports runtime)
        (file.ownNames ++ file.body.map Definition.name) file.ownNames file.body := by
  obtain ⟨null, members, arity⟩ := Family.members_eq_cons (f := f) (by omega)
  have there : null ∈ f.members := by
    rw [members]
    exact List.mem_cons_self
  obtain ⟨next, -, succ, -⟩ := Family.exists_successor? there (by omega)
  obtain ⟨file, emitted, imports, body⟩ : ∃ file,
      concretesFile f runtime contracts name = .ok file ∧
      file.imports = annotationsImport ::
        Import.several ("." ++ contracts) (concreteVarsOf terminal) ++
        Import.several ("." ++ contracts) (f.members.map (·.interfaceName)) ++
        Import.several "typing" ["Callable"] ∧
      file.body = concretesBody f runtime null next :=
    ⟨_, concretesFile_eq_ok d le last members arity succ runtime contracts name, rfl, rfl⟩
  have sibling : ∀ s ∈ concreteVarsOf terminal ++ f.members.map (·.interfaceName),
      s ∈ file.ownNames := by
    intro s mem
    rw [File.ownNames, imports, List.flatMap_append, List.flatMap_append, List.flatMap_cons]
    refine List.mem_append_left _ ?_
    rcases List.mem_append.1 mem with typeVars | names
    · exact List.mem_append_left _ (List.mem_append_right _ (bound_several.2 typeVars))
    · exact List.mem_append_right _ (bound_several.2 names)
  refine ⟨file, emitted, imports, ?_⟩
  rw [body]
  refine ordered_concretesBody d le members succ (fun m mem => sibling _ ?_)
    (fun m mem s param => sibling s ?_) (List.subset_append_right _ _)
  · exact List.mem_append_right _ (List.mem_map_of_mem mem)
  · have own := params m mem param
    exact List.mem_append_left _ (mem_concreteVarsOf own (free s own))

theorem contracts_well_scoped (d : f.Derived) (last : f.terminal? = some terminal)
    (params : ∀ m ∈ f.members, m.typeParams ⊆ terminal.typeParams) (runtime name : String) :
    ∃ file, contractsFile f runtime name = .ok file ∧
      file.body.map Definition.name = typeVarsOf terminal ++ f.members.map (·.interfaceName) ∧
      ∃ groups, importGroups file.collectImports = .ok groups ∧
        WellScoped file (groups.flatten.flatMap ImportLine.bound) := by
  obtain ⟨file, emitted, imports, names, ordered⟩ := exists_contractsFile d last params runtime name
  obtain ⟨groups, made, scope, -⟩ := exists_block file (by simp [imports])
    (by simp [imports, annotationsImport]) ordered
  exact ⟨file, emitted, names, groups, made, scope⟩

theorem concretes_well_scoped (d : f.Derived) (pos : 1 ≤ f.maxArity) (le : f.maxArity ≤ 999)
    (last : f.terminal? = some terminal)
    (params : ∀ m ∈ f.members, m.typeParams ⊆ terminal.typeParams)
    (free : ∀ s ∈ terminal.typeParams, s ∉ [elementType, keyType, valueType])
    (path : Text.isDottedPath runtime = true) (contracts name : String) :
    ∃ file, concretesFile f runtime contracts name = .ok file ∧
      ∃ groups, importGroups file.collectImports = .ok groups ∧
        WellScoped file (groups.flatten.flatMap ImportLine.bound) ∧
        ∀ l ∈ groups.flatten, l.path = "." ++ contracts →
          l.bound ⊆ concreteVarsOf terminal ++ f.members.map (·.interfaceName) := by
  obtain ⟨file, emitted, imports, ordered⟩ :=
    exists_concretesFile d pos le last params free runtime contracts name
  have named : ∀ i ∈ file.imports, i.name ≠ none := by
    rw [imports]
    simp [Import.several, annotationsImport, or_imp, forall_and]
  obtain ⟨groups, made, scope, taken⟩ := exists_block file (by simp [imports]) named ordered
  refine ⟨file, emitted, groups, made, scope, fun l mem relative s bound => ?_⟩
  obtain ⟨i, hi, same, there⟩ := taken l mem s bound
  have relative : i.path = "." ++ contracts := same.trans relative
  have undotted : ¬Text.isDottedPath i.path = true := by
    rw [relative, Text.isDottedPath_relative]
    exact Bool.false_ne_true
  rcases List.mem_append.1 hi with own | asked
  · rw [imports] at own
    simp only [List.cons_append, List.mem_cons, List.mem_append] at own
    rcases own with rfl | (typeVars | names) | typing
    · exact absurd (by decide) undotted
    · exact List.mem_append_left _ (bound_several.1 (List.mem_flatMap.2 ⟨i, typeVars, there⟩))
    · exact List.mem_append_right _ (bound_several.1 (List.mem_flatMap.2 ⟨i, names, there⟩))
    · obtain ⟨callable, -, rfl⟩ := List.mem_map.1 typing
      exact absurd isDottedPath_typing undotted
  · exact absurd (isDottedPath_of_mem_emittedImports path asked) undotted

/-- Both files of a derived family of 1 to 999 values have import blocks and are well scoped with
them, and the file of concrete classes takes from the other only what is defined there. -/
theorem emitted_files_well_scoped (d : f.Derived) (pos : 1 ≤ f.maxArity) (le : f.maxArity ≤ 999)
    (last : f.terminal? = some terminal)
    (params : ∀ m ∈ f.members, m.typeParams ⊆ terminal.typeParams)
    (free : ∀ s ∈ terminal.typeParams, s ∉ [elementType, keyType, valueType])
    (path : Text.isDottedPath runtime = true) (contractsName concretesName : String) :
    ∃ contracts concretes groups groups',
      contractsFile f runtime contractsName = .ok contracts ∧
      concretesFile f runtime contractsName concretesName = .ok concretes ∧
      importGroups contracts.collectImports = .ok groups ∧
      importGroups concretes.collectImports = .ok groups' ∧
      WellScoped contracts (groups.flatten.flatMap ImportLine.bound) ∧
      WellScoped concretes (groups'.flatten.flatMap ImportLine.bound) ∧
      ∀ l ∈ groups'.flatten, l.path = "." ++ contractsName →
        l.bound ⊆ contracts.body.map Definition.name := by
  obtain ⟨contracts, first, names, groups, made, scope⟩ :=
    contracts_well_scoped d last params runtime contractsName
  obtain ⟨concretes, second, groups', made', scope', taken⟩ :=
    concretes_well_scoped d pos le last params free path contractsName concretesName
  refine ⟨contracts, concretes, groups, groups', first, second, made, made', scope, scope', ?_⟩
  intro l mem sibling name bound
  rw [names]
  rcases List.mem_append.1 (taken l mem sibling bound) with variable_ | interface
  · exact List.mem_append_left _ (List.mem_filter.1 variable_).1
  · exact List.mem_append_right _ interface

theorem built_three_well_scoped :
    ∃ contracts concretes groups groups',
      contractsFile (Family.built 3) "tuplegen.runtime" "interfaces" = .ok contracts ∧
      concretesFile (Family.built 3) "tuplegen.runtime" "interfaces" "implementations" =
        .ok concretes ∧
      importGroups contracts.collectImports = .ok groups ∧
      importGroups concretes.collectImports = .ok groups' ∧
      WellScoped contracts (groups.flatten.flatMap ImportLine.bound) ∧
      WellScoped concretes (groups'.flatten.flatMap ImportLine.bound) ∧
      ∀ l ∈ groups'.flatten, l.path = "." ++ "interfaces" →
        l.bound ⊆ contracts.body.map Definition.name := by
  have three : 3 ≤ Naming.letterBudget := by decide
  have last : (Family.built 3).terminal? = some (Family.builtMember 3 3) := rfl
  have params : ∀ m ∈ (Family.built 3).members,
      m.typeParams ⊆ (Family.builtMember 3 3).typeParams := by
    intro m mem
    obtain ⟨n, le, rfl⟩ := Family.mem_built_iff.1 mem
    exact Family.typeParams_builtMember_subset le
  exact emitted_files_well_scoped (Family.derived_built three) (by decide) (by decide) last params
    (by decide) (by decide) "interfaces" "implementations"

end Polyad.Generated
