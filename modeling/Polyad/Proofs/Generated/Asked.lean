import Polyad.Proofs.Generated.Refusal
import Polyad.Proofs.Generated.Scope

/-!
# What emitted files ask for

Both files of any family ask for the future feature, the definitions in them for nothing but what
they take from the standard library and from the module that supports them, and the file of concrete
classes for names of the other file.
-/

namespace Polyad.Generated

open Code

variable {m : Member} {f : Family} {runtime contracts name : String} {file : File}

/-! ## Definitions -/

theorem allImports_contract {c : ClassDef} (emitted : fullContract m f runtime = .ok c) :
    (Definition.classDef c).allImports ⊆ emittedImports runtime := by
  have known : (Definition.classDef c).Scoped (emittedImports runtime) m.typeParams [] :=
    scoped_fullContract emitted fun _ mem => mem
  exact known.asks

/-- Every contract is a marked tuple. -/
theorem marker_mem_contract {c : ClassDef} (emitted : fullContract m f runtime = .ok c) :
    ⟨runtime, some "TupleMarker"⟩ ∈ (Definition.classDef c).allImports := by
  have own : ⟨runtime, some "TupleMarker"⟩ ∈ c.imports := by
    by_cases arity : m.arity = 0
    · rw [contract_of_null arity emitted]
      exact List.mem_cons_self
    · obtain ⟨ts, -, -, rfl⟩ := fullContract_eq_ok arity emitted
      exact List.mem_cons_self
  exact List.mem_append_left _ own

theorem allImports_concrete (mem : m ∈ f.members) {ds : List Definition}
    (emitted : concreteDefinitions m f = .ok ds) {d : Definition} (own : d ∈ ds) :
    d.allImports ⊆ emittedImports runtime := by
  unfold concreteDefinitions at emitted
  split at emitted
  · obtain ⟨next, -, eq⟩ := Error.bind_eq_ok_iff.1 emitted
    cases eq
    rcases List.mem_cons.1 own with rfl | own
    · have known : (Definition.classDef (nullOutline m next)).Scoped (emittedImports runtime)
          [m.interfaceName] [m.className, next.className] :=
        scoped_nullOutline (by simp) (by simp) (by simp)
      exact known.asks
    · rw [List.mem_singleton.1 own]
      exact List.nil_subset _
  · cases run : concreteClass m f with
    | error e =>
      rw [run] at emitted
      cases emitted
    | ok c =>
      rw [run] at emitted
      cases emitted
      have known : (Definition.classDef c).Scoped (emittedImports runtime)
          (m.interfaceName :: m.typeParams) (m.className :: f.proper.map (·.className)) :=
        scoped_concreteClass run mem List.mem_cons_self (fun _ => List.mem_cons_of_mem _)
          List.mem_cons_self fun n proper => List.mem_cons_of_mem _ (List.mem_map_of_mem proper)
      rw [List.mem_singleton.1 own]
      exact known.asks

/-! ## Files -/

/-- What the file of contracts asks for. -/
theorem contractsFile_asks (emitted : contractsFile f runtime name = .ok file) :
    file.imports = [annotationsImport] ∧
      (∀ d ∈ file.body, d.allImports ⊆ emittedImports runtime) ∧
      ⟨runtime, some "TupleMarker"⟩ ∈ file.allImports := by
  obtain ⟨declared, vars, emitted⟩ := Error.bind_eq_ok_iff.1 emitted
  obtain ⟨cs, run, emitted⟩ := Error.bind_eq_ok_iff.1 emitted
  cases emitted
  refine ⟨rfl, fun d mem => ?_, ?_⟩
  · rcases List.mem_append.1 mem with variable_ | contract
    · obtain ⟨terminal, -, vars⟩ := Error.bind_eq_ok_iff.1 vars
      obtain ⟨names, -, vars⟩ := Error.bind_eq_ok_iff.1 vars
      cases vars
      rw [List.map_map] at variable_
      obtain ⟨s, -, rfl⟩ := List.mem_map.1 variable_
      have known : (Definition.assignment (typeVariable terminal.typeParams s)).Scoped
          (emittedImports runtime) [] [] := scoped_typeVariable ..
      exact known.asks
    · obtain ⟨c, there, rfl⟩ := List.mem_map.1 contract
      obtain ⟨m, -, emitted⟩ := (Error.mem_mapM_iff run).1 there
      exact allImports_contract emitted
  · have null : f.null ∈ f.members := List.head_mem _
    obtain ⟨c, emitted⟩ := Error.exists_of_mapM_eq_ok run f.null null
    have there : Definition.classDef c ∈ declared.map .assignment ++ cs.map .classDef :=
      List.mem_append_right _ (List.mem_map_of_mem ((Error.mem_mapM_iff run).2 ⟨_, null, emitted⟩))
    exact List.mem_append_right _ (List.mem_flatMap.2 ⟨_, there, marker_mem_contract emitted⟩)

/-- What the file of concrete classes asks for. -/
theorem concretesFile_asks (emitted : concretesFile f runtime contracts name = .ok file) :
    (∃ vars, concreteTypeVars f = .ok vars ∧ file.imports = annotationsImport ::
        Import.several ("." ++ contracts) vars ++
        Import.several ("." ++ contracts) (f.members.map (·.interfaceName)) ++
        Import.several "typing" ["Callable"]) ∧
      (∀ d ∈ file.body, d.allImports ⊆ emittedImports runtime) ∧
      ⟨runtime, some "TupleMarker"⟩ ∈ file.allImports := by
  obtain ⟨vars, declared, emitted⟩ := Error.bind_eq_ok_iff.1 emitted
  obtain ⟨classes, run, emitted⟩ := Error.bind_eq_ok_iff.1 emitted
  cases emitted
  refine ⟨⟨vars, declared, rfl⟩, fun d mem => ?_, ?_⟩
  · rcases List.mem_append.1 mem with mem | factory
    · rcases List.mem_append.1 mem with concrete | converter
      · obtain ⟨ds, mem, own⟩ := List.mem_flatten.1 concrete
        obtain ⟨m, there, emitted⟩ := (Error.mem_mapM_iff run).1 mem
        exact allImports_concrete there emitted own
      · obtain ⟨fn, there, rfl⟩ := List.mem_map.1 converter
        obtain ⟨m, -, native⟩ := List.mem_filterMap.1 there
        obtain ⟨n, -, rfl⟩ := Option.map_eq_some_iff.1 native
        exact (scoped_converterFunction n (List.mem_singleton_self m.className)).asks
    · rcases List.mem_cons.1 factory with rfl | factory
      · exact List.nil_subset _
      · rw [List.mem_singleton.1 factory]
        have known : (factoryFunction f runtime).Scoped (emittedImports runtime)
            [nullInstance, "_CONSTRUCTORS"] := scoped_factoryFunction (by decide) (by decide)
        exact known.asks
  · refine List.mem_append_right _ (List.mem_flatMap.2 ⟨.function (factoryFunction f runtime), ?_, ?_⟩)
    · exact List.mem_append_right _ (List.mem_cons_of_mem _ List.mem_cons_self)
    · exact List.mem_append_right _ List.mem_cons_self

end Polyad.Generated
