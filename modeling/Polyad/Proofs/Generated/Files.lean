import Polyad.Proofs.Generated.Fulfilment

/-!
# The files of a family

Both files of a derived family of at most 999 values are emitted, and this is what they hold. The
first file has the type variables and a contract for each member; the second one has the null class
with its instance, a concrete class for each member that holds values, the converters and the
factory.
-/

namespace Polyad.Family

/-- The members of a family are the null member and those that hold values. -/
theorem members_eq_cons {f : Family} (pos : 0 ≤ f.maxArity) :
    ∃ null, f.members = null :: f.proper ∧ null.arity = 0 := by
  obtain ⟨m, mem, found, arity⟩ := exists_get? (a := 0) (Int.le_refl 0) pos
  have found : f.members[0]? = some m := by
    rw [← get?_natCast]
    exact found
  cases h : f.members with
  | nil =>
    rw [h] at found
    cases found
  | cons null rest =>
    rw [h] at found
    cases found
    exact ⟨m, by rw [proper, h]; rfl, arity⟩

end Polyad.Family

namespace Polyad.Generated

open Code

variable {f : Family} {m terminal : Member} {runtime : String}

/-- The contract of a member that is emitted. -/
def contractOf (f : Family) (runtime : String) (m : Member) : ClassDef :=
  Error.got (fullContract m f runtime)

/-- The concrete class of a member that is emitted. -/
def classOf (f : Family) (m : Member) : ClassDef := Error.got (concreteClass m f)

theorem fullContract_eq (d : f.Derived) (mem : m ∈ f.members) :
    fullContract m f runtime = .ok (contractOf f runtime m) := by
  obtain ⟨c, hc⟩ := exists_contract runtime d mem
  exact Error.eq_ok_got ⟨_, Error.bind_eq_ok_iff.2 ⟨c, hc, rfl⟩⟩

theorem concreteClass_eq (d : f.Derived) (le : f.maxArity ≤ 999) (mem : m ∈ f.members) :
    concreteClass m f = .ok (classOf f m) :=
  Error.eq_ok_got (exists_concreteClass d le mem)

theorem name_contractOf (d : f.Derived) (mem : m ∈ f.members) (runtime : String) :
    (contractOf f runtime m).name = m.interfaceName := by
  have emitted : fullContract m f runtime = .ok (contractOf f runtime m) := fullContract_eq d mem
  by_cases arity : m.arity = 0
  · rw [contract_of_null arity emitted]
    rfl
  · obtain ⟨ts, -, -, eq⟩ := fullContract_eq_ok arity emitted
    rw [eq]
    rfl

theorem name_classOf (d : f.Derived) (le : f.maxArity ≤ 999) (mem : m ∈ f.members) :
    (classOf f m).name = m.className := by
  obtain ⟨doc, ext, ts, -, -, -, eq⟩ := concreteClass_eq_ok (concreteClass_eq d le mem)
  rw [eq]
  rfl

/-- Every type variable of a family, given its terminal member. -/
def typeVarsOf (terminal : Member) : List String :=
  terminal.typeParams ++ otherParams terminal ++
    [nextType, resultType, elementType, keyType, valueType]

theorem typeVarNames_eq (found : f.terminal? = some terminal) :
    typeVarNames f = .ok (typeVarsOf terminal) := by
  rw [typeVarNames, found]
  rfl

theorem typeVariables_eq (found : f.terminal? = some terminal) :
    typeVariables f = .ok ((typeVarsOf terminal).map (typeVariable terminal.typeParams)) := by
  rw [typeVariables, found, typeVarNames_eq found]
  rfl

/-- The type variables that concrete classes mention. -/
def concreteVarsOf (terminal : Member) : List String :=
  (typeVarsOf terminal).filter (! [elementType, keyType, valueType].contains ·)

theorem concreteTypeVars_eq (found : f.terminal? = some terminal) :
    concreteTypeVars f = .ok (concreteVarsOf terminal) := by
  rw [concreteTypeVars, typeVarNames_eq found]
  rfl

/-- What the file of contracts holds. -/
def contractsBody (f : Family) (runtime : String) (terminal : Member) : List Definition :=
  ((typeVarsOf terminal).map (typeVariable terminal.typeParams)).map .assignment ++
    (f.members.map (contractOf f runtime)).map .classDef

theorem contractsFile_eq_ok (d : f.Derived) (found : f.terminal? = some terminal)
    (runtime name : String) :
    contractsFile f runtime name = .ok {
      name
      imports := [annotationsImport]
      comment := explanation
      body := contractsBody f runtime terminal } := by
  have contracts : f.members.mapM (fun m => fullContract m f runtime) =
      .ok (f.members.map (contractOf f runtime)) :=
    Error.mapM_eq_ok fun m mem => fullContract_eq d mem
  unfold contractsFile
  exact Error.bind_eq_ok_iff.2 ⟨_, typeVariables_eq found,
    Error.bind_eq_ok_iff.2 ⟨_, contracts, rfl⟩⟩

/-- What the file of concrete classes holds. -/
def concretesBody (f : Family) (runtime : String) (null next : Member) : List Definition :=
  .classDef (nullOutline null next) :: .assignment (nullAssignment null) ::
    f.proper.map (fun m => .classDef (classOf f m)) ++
    (nativeConverters f).map .function ++ factory f runtime

theorem concreteDefinitions_null {null next : Member} (arity : null.arity = 0)
    (succ : f.successor? null = some next) :
    concreteDefinitions null f =
      .ok [.classDef (nullOutline null next), .assignment (nullAssignment null)] := by
  rw [concreteDefinitions, if_pos (by simp [Member.isNull, arity]), nullClass, succ]
  rfl

theorem concreteDefinitions_proper (d : f.Derived) (le : f.maxArity ≤ 999) (mem : m ∈ f.proper) :
    concreteDefinitions m f = .ok [.classDef (classOf f m)] := by
  obtain ⟨mem, arity⟩ := Family.mem_proper_iff.1 mem
  rw [concreteDefinitions, if_neg (by simpa [Member.isNull] using arity), concreteClass_eq d le mem]
  rfl

theorem concretesFile_eq_ok (d : f.Derived) (le : f.maxArity ≤ 999)
    (found : f.terminal? = some terminal) {null next : Member}
    (members : f.members = null :: f.proper) (arity : null.arity = 0)
    (succ : f.successor? null = some next) (runtime contracts name : String) :
    concretesFile f runtime contracts name = .ok {
      name
      imports := annotationsImport :: Import.several ("." ++ contracts) (concreteVarsOf terminal) ++
        Import.several ("." ++ contracts) (f.members.map (·.interfaceName)) ++
        Import.several "typing" ["Callable"]
      body := concretesBody f runtime null next } := by
  have proper : f.proper.mapM (fun m => concreteDefinitions m f) =
      .ok (f.proper.map fun m => [.classDef (classOf f m)]) :=
    Error.mapM_eq_ok fun m mem => concreteDefinitions_proper d le mem
  have classes : f.members.mapM (fun m => concreteDefinitions m f) =
      .ok ([.classDef (nullOutline null next), .assignment (nullAssignment null)] ::
        f.proper.map fun m => [.classDef (classOf f m)]) := by
    rw [members, List.mapM_cons, concreteDefinitions_null arity succ, proper]
    rfl
  unfold concretesFile
  refine Error.bind_eq_ok_iff.2 ⟨_, concreteTypeVars_eq found, ?_⟩
  refine Error.bind_eq_ok_iff.2 ⟨_, classes, ?_⟩
  have singles : (f.proper.map fun m => [Definition.classDef (classOf f m)]).flatten =
      f.proper.map fun m => .classDef (classOf f m) := by
    rw [← List.flatMap_def, ← List.map_eq_flatMap]
  rw [List.flatten_cons, singles]
  rfl

/-- Both files of a derived family of 1 to 999 values are emitted. -/
theorem exists_emitted (d : f.Derived) (pos : 1 ≤ f.maxArity) (le : f.maxArity ≤ 999)
    (runtime contracts name : String) :
    (∃ file, contractsFile f runtime contracts = .ok file) ∧
      ∃ file, concretesFile f runtime contracts name = .ok file := by
  obtain ⟨terminal, -, found, -⟩ := Family.exists_terminal? (f := f) (by omega)
  obtain ⟨null, members, arity⟩ := Family.members_eq_cons (f := f) (by omega)
  have there : null ∈ f.members := by
    rw [members]
    exact List.mem_cons_self
  obtain ⟨next, -, succ, -⟩ := Family.exists_successor? there (by omega)
  exact ⟨⟨_, contractsFile_eq_ok d found runtime contracts⟩,
    ⟨_, concretesFile_eq_ok d le found members arity succ runtime contracts name⟩⟩

end Polyad.Generated
