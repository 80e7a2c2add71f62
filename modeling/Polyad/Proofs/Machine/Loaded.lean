import Polyad.Proofs.Generated.Files
import Polyad.Proofs.Machine.Executed
import Polyad.Proofs.Machine.NullTuple

/-!
# Loaded families

The program that the two files of a family make. Every class is found under its name, the null tuple
is the first thing on the heap, and table and factory are bound. All of that rests on names: those
of the classes differ from one another and from everything else that the files bind or need.
-/

namespace Polyad.Machine

open Code Generated

/-- Names that the files of a family bind besides those of their classes. -/
def boundNames : List String :=
  [nullInstance, "_CONSTRUCTORS", "tuple_of", Native.pair.converter, Native.triple.converter]

/-- The parameters of an extension. -/
def extensionNames : List String := ["self", "that"]

/-- Names that no class of a family may have. -/
def takenNames : List String :=
  boundNames ++ Program.givenClasses ++ Program.builtins.map Prod.fst ++ extensionNames

/-- The names of the classes of a family: those of the contracts and of the concrete classes. -/
def classNames (f : Family) : List String :=
  f.members.map (·.interfaceName) ++ f.members.map (·.className)

/-- A family whose files can be loaded. -/
structure Loadable (f : Family) : Prop where
  derived : f.Derived
  pos : 1 ≤ f.maxArity
  le : f.maxArity ≤ 999
  usable : ∀ m ∈ f.members, UsableLabels m
  distinct : (classNames f).Nodup
  free : ∀ n ∈ classNames f, n ∉ takenNames

/-! ## Built families -/

/-- The names of contracts and of concrete classes, for all arities that have a letter. -/
def builtNames : List String :=
  (List.range 26).map (fun (n : Nat) => "Tuple" ++ toString (n : Int)) ++
    (List.range 26).map fun n => if n = 0 then "NullTuple" else Naming.familyNames.getD (n - 1) ""

theorem nodup_builtNames : builtNames.Nodup := by decide +kernel

theorem builtNames_not_taken : ∀ n ∈ builtNames, n ∉ takenNames := by decide +kernel

theorem classNames_built_sublist {bound : Nat} (le : bound ≤ Naming.letterBudget) :
    (classNames (Family.built bound)).Sublist builtNames := by
  have budget := Naming.letterBudget_eq
  have range : (List.range (bound + 1)).Sublist (List.range 26) := by
    exact List.range_sublist.2 (by omega)
  simp only [classNames, Family.built, List.map_map]
  exact (range.map _).append (range.map _)

theorem loadable_built {bound : Nat} (pos : 1 ≤ bound) (le : bound ≤ Naming.letterBudget) :
    Loadable (Family.built bound) where
  derived := Family.derived_built le
  pos := by
    show (1 : Int) ≤ bound
    omega
  le := by
    have := Naming.letterBudget_eq
    show (bound : Int) ≤ 999
    omega
  usable m mem := by
    obtain ⟨n, -, rfl⟩ := Family.mem_built_iff.1 mem
    exact usableLabels_built bound n
  distinct := (classNames_built_sublist le).nodup nodup_builtNames
  free n mem := builtNames_not_taken n ((classNames_built_sublist le).subset mem)

/-! ## Programs -/

namespace Program

/-- The program in which the null tuple is made: that of all contracts and of its class. -/
def beforeNull (package : String) (f : Family) (null next : Member) : Program :=
  ((f.members.map (contractOf f Support.home)).foldl
    (addClass (package ++ "." ++ "tuples")) {}).addClass
      (package ++ "." ++ "tuples_impl") (nullOutline null next)

/-- The table of the classes that hold values. -/
def table (f : Family) : List Datum := f.proper.map fun m => .type m.className

/-- The program before the table is made. -/
def beforeTable (package : String) (f : Family) (null next : Member) : Program :=
  ((f.proper.map (classOf f)).foldl (addClass (package ++ "." ++ "tuples_impl"))
    ((beforeNull package f null next).bind nullInstance (.object 0))).bindFunctions
      (nativeConverters f)

/-- The program of a family. -/
def afterLoading (package : String) (f : Family) (null next : Member) : Program :=
  ((beforeTable package f null next).bind "_CONSTRUCTORS" (.tuple (table f) 1)).bind "tuple_of"
    (.routine (.written (factoryFunction f Support.home)))

end Program

/-- The context in which calls to a family stand inside each other to a depth. -/
abbrev Context.loaded (package : String) (f : Family) (null next : Member) (n : Nat) : Context :=
  withDepth (Program.afterLoading package f null next) n

variable {f : Family} {null next : Member} {package : String}

/-- The classes of a loaded family, in the order in which they are made. -/
def loadedClasses (f : Family) (null next : Member) : List ClassDef :=
  f.members.map (contractOf f Support.home) ++ nullOutline null next :: f.proper.map (classOf f)

theorem class?_beforeNull (name : String) :
    (Program.beforeNull package f null next).class? name =
      (f.members.map (contractOf f Support.home) ++ [nullOutline null next]).find?
        (·.name == name) := by
  rw [Program.beforeNull, Program.class?_addClass, Program.class?_foldl_addClass,
    List.find?_append]
  by_cases eq : (nullOutline null next).name = name
  · rw [if_pos eq, List.find?_cons_of_pos (by simpa using eq)]
    rfl
  · rw [if_neg eq, List.find?_cons_of_neg (by simpa using eq)]
    rfl

theorem class?_afterLoading (name : String) :
    (Program.afterLoading package f null next).class? name =
      (loadedClasses f null next).find? (·.name == name) := by
  rw [Program.afterLoading, Program.class?_bind, Program.class?_bind, Program.beforeTable,
    Program.class?_bindFunctions, Program.class?_foldl_addClass, Program.class?_bind,
    class?_beforeNull, ← List.find?_append, List.append_assoc]
  rfl

theorem converter_of_mem {name : String} (mem : name ∈ (nativeConverters f).map Function.name) :
    name = Native.pair.converter ∨ name = Native.triple.converter := by
  obtain ⟨fn, hfn, rfl⟩ := List.mem_map.1 mem
  obtain ⟨m, -, eq⟩ := List.mem_filterMap.1 hfn
  obtain ⟨n, -, rfl⟩ := Option.map_eq_some_iff.1 eq
  cases n
  · exact .inl rfl
  · exact .inr rfl

/-- The names that no definition of a family but those of its classes binds stand for what they
stood for before. -/
theorem lookup_afterLoading {name : String} (free : name ∉ boundNames) :
    (Program.afterLoading package f null next).lookup name =
      if name ∈ (loadedClasses f null next).map ClassDef.name then some (.type name)
      else Program.builtins.lookup name := by
  have others : name ∉ (nativeConverters f).map Function.name := by
    intro mem
    rcases converter_of_mem mem with rfl | rfl <;> exact free (by decide)
  have ne (n : String) (mem : n ∈ boundNames) : name ≠ n := fun eq => free (eq ▸ mem)
  rw [Program.afterLoading, Program.lookup_bind_of_ne (ne _ (by decide)),
    Program.lookup_bind_of_ne (ne _ (by decide)), Program.beforeTable,
    Program.lookup_bindFunctions others, Program.lookup_foldl_addClass,
    Program.lookup_bind_of_ne (ne _ (by decide)), Program.beforeNull, Program.lookup_addClass,
    Program.lookup_foldl_addClass, loadedClasses, List.map_append, List.map_cons]
  by_cases proper : name ∈ (f.proper.map (classOf f)).map ClassDef.name
  · rw [if_pos proper, if_pos (List.mem_append_right _ (List.mem_cons_of_mem _ proper))]
  · by_cases own : name = (nullOutline null next).name
    · rw [if_neg proper, if_pos own, if_pos (List.mem_append_right _ (own ▸ List.mem_cons_self)),
        own]
    · by_cases contract : name ∈ (f.members.map (contractOf f Support.home)).map ClassDef.name
      · rw [if_neg proper, if_neg own, if_pos contract, if_pos (List.mem_append_left _ contract)]
      · rw [if_neg proper, if_neg own, if_neg contract, if_neg]
        · rfl
        · simp only [List.mem_append, List.mem_cons]
          rintro (mem | eq | mem)
          · exact contract mem
          · exact own eq
          · exact proper mem

theorem lookup_constructors : (Program.afterLoading package f null next).lookup "_CONSTRUCTORS" =
    some (.tuple (Program.table f) 1) := by
  rw [Program.afterLoading, Program.lookup_bind_of_ne (by decide), Program.lookup_bind_self]

theorem lookup_factory : (Program.afterLoading package f null next).lookup "tuple_of" =
    some (.routine (.written (factoryFunction f Support.home))) :=
  Program.lookup_bind_self ..

theorem null_mem (members : f.members = null :: f.proper) : null ∈ f.members := by
  rw [members]
  exact List.mem_cons_self

namespace Loadable

/-- There is a null member, and one after it. -/
theorem exists_null (l : Loadable f) :
    ∃ null next, f.members = null :: f.proper ∧ null.arity = 0 ∧ f.successor? null = some next := by
  have pos := l.pos
  obtain ⟨null, members, arity⟩ := Family.members_eq_cons (f := f) (by omega)
  obtain ⟨next, -, succ, -⟩ := Family.exists_successor? (null_mem members) (by omega)
  exact ⟨null, next, members, arity, succ⟩

variable (l : Loadable f) (members : f.members = null :: f.proper)

include l members

theorem names_loadedClasses (next : Member) :
    (loadedClasses f null next).map ClassDef.name = classNames f := by
  have contracts : (f.members.map (contractOf f Support.home)).map ClassDef.name =
      f.members.map (·.interfaceName) := by
    rw [List.map_map]
    exact List.map_congr_left fun m mem => name_contractOf l.derived mem _
  have classes : (f.proper.map (classOf f)).map ClassDef.name = f.proper.map (·.className) := by
    rw [List.map_map]
    refine List.map_congr_left fun m mem => name_classOf l.derived l.le ?_
    rw [members]
    exact List.mem_cons_of_mem _ mem
  rw [loadedClasses, List.map_append, List.map_cons, contracts, classes, classNames]
  congr 1
  rw [members, List.map_cons]
  rfl

theorem nodup_loadedClasses : ((loadedClasses f null next).map ClassDef.name).Nodup := by
  rw [l.names_loadedClasses members next]
  exact l.distinct

/-- A program of some classes of a family, which hides nothing that the files need. -/
theorem undisturbed_of {p : Program} {cs : List ClassDef} (subset : cs ⊆ loadedClasses f null next)
    (finds : ∀ name, p.class? name = cs.find? (·.name == name))
    (binds : ∀ name, name ∉ boundNames → name ∉ classNames f →
      p.lookup name = Program.builtins.lookup name) : p.Undisturbed where
  classes name given := by
    rw [finds, List.find?_eq_none]
    intro c mem eq
    have named : name ∈ classNames f := by
      rw [← l.names_loadedClasses members next, ← eq_of_beq eq]
      exact List.mem_map_of_mem (subset mem)
    exact l.free name named (by simp [takenNames, given])
  names name v bound := by
    have known : name ∈ Program.builtins.map Prod.fst := by
      refine Decidable.byContradiction fun absent => ?_
      rw [lookup_eq_none_of_not_mem absent] at bound
      cases bound
    have apart : ∀ n ∈ Program.builtins.map Prod.fst, n ∉ boundNames := by decide
    have unnamed : name ∉ classNames f := fun mem =>
      l.free name mem (List.mem_append_left _ (List.mem_append_right _ known))
    rw [binds name (apart name known) unnamed, bound]

theorem installed_of {p : Program} {cs : List ClassDef}
    (sublist : cs.Sublist (loadedClasses f null next))
    (finds : ∀ name, p.class? name = cs.find? (·.name == name)) {contract concrete : ClassDef}
    (first : contract ∈ cs) (second : concrete ∈ cs) : p.Installed contract concrete := by
  have nodup := (sublist.map ClassDef.name).nodup (l.nodup_loadedClasses members)
  constructor
  · rw [finds]
    exact find?_of_nodup nodup first
  · rw [finds]
    exact find?_of_nodup nodup second

theorem undisturbed_afterLoading (package : String) (next : Member) :
    (Program.afterLoading package f null next).Undisturbed := by
  refine l.undisturbed_of members (List.Subset.refl _) class?_afterLoading ?_
  intro name free unnamed
  rw [← l.names_loadedClasses members next] at unnamed
  rw [lookup_afterLoading free, if_neg unnamed]

/-- The classes of a member that holds values stand in the program. -/
theorem emitted_afterLoading (package : String) (next : Member) {m : Member} (mem : m ∈ f.proper) :
    (Program.afterLoading package f null next).Emitted m f Support.home
      (contractOf f Support.home m) (classOf f m) := by
  obtain ⟨own, arity⟩ := Family.mem_proper_iff.1 mem
  have bounds := Family.arity_bounds own
  refine ⟨by omega, l.usable m own, fullContract_eq l.derived own,
    concreteClass_eq l.derived l.le own, l.undisturbed_afterLoading members package next,
    l.installed_of members (List.Sublist.refl _) class?_afterLoading ?_ ?_⟩
  · exact List.mem_append_left _ (List.mem_map_of_mem own)
  · exact List.mem_append_right _ (List.mem_cons_of_mem _ (List.mem_map_of_mem mem))

/-- The classes of the null member stand in the program. -/
theorem emittedNull_afterLoading (package : String) (arity : null.arity = 0)
    (succ : f.successor? null = some next) :
    (Program.afterLoading package f null next).EmittedNull null next f Support.home
      (contractOf f Support.home null) (nullOutline null next) := by
  refine ⟨arity, succ, fullContract_eq l.derived (null_mem members), rfl,
    l.undisturbed_afterLoading members package next,
    l.installed_of members (List.Sublist.refl _) class?_afterLoading ?_ ?_⟩
  · exact List.mem_append_left _ (List.mem_map_of_mem (null_mem members))
  · exact List.mem_append_right _ List.mem_cons_self

/-- The classes of the null member stand there already when the null tuple is made. -/
theorem emittedNull_beforeNull (package : String) (arity : null.arity = 0)
    (succ : f.successor? null = some next) :
    (Program.beforeNull package f null next).EmittedNull null next f Support.home
      (contractOf f Support.home null) (nullOutline null next) := by
  have sublist : (f.members.map (contractOf f Support.home) ++ [nullOutline null next]).Sublist
      (loadedClasses f null next) :=
    (List.Sublist.refl _).append (List.singleton_sublist.2 List.mem_cons_self)
  refine ⟨arity, succ, fullContract_eq l.derived (null_mem members), rfl,
    l.undisturbed_of members sublist.subset class?_beforeNull ?_,
    l.installed_of members sublist class?_beforeNull ?_ ?_⟩
  · intro name free unnamed
    rw [← l.names_loadedClasses members next, loadedClasses, List.map_append,
      List.map_cons, List.mem_append, List.mem_cons, not_or, not_or] at unnamed
    rw [Program.beforeNull, Program.lookup_addClass, if_neg unnamed.2.1,
      Program.lookup_foldl_addClass, if_neg unnamed.1]
    rfl
  · exact List.mem_append_left _ (List.mem_map_of_mem (null_mem members))
  · exact List.mem_append_right _ List.mem_cons_self

/-- The name of a class stands for it. -/
theorem lookup_className (package : String) (next : Member) {m : Member} (mem : m ∈ f.members) :
    (Program.afterLoading package f null next).lookup m.className = some (.type m.className) := by
  have named : m.className ∈ classNames f :=
    List.mem_append_right _ (List.mem_map_of_mem (f := Member.className) mem)
  have free : m.className ∉ boundNames := fun bound =>
    l.free _ named (by simp [takenNames, bound])
  rw [lookup_afterLoading free, l.names_loadedClasses members next, if_pos named]

/-- The name of a class stands for it in an extension, too. -/
theorem means_className (package : String) (next : Member) {m : Member} (mem : m ∈ f.members)
    (self that : Datum) :
    (Program.afterLoading package f null next).Means [("self", self), ("that", that)] m.className
      (.type m.className) := by
  have free : m.className ∉ extensionNames := fun parameter =>
    l.free _ (List.mem_append_right _ (List.mem_map_of_mem (f := Member.className) mem))
      (List.mem_append_right _ parameter)
  exact .global (lookup_eq_none_of_not_mem free) (l.lookup_className members package next mem)

/-- The name of the null tuple stands for the first thing on the heap. -/
theorem lookup_nullInstance (package : String) (next : Member) :
    (Program.afterLoading package f null next).lookup nullInstance = some (.object 0) := by
  have unnamed : nullInstance ∉ classNames f := fun mem => l.free _ mem (by decide)
  have others : nullInstance ∉ (nativeConverters f).map Function.name := by
    intro mem
    rcases converter_of_mem mem with eq | eq <;> revert eq <;> decide
  have proper : nullInstance ∉ (f.proper.map (classOf f)).map ClassDef.name := by
    rw [← l.names_loadedClasses members next, loadedClasses, List.map_append, List.mem_append,
      List.map_cons, List.mem_cons, not_or, not_or] at unnamed
    exact unnamed.2.2
  rw [Program.afterLoading, Program.lookup_bind_of_ne (by decide),
    Program.lookup_bind_of_ne (by decide), Program.beforeTable, Program.lookup_bindFunctions others,
    Program.lookup_foldl_addClass, if_neg proper, Program.lookup_bind_self]

/-! ## Loading -/

/-- Making the null tuple puts it on the empty heap. -/
theorem eval_nullAssignment (arity : null.arity = 0) (succ : f.successor? null = some next) :
    (Context.withDepth (Program.beforeNull package f null next) Program.loadDepth).eval []
        (nullAssignment null).value {} =
      (.ok (.object 0), ({} : Heap).push ⟨null.className, []⟩) := by
  have e := l.emittedNull_beforeNull members package arity succ
  have named : (Program.beforeNull package f null next).Means [] null.className
      (.type null.className) := by
    refine .global rfl ?_
    rw [Program.beforeNull, Program.lookup_addClass]
    exact if_pos rfl
  have bare : (Context.withDepth (Program.beforeNull package f null next)
      Program.loadDepth).program.find? null.className "__init__" =
        some (.method (.support "object" "__init__")) := by
    rw [Context.program_withDepth, e.find?_initialiser]
  refine (Context.eval_calls (by rwa [Context.program_withDepth]) .nil).trans ?_
  exact Context.construct_bare (by rw [Context.program_withDepth, e.isConcrete]) bare

theorem proper_ne_nil : f.proper ≠ [] := by
  intro nil
  have length := Family.length_members f
  have := l.pos
  rw [members, nil] at length
  simp only [List.length_cons, List.length_nil] at length
  omega

/-- The table of constructors is that of the classes that hold values. -/
theorem eval_constructorTable (h : Heap) :
    (Context.withDepth (Program.beforeTable package f null next) Program.loadDepth).eval []
        (constructorTable f).value h =
      (.ok (.tuple (Program.table f) h.labels), h.labelled) := by
  have each : ∀ ms : List Member, ms ⊆ f.proper →
      (Context.withDepth (Program.beforeTable package f null next) Program.loadDepth).Evaluates [] h
        (ms.map fun m => .name m.className) (ms.map fun m => .type m.className) := by
    intro ms subset
    induction ms with
    | nil => exact .nil
    | cons m ms ih =>
      obtain ⟨mem, rest⟩ := List.cons_subset.1 subset
      have own : m ∈ f.members := (Family.mem_proper_iff.1 mem).1
      have free : m.className ∉ boundNames := fun bound =>
        l.free _ (List.mem_append_right _ (List.mem_map_of_mem (f := Member.className) own))
          (by simp [takenNames, bound])
      have ne (n : String) (bound : n ∈ boundNames) : m.className ≠ n := fun eq => free (eq ▸ bound)
      have named := l.lookup_className members package next own
      rw [Program.afterLoading, Program.lookup_bind_of_ne (ne _ (by decide)),
        Program.lookup_bind_of_ne (ne _ (by decide))] at named
      refine .cons ?_ (ih rest)
      rw [Context.eval_name (by rw [Context.program_withDepth]; exact .global rfl named)]
      rfl
  refine Context.eval_tuple (each f.proper (List.Subset.refl _)) ?_
  simpa [Program.table] using l.proper_ne_nil members

theorem executeAll_concretesBody (package : String) (arity : null.arity = 0)
    (succ : f.successor? null = some next) :
    Program.executeAll (package ++ "." ++ "tuples_impl")
        ((f.members.map (contractOf f Support.home)).foldl
          (Program.addClass (package ++ "." ++ "tuples")) {})
        (concretesBody f Support.home null next) {} =
      (.ok (Program.afterLoading package f null next),
        (({} : Heap).push ⟨null.className, []⟩).labelled) := by
  have classes : f.proper.map (fun m => Definition.classDef (classOf f m)) =
      (f.proper.map (classOf f)).map .classDef := by
    rw [List.map_map]
    rfl
  rw [concretesBody, classes, List.cons_append, List.cons_append, List.cons_append,
    List.cons_append, Program.executeAll, Program.execute, pure_bind]
  refine (Program.executeAll_assignment (l.eval_nullAssignment members arity succ) _).trans ?_
  rw [Program.executeAll_append, Program.executeAll_append, Program.executeAll_classes, pure_bind,
    Program.executeAll_functions, pure_bind, factory]
  refine (Program.executeAll_assignment (l.eval_constructorTable members _) _).trans ?_
  rw [Program.executeAll, Program.execute, pure_bind, Program.executeAll]
  rfl

/-- Loading a family ends with all its definitions in place and the null tuple on the heap. -/
theorem ofFamily_eq (arity : null.arity = 0) (succ : f.successor? null = some next) :
    Program.ofFamily package f = .ok (.ok (Program.afterLoading package f null next),
      (({} : Heap).push ⟨null.className, []⟩).labelled) := by
  obtain ⟨terminal, -, found, -⟩ := Family.exists_terminal? (f := f) (by have := l.pos; omega)
  have contracts := contractsFile_eq_ok l.derived found Support.home "tuples"
  have concretes := concretesFile_eq_ok l.derived l.le found members arity succ Support.home
    "tuples" "tuples_impl"
  have files : Program.files f = .ok (_, _) :=
    Error.bind_eq_ok_iff.2 ⟨_, contracts, Error.bind_eq_ok_iff.2 ⟨_, concretes, rfl⟩⟩
  have classes : (contractsBody f Support.home terminal).filterMap Definition.asClass? =
      f.members.map (contractOf f Support.home) := by
    have declared : ∀ as : List Assignment,
        (as.map Definition.assignment).filterMap Definition.asClass? = [] := by
      intro as
      simp [List.filterMap_map, Definition.asClass?]
    have contracts : ∀ cs : List ClassDef,
        (cs.map Definition.classDef).filterMap Definition.asClass? = cs := by
      intro cs
      rw [List.filterMap_map]
      exact List.filterMap_some
    rw [contractsBody, List.filterMap_append, declared, contracts, List.nil_append]
  unfold Program.ofFamily
  refine Error.bind_eq_ok_iff.2 ⟨_, files, congrArg Except.ok ?_⟩
  refine Eq.trans ?_ (l.executeAll_concretesBody members package arity succ)
  rw [← classes]
  rfl

end Loadable

end Polyad.Machine
