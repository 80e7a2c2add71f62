import Polyad.Proofs.Machine.Reading

/-!
# The null tuple

The class of the null tuple in a program. It has no slots and no initialiser, so making an instance
only puts it on the heap. There is nothing to go through, and extending one hands the new value to
the first class that holds values.
-/

namespace Polyad.Machine

open Code Generated

variable {p : Program} {m next : Member} {f : Family} {runtime : String}
variable {contract concrete : ClassDef} {h : Heap} {id : Nat}

/-- The two classes of the null tuple are emitted and stand in a program. -/
structure Program.EmittedNull (p : Program) (m next : Member) (f : Family) (runtime : String)
    (contract concrete : ClassDef) : Prop where
  null : m.arity = 0
  succ : f.successor? m = some next
  emits_contract : fullContract m f runtime = .ok contract
  concrete_eq : concrete = nullOutline m next
  undisturbed : p.Undisturbed
  installed : p.Installed contract concrete

namespace Program.EmittedNull

variable (e : p.EmittedNull m next f runtime contract concrete)

include e

theorem name_concrete : concrete.name = m.className := by
  rw [e.concrete_eq]
  rfl

theorem lineage : p.lineage concrete.name =
    concrete.name :: contract.name :: supportLineage false := by
  refine lineage_eq e.undisturbed e.installed ?_ ?_
  · rw [e.concrete_eq, contract_of_null e.null e.emits_contract]
    rfl
  · rw [contract_of_null e.null e.emits_contract]
    rfl

theorem names_concrete : concrete.items.map ClassItem.name =
    ["__slots__", "to", "__eq__", "__hash__", "__repr__", "__reduce__"] := by
  rw [e.concrete_eq]
  rfl

theorem nodup_concrete : (concrete.items.map ClassItem.name).Nodup := by
  rw [e.names_concrete]
  decide

theorem items_contract : contract.items = emptySlots ::
    (extensions m f runtime ++ iteration m ++ conversions m).map ClassItem.function := by
  rw [contract_of_null e.null e.emits_contract]
  simp [withConversions, ClassDef.addFunctions, nullContract]

theorem names_contract : contract.items.map ClassItem.name =
    ["__slots__", "to", "__add__", "__iter__", "__len__"] ++
      (conversions m).map Function.name := by
  rw [e.items_contract, List.map_cons, List.map_map]
  show "__slots__" :: (extensions m f runtime ++ iteration m ++ conversions m).map
    Function.name = _
  rw [List.map_append, List.map_append, names_extensions, names_iteration]
  rfl

theorem nodup_contract : (contract.items.map ClassItem.name).Nodup := by
  rw [e.names_contract]
  have sublist := (List.Sublist.refl ["__slots__", "to", "__add__", "__iter__", "__len__"]).append
    (names_conversions_sublist (m := m))
  exact sublist.nodup (by decide)

theorem slotNames_concrete : Machine.slotNames concrete = [] := by
  rw [e.concrete_eq]
  rfl

theorem slotNames_contract : Machine.slotNames contract = [] := by
  rw [Machine.slotNames, e.items_contract, List.flatMap_cons, declaredSlots_functions]
  rfl

theorem find?_of_mem_concrete {fn : Function} (mem : fn ∈ nullMethods m next) :
    p.find? m.className fn.name = some (.method (.written fn)) := by
  have held : .function fn ∈ concrete.items := by
    rw [e.concrete_eq]
    simp [nullOutline, mem]
  have name : fn.name ∈ ["to", "__eq__", "__hash__", "__repr__", "__reduce__"] :=
    List.mem_map_of_mem (f := Function.name) mem
  have plain : ∀ n ∈ ["to", "__eq__", "__hash__", "__repr__", "__reduce__"],
      n ∉ intrinsicNames := by decide
  have undecorated : fn.decorators = [] := by
    simp only [nullMethods, List.mem_cons, List.not_mem_nil, or_false] at mem
    rcases mem with rfl | rfl | rfl | rfl | rfl <;> rfl
  rw [← e.name_concrete]
  refine find?_of_concrete e.installed e.lineage (plain _ name) ?_
  rw [ownAttribute?_of_mem e.nodup_concrete held, undecorated]
  rfl

theorem find?_extension :
    p.find? m.className "to" = some (.method (.written (nullExtension next))) := by
  have mem : nullExtension next ∈ nullMethods m next := List.mem_cons_self
  exact e.find?_of_mem_concrete mem

theorem ownAttribute?_eq_none {name : String}
    (absent : name ∉ ["__slots__", "to", "__eq__", "__hash__", "__repr__", "__reduce__"]) :
    Machine.ownAttribute? concrete name = none := by
  rw [← e.names_concrete] at absent
  rw [ownAttribute?_of_not_mem absent, e.slotNames_concrete]
  rfl

/-- The operator of extension and iteration are those of the contract. -/
theorem find?_contract (fn : Function)
    (mem : fn ∈ plusOperator (contractExtension m f runtime) :: iteration m) :
    p.find? m.className fn.name = some (.method (.written fn)) := by
  have held : .function fn ∈ contract.items := by
    rw [e.items_contract]
    rcases List.mem_cons.1 mem with rfl | mem
    · simp [extensions]
    · simp [mem]
  have name : fn.name ∈ ["__add__", "__iter__", "__len__"] := by
    rcases List.mem_cons.1 mem with rfl | mem
    · exact List.mem_cons_self
    · rw [← names_iteration (m := m)]
      exact List.mem_cons_of_mem _ (List.mem_map_of_mem mem)
  have apart : ∀ n ∈ ["__add__", "__iter__", "__len__"], n ∉ intrinsicNames ∧
      n ∉ ["__slots__", "to", "__eq__", "__hash__", "__repr__", "__reduce__"] := by decide
  have undecorated : fn.decorators = [] := by
    rcases List.mem_cons.1 mem with rfl | mem
    · rfl
    · exact decorators_of_mem_iteration mem
  obtain ⟨plain, absent⟩ := apart _ name
  rw [← e.name_concrete]
  refine find?_of_contract e.installed e.lineage plain (e.ownAttribute?_eq_none absent) ?_
  rw [ownAttribute?_of_mem e.nodup_contract held, undecorated]
  rfl

/-- What goes by no name of the null tuple is looked for in the supporting classes. -/
theorem find?_support {name : String} (plain : name ∉ intrinsicNames)
    (absent : name ∉ ["__slots__", "to", "__eq__", "__hash__", "__repr__", "__reduce__"])
    (unknown : name ∉ ["__slots__", "to", "__add__", "__iter__", "__len__"] ++
      ["to_list", "to_map", "to_pair", "to_triple", "__invert__"]) :
    p.find? m.className name = (supportLineage false).findSome? (Support.attribute? · name) := by
  have none : Machine.ownAttribute? contract name = none := by
    have other : name ∉ contract.items.map ClassItem.name := by
      rw [e.names_contract]
      intro mem
      rcases List.mem_append.1 mem with fixed | conversion
      · exact unknown (List.mem_append_left _ fixed)
      · exact unknown (List.mem_append_right _ (names_conversions_sublist.subset conversion))
    rw [ownAttribute?_of_not_mem other, e.slotNames_contract]
    rfl
  rw [← e.name_concrete]
  exact find?_of_support e.undisturbed e.installed e.lineage plain
    (e.ownAttribute?_eq_none absent) none

/-- There is no initialiser but the one of every class. -/
theorem find?_initialiser :
    p.find? m.className "__init__" = some (.method (.support "object" "__init__")) := by
  rw [e.find?_support (by decide) (by decide) (by decide)]
  rfl

/-- There can be an instance. -/
theorem isConcrete : p.isConcrete m.className = true := by
  rw [← e.name_concrete]
  refine isConcrete_of_met e.undisturbed e.installed e.lineage e.nodup_concrete ?_ ?_ ?_ ?_
  · intro fn mem
    rw [e.concrete_eq] at mem
    have mem : fn ∈ nullMethods m next := by simpa [nullOutline] using mem
    simp only [nullMethods, List.mem_cons, List.not_mem_nil, or_false] at mem
    rcases mem with rfl | rfl | rfl | rfl | rfl <;> rfl
  · intro demand mem abstract
    rw [e.items_contract] at mem
    have mem : demand ∈ extensions m f runtime ++ iteration m ++ conversions m := by
      simpa [emptySlots] using mem
    refine absurd abstract (not_isAbstractFunction_of_plain ?_)
    rcases List.mem_append.1 mem with mem | mem
    · rcases List.mem_append.1 mem with mem | mem
      · exact decorators_of_mem_extensions mem
      · exact decorators_of_mem_iteration mem
    · exact decorators_of_mem_conversions mem
  · intro name mem
    rw [e.concrete_eq]
    simp only [Support.identityMethods, List.mem_cons, List.not_mem_nil, or_false] at mem
    rcases mem with rfl | rfl | rfl
    · exact ⟨equality [.ret (isInstance m.className)], by simp [nullOutline, nullMethods], rfl⟩
    · exact ⟨getter "__hash__" (.name "int") [.ret (.int 0)], by simp [nullOutline, nullMethods],
        rfl⟩
    · exact ⟨getter "__repr__" (.name "str") [.ret (.literal nullInstance)],
        by simp [nullOutline, nullMethods], rfl⟩
  · rw [e.names_concrete]
    decide

/-! ## Asking the null tuple -/

theorem labels_eq_nil : m.labels = [] := by
  obtain ⟨c, emitted, -⟩ := Error.bind_eq_ok_iff.1 e.emits_contract
  obtain ⟨⟨⟩, valid, -⟩ := Error.bind_eq_ok_iff.1 emitted
  have length := (Member.validate_eq_ok_iff.1 valid).2.1
  rw [e.null] at length
  exact List.eq_nil_of_length_eq_zero (by omega)

/-- An instance of the class holds no values. -/
theorem holds (found : h.get? id = some ⟨m.className, []⟩) : Holds h id m [] := by
  refine ⟨_, found, rfl, ?_⟩
  rw [slots, e.labels_eq_nil]
  rfl

theorem length_object (held : Holds h id m []) (n : Nat) :
    (Context.withDepth p (n + 1)).length (.object id) h = (.ok 0, h) := by
  have found := e.find?_contract (lengthMethod m) (by simp [iteration])
  have answer : (Context.withDepth p (n + 1)).send id "__len__" [] h = (.ok (.int 0), h) := by
    refine (Emitted.send_ret held found rfl rfl n).trans ?_
    rw [Context.eval, e.null]
    rfl
  rw [Context.length, Exec.bind_ok answer]
  rfl

theorem iterate_object (held : Holds h id m []) (n : Nat) :
    (Context.withDepth p (n + 1)).iterate (.object id) h = (.ok [], h) := by
  have found := e.find?_contract (iterMethod m) (by simp [iteration])
  have iter : (Context.withDepth p n).program.Means [("self", .object id)] "iter"
      (.builtin .iter) := by
    rw [Context.program_withDepth]
    exact .global rfl (e.undisturbed.names "iter" _ rfl)
  have none : (Context.withDepth p n).eval [("self", .object id)] (.tuple (ofSelf m.labels)) h =
      (.ok (.tuple [] 0), h) := by
    rw [e.labels_eq_nil]
    rfl
  have answer : (Context.withDepth p (n + 1)).send id "__iter__" [] h = (.ok (.iterator []), h) := by
    refine (Emitted.send_ret held found rfl rfl n).trans ?_
    rw [Context.eval_calls_one iter none]
    rfl
  rw [Context.iterate, Exec.bind_ok answer]
  rfl

/-- The extension hands the new value to the next class. -/
theorem callMethod_extension (held : Holds h id m []) {that d : Datum}
    (means : p.Means [("self", .object id), ("that", that)] next.className d) (n : Nat) :
    (Context.withDepth p (n + 1)).callMethod (.object id) "to" [that] h =
      (Context.withDepth p n).call d [that] h := by
  refine (Emitted.callMethod_ret held (nullExtension next) [that] e.find?_extension rfl rfl rfl
    n).trans ?_
  refine Context.eval_calls (by rwa [Context.program_withDepth]) (.one ?_)
  rw [Context.eval_name (.local rfl)]
  rfl

end Program.EmittedNull
end Polyad.Machine
