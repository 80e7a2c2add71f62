import Polyad.Proofs.Machine.Lookup

/-!
# The classes of a member in a program

What instances of an emitted class answer to. A label is a property, and the slot behind it is
declared by the concrete class. Initialiser, transforms and value identity are methods of the
concrete class; components, iteration and conversions are those of the contract.
-/

namespace Polyad.Generated

open Code Machine

variable {m : Member} {f : Family}

/-! ## Labels and slots -/

/-- Names that a body needs for something else than a value. -/
def neededNames : List String := ["self", "object", "property", "abstractmethod"]

/-- Labels that hide nothing. That they are words of the target language matters to texts only. -/
structure UsableLabels (m : Member) : Prop where
  start : ∀ l ∈ m.labels, l.toList.head? ≠ some '_'
  needed : ∀ l ∈ m.labels, l ∉ neededNames
  apart : ∀ l ∈ m.labels, l ∉ fixedNames m

theorem toList_slotName (l : String) : (slotName l).toList = '_' :: l.toList :=
  String.toList_append ..

theorem slotName_injective {a b : String} (h : slotName a = slotName b) : a = b :=
  (String.append_right_inj _).1 h

theorem nodup_slots (nodup : m.labels.Nodup) : (slots m).Nodup :=
  List.Pairwise.map _ (fun _ _ ne eq => ne (slotName_injective eq)) nodup

/-- A name that starts with one underscore only, as those of slots do. -/
def IsGuarded (name : String) : Prop :=
  name.toList.head? = some '_' ∧ name.toList[1]? ≠ some '_'

instance (name : String) : Decidable (IsGuarded name) :=
  inferInstanceAs (Decidable (_ ∧ _))

theorem UsableLabels.isGuarded_slotName (usable : UsableLabels m) {l : String}
    (mem : l ∈ m.labels) : IsGuarded (slotName l) := by
  have start := usable.start l mem
  rw [List.head?_eq_getElem?] at start
  rw [IsGuarded, toList_slotName]
  exact ⟨rfl, start⟩

theorem UsableLabels.not_isGuarded (usable : UsableLabels m) {l : String} (mem : l ∈ m.labels) :
    ¬IsGuarded l := fun guarded => usable.start l mem guarded.1

theorem not_isGuarded_of_fixed {name : String} (mem : name ∈ fixedNames m) : ¬IsGuarded name := by
  rcases List.mem_append.1 mem with common | component
  · have plain : ∀ n ∈ commonNames, ¬IsGuarded n := by decide
    exact plain name common
  · obtain ⟨i, -, rfl⟩ := List.mem_map.1 component
    rintro ⟨start, -⟩
    rw [String.toList_append] at start
    cases start

/-- The labels of built members are letters, and so they hide nothing. -/
theorem usableLabels_built (bound n : Nat) : UsableLabels (Family.builtMember bound n) where
  start l mem := by
    obtain ⟨c, hc, rfl⟩ := Family.mem_letters_of_label mem
    have letter : '_' ∉ Naming.letters := by decide
    have ne : c ≠ '_' := fun eq => letter (eq ▸ hc)
    simpa using ne
  needed l mem needed := by
    obtain ⟨c, -, rfl⟩ := Family.mem_letters_of_label mem
    have long : ∀ name ∈ neededNames, name.length ≠ 1 := by decide
    exact long _ needed (by simp)
  apart l mem := label_not_mem_fixedNames mem

/-! ## Slots and demands of emitted classes -/

theorem declaredSlots_functions (fs : List Function) :
    (fs.map ClassItem.function).flatMap declaredSlots = [] := by
  rw [List.flatMap_map]
  exact List.flatMap_eq_nil_iff.2 fun _ _ => rfl

theorem filterMap_literal? (ss : List String) : (ss.map Expr.literal).filterMap literal? = ss := by
  rw [List.filterMap_map]
  exact List.filterMap_some

theorem slotNames_concreteOutline {doc : String} {fs : List Function} :
    slotNames (concreteOutline m doc fs) = slots m := by
  rw [slotNames, concreteOutline, List.flatMap_cons, declaredSlots_functions, List.append_nil]
  exact filterMap_literal? _

theorem isAbstractFunction_of_concrete {ext ts : List Function}
    (hext : ownExtension m f = .ok ext) (hts : transforms m f = .ok ts) {fn : Function}
    (mem : fn ∈ concreteFunctions m ext ts) : isAbstractFunction fn = false := by
  simp only [concreteFunctions, List.mem_append, List.mem_cons] at mem
  rcases mem with (((rfl | mem) | mem) | mem) | mem
  · rfl
  · obtain ⟨i, hi, rfl⟩ := List.getElem_of_mem mem
    simp [accessors, getter, isAbstractFunction]
  · obtain ⟨-, next, -, rfl⟩ | ⟨-, rfl⟩ := ownExtension_eq_ok hext
    · cases List.mem_singleton.1 mem
      rfl
    · cases mem
  · have basic : ∀ g ∈ basicTransforms m, isAbstractFunction g = false := by
      intro g hg
      simp only [basicTransforms, List.mem_cons, List.not_mem_nil, or_false] at hg
      rcases hg with rfl | rfl | rfl | rfl <;> rfl
    obtain ⟨-, pair, -, rfl⟩ | ⟨-, rfl⟩ := withPair_eq_ok hts
    · rcases List.mem_append.1 mem with mem | mem
      · exact basic fn mem
      · cases List.mem_singleton.1 mem
        rfl
    · exact basic fn mem
  · simp only [valueIdentity, List.mem_cons, List.not_mem_nil, or_false] at mem
    rcases mem with rfl | rfl | rfl | rfl <;> rfl

end Polyad.Generated

namespace Polyad.Machine

open Code Generated

/-- The two classes of a member are emitted and stand in a program. -/
structure Program.Emitted (p : Program) (m : Member) (f : Family) (runtime : String)
    (contract concrete : ClassDef) : Prop where
  proper : 1 ≤ m.arity
  usable : UsableLabels m
  emits_contract : fullContract m f runtime = .ok contract
  emits_concrete : concreteClass m f = .ok concrete
  undisturbed : p.Undisturbed
  installed : p.Installed contract concrete

namespace Program.Emitted

variable {p : Program} {m : Member} {f : Family} {runtime : String} {contract concrete : ClassDef}
variable (e : p.Emitted m f runtime contract concrete)

include e

theorem arity_ne_zero : m.arity ≠ 0 := by
  have := e.proper
  omega

theorem valid : m.validate = .ok () := by
  obtain ⟨doc, ext, ts, valid, -⟩ := concreteClass_eq_ok e.emits_concrete
  exact valid

theorem length_labels : (m.labels.length : Int) = m.arity :=
  (Member.validate_eq_ok_iff.1 e.valid).2.1

theorem length_typeParams : m.typeParams.length = m.labels.length :=
  (Member.validate_eq_ok_iff.1 e.valid).1

theorem nodup_labels : m.labels.Nodup := (Member.validate_eq_ok_iff.1 e.valid).2.2.2

theorem name_concrete : concrete.name = m.className := by
  obtain ⟨doc, ext, ts, -, -, -, rfl⟩ := concreteClass_eq_ok e.emits_concrete
  rfl

theorem lineage : p.lineage concrete.name =
    concrete.name :: contract.name :: supportLineage true := by
  refine lineage_eq e.undisturbed e.installed ?_ ?_
  · obtain ⟨doc, ext, ts, -, -, -, rfl⟩ := concreteClass_eq_ok e.emits_concrete
    obtain ⟨cs, -, -, rfl⟩ := fullContract_eq_ok e.arity_ne_zero e.emits_contract
    simp only [concreteOutline, contractType, TypeTerm.generic, List.map_cons, List.map_nil]
    split <;> rfl
  · obtain ⟨cs, -, -, rfl⟩ := fullContract_eq_ok e.arity_ne_zero e.emits_contract
    simp only [contractOutline, TypeTerm.generic, List.map_cons, List.map_nil]
    split <;> rfl

theorem nodup_concrete : (concrete.items.map ClassItem.name).Nodup :=
  nodup_names_concreteClass e.emits_concrete e.usable.apart

theorem nodup_contract : (contract.items.map ClassItem.name).Nodup :=
  nodup_names_fullContract e.arity_ne_zero e.emits_contract e.usable.apart

theorem slotNames_concrete : Machine.slotNames concrete = slots m := by
  obtain ⟨doc, ext, ts, -, -, -, rfl⟩ := concreteClass_eq_ok e.emits_concrete
  exact slotNames_concreteOutline

theorem not_isGuarded_of_mem {name : String} (mem : name ∈ concrete.items.map ClassItem.name) :
    ¬IsGuarded name := by
  rcases mem_names_concreteClass e.emits_concrete mem with label | common
  · exact e.usable.not_isGuarded label
  · have plain : ∀ n ∈ concreteNames, ¬IsGuarded n := by decide
    exact plain name common

theorem not_mem_intrinsicNames {name : String} (mem : name ∈ concrete.items.map ClassItem.name) :
    name ∉ intrinsicNames := by
  rcases mem_names_concreteClass e.emits_concrete mem with label | common
  · intro intrinsic
    have start : ∀ n ∈ intrinsicNames, n.toList.head? = some '_' := by decide
    exact e.usable.start name label (start name intrinsic)
  · have apart : ∀ n ∈ concreteNames, n ∉ intrinsicNames := by decide
    exact apart name common

/-- There can be instances of an emitted class. -/
theorem isConcrete : p.isConcrete m.className = true := by
  rw [← e.name_concrete]
  refine isConcrete_of_met e.undisturbed e.installed e.lineage e.nodup_concrete ?_ ?_ ?_
    fun name mem => e.not_mem_intrinsicNames mem
  · intro fn mem
    obtain ⟨doc, ext, ts, -, hext, hts, rfl⟩ := concreteClass_eq_ok e.emits_concrete
    exact isAbstractFunction_of_concrete hext hts (mem_items_concreteOutline.1 mem)
  · intro demand mem abstract
    obtain ⟨own, found, -, same⟩ := fulfils_of_isAbstractFunction e.arity_ne_zero e.emits_contract
      e.emits_concrete e.usable.apart mem abstract
    exact ⟨own, (mem_of_get? found).1, same.name⟩
  · intro name mem
    obtain ⟨own, found, -⟩ := exists_identityMethod e.emits_concrete e.usable.apart mem
    exact ⟨own, mem_of_get? found⟩

/-! ## Attributes -/

/-- The slot behind an accessor is an attribute. -/
theorem find?_slot {l : String} (mem : l ∈ m.labels) :
    p.find? m.className (slotName l) = some (.slot (slotName l)) := by
  have guarded := e.usable.isGuarded_slotName mem
  have plain : slotName l ∉ intrinsicNames := fun intrinsic => by
    have unguarded : ∀ n ∈ intrinsicNames, ¬IsGuarded n := by decide
    exact unguarded _ intrinsic guarded
  have declared : (Machine.slotNames concrete).contains (slotName l) = true := by
    rw [e.slotNames_concrete, List.contains_iff_mem]
    exact List.mem_map_of_mem mem
  have absent : slotName l ∉ concrete.items.map ClassItem.name := fun mem =>
    e.not_isGuarded_of_mem mem guarded
  rw [← e.name_concrete]
  refine find?_of_concrete e.installed e.lineage plain ?_
  rw [ownAttribute?_of_not_mem absent, if_pos declared]

/-- What the concrete class holds is an attribute. -/
theorem find?_of_mem_concrete {fn : Function} (mem : .function fn ∈ concrete.items) :
    p.find? m.className fn.name = some
      (if fn.decorators.contains "property" then .property (.written fn)
      else .method (.written fn)) := by
  have named : fn.name ∈ concrete.items.map ClassItem.name :=
    List.mem_map_of_mem (f := ClassItem.name) mem
  rw [← e.name_concrete]
  exact find?_of_concrete e.installed e.lineage (e.not_mem_intrinsicNames named)
    (ownAttribute?_of_mem e.nodup_concrete mem)

/-- What only the contract holds is an attribute too. -/
theorem find?_of_mem_contract {fn : Function} (mem : .function fn ∈ contract.items)
    (fixed : fn.name ∈ fixedNames m) (absent : fn.name ∉ concrete.items.map ClassItem.name) :
    p.find? m.className fn.name = some
      (if fn.decorators.contains "property" then .property (.written fn)
      else .method (.written fn)) := by
  have plain : fn.name ∉ intrinsicNames := by
    rcases List.mem_append.1 fixed with common | component
    · have apart : ∀ n ∈ commonNames, n ∉ intrinsicNames := by decide
      exact apart _ common
    · intro intrinsic
      obtain ⟨i, -, eq⟩ := List.mem_map.1 component
      rw [← eq] at intrinsic
      have start : ∀ n ∈ intrinsicNames, n.toList.head? = some '_' := by decide
      have := start _ intrinsic
      rw [String.toList_append] at this
      cases this
  have none : Machine.ownAttribute? concrete fn.name = none := by
    rw [ownAttribute?_of_not_mem absent, e.slotNames_concrete, if_neg]
    rw [List.contains_iff_mem]
    intro slot
    obtain ⟨l, hl, eq⟩ := List.mem_map.1 slot
    exact not_isGuarded_of_fixed fixed (eq ▸ e.usable.isGuarded_slotName hl)
  rw [← e.name_concrete]
  exact find?_of_contract e.installed e.lineage plain none
    (ownAttribute?_of_mem e.nodup_contract mem)

/-- What goes by no name of a member is looked for in the supporting classes. -/
theorem find?_support {name : String} (plain : name ∉ intrinsicNames) (label : name ∉ m.labels)
    (fixed : name ∉ fixedNames m) (unguarded : ¬IsGuarded name) :
    p.find? m.className name = (supportLineage true).findSome? (Support.attribute? · name) := by
  have absent : Machine.ownAttribute? concrete name = none := by
    have other : name ∉ concrete.items.map ClassItem.name := fun mem => by
      rcases mem_names_concreteClass e.emits_concrete mem with own | common
      · exact label own
      · exact fixed (List.mem_append_left _ (concreteNames_sublist.subset common))
    rw [ownAttribute?_of_not_mem other, e.slotNames_concrete, if_neg]
    rw [List.contains_iff_mem]
    intro slot
    obtain ⟨l, hl, rfl⟩ := List.mem_map.1 slot
    exact unguarded (e.usable.isGuarded_slotName hl)
  have unknown : Machine.ownAttribute? contract name = none := by
    have other : name ∉ contract.items.map ClassItem.name := fun mem => by
      rcases mem_names_fullContract e.arity_ne_zero e.emits_contract mem with own | common
      · exact label own
      · exact fixed common
    obtain ⟨cs, -, -, rfl⟩ := fullContract_eq_ok e.arity_ne_zero e.emits_contract
    have slots : Machine.slotNames (contractOutline m runtime (contractFunctions m f runtime cs)) =
        [] := by
      rw [Machine.slotNames, contractOutline, List.flatMap_cons, declaredSlots_functions]
      rfl
    rw [ownAttribute?_of_not_mem other, slots]
    rfl
  rw [← e.name_concrete]
  exact find?_of_support e.undisturbed e.installed e.lineage plain absent unknown

/-- Each label is a property that reads its slot. -/
theorem find?_label {l : String} (mem : l ∈ m.labels) :
    ∃ fn, p.find? m.className l = some (.property (.written fn)) ∧
      fn.parameters = [selfParameter] ∧ fn.body = [.ret (.attr (.name "self") (slotName l))] := by
  obtain ⟨i, hi, rfl⟩ := List.getElem_of_mem mem
  have length := e.length_typeParams
  have hi' : i < (accessors m).length := by
    simp only [accessors, List.length_zipWith]
    omega
  refine ⟨(accessors m)[i], ?_, ?_, ?_⟩
  · have held : .function (accessors m)[i] ∈ concrete.items := by
      obtain ⟨doc, ext, ts, -, -, -, rfl⟩ := concreteClass_eq_ok e.emits_concrete
      simp [mem_items_concreteOutline, concreteFunctions, List.getElem_mem hi']
    have found := e.find?_of_mem_concrete held
    simpa [accessors, getter] using found
  · simp [accessors, getter]
  · simp [accessors, getter]

/-- The initialiser, the transforms and the methods of value identity are found. -/
theorem find?_concrete (fn : Function)
    (mem : fn ∈ initialiser m :: basicTransforms m ++ valueIdentity m) :
    p.find? m.className fn.name = some (.method (.written fn)) := by
  have held : .function fn ∈ concrete.items := by
    obtain ⟨doc, ext, ts, -, -, hts, rfl⟩ := concreteClass_eq_ok e.emits_concrete
    have basic : basicTransforms m ⊆ ts := by
      obtain ⟨-, pair, -, rfl⟩ | ⟨-, rfl⟩ := withPair_eq_ok hts <;> simp
    rw [mem_items_concreteOutline, concreteFunctions]
    simp only [List.mem_append, List.mem_cons] at mem ⊢
    rcases mem with (mem | mem) | mem
    · exact .inl (.inl (.inl (.inl mem)))
    · exact .inl (.inr (basic mem))
    · exact .inr mem
  have plain : fn.decorators = [] := by
    simp only [basicTransforms, valueIdentity, List.mem_append, List.mem_cons, List.not_mem_nil,
      or_false] at mem
    rcases mem with (rfl | rfl | rfl | rfl | rfl) | rfl | rfl | rfl | rfl <;> rfl
  rw [e.find?_of_mem_concrete held, plain]
  rfl

/-- Components, the operator of extension, iteration and conversions are found in the contract. -/
theorem find?_contract (fn : Function)
    (mem : fn ∈ plusOperator (contractExtension m f runtime) ::
      components m ++ iteration m ++ conversions m) :
    p.find? m.className fn.name = some (.method (.written fn)) := by
  have held : .function fn ∈ contract.items := by
    obtain ⟨cs, -, -, rfl⟩ := fullContract_eq_ok e.arity_ne_zero e.emits_contract
    rw [mem_items_contractOutline, contractFunctions]
    simp only [extensions, List.mem_append, List.mem_cons, List.not_mem_nil, or_false] at mem ⊢
    rcases mem with ((mem | mem) | mem) | mem
    · exact .inl (.inl (.inl (.inl (.inr (.inr mem)))))
    · exact .inl (.inl (.inl (.inr mem)))
    · exact .inl (.inl (.inr mem))
    · exact .inr mem
  have fixed : fn.name ∈ fixedNames m ∧ fn.name ∉ concreteNames := by
    simp only [List.mem_append, List.mem_cons] at mem
    rcases mem with ((rfl | mem) | mem) | mem
    · exact ⟨List.mem_append_left _ (by simp only [plusOperator]; decide),
        by simp only [plusOperator]; decide⟩
    · have component : fn.name ∈ componentNames m := by
        rw [← names_components e.valid]
        exact List.mem_map_of_mem mem
      exact ⟨List.mem_append_right _ component, fun common =>
        not_mem_componentNames (concreteNames_sublist.subset common) component⟩
    · have name : fn.name ∈ (iteration m).map Function.name := List.mem_map_of_mem mem
      rw [names_iteration] at name
      have apart : ∀ n ∈ ["__iter__", "__len__"], n ∈ commonNames ∧ n ∉ concreteNames := by decide
      exact ⟨List.mem_append_left _ (apart _ name).1, (apart _ name).2⟩
    · have name : fn.name ∈ (conversions m).map Function.name := List.mem_map_of_mem mem
      have apart : ∀ n ∈ ["to_list", "to_map", "to_pair", "to_triple", "__invert__"],
          n ∈ commonNames ∧ n ∉ concreteNames := by decide
      have known := apart _ (names_conversions_sublist.subset name)
      exact ⟨List.mem_append_left _ known.1, known.2⟩
  have absent : fn.name ∉ concrete.items.map ClassItem.name := fun mem => by
    rcases mem_names_concreteClass e.emits_concrete mem with label | common
    · exact e.usable.apart _ label fixed.1
    · exact fixed.2 common
  have plain : fn.decorators.contains "property" = false := by
    simp only [List.mem_append, List.mem_cons] at mem
    rcases mem with ((rfl | mem) | mem) | mem
    · rfl
    · obtain ⟨i, hi, rfl⟩ := List.getElem_of_mem mem
      simp [components, component, getter]
    · rw [decorators_of_mem_iteration mem]
      rfl
    · rw [decorators_of_mem_conversions mem]
      rfl
  rw [e.find?_of_mem_contract held fixed.1 absent, plain]
  rfl

end Program.Emitted
end Polyad.Machine
