import Polyad.Proofs.Machine.Harmless

/-!
# Emitted code is harmless

The functions of emitted files ask for labels, for the slots behind them and for a few names of
their own. So all of them are harmless but the initialisers, which are there to write slots.
-/

namespace Polyad.Generated

open Code Machine

variable {m next pair : Member} {f : Family} {runtime : String} {fn : Function}

/-! ## Shapes -/

theorem attributes_attrs (owner : String) (fields : List String) :
    Expr.attributesAll (Expr.attrs owner fields) = fields := by
  induction fields with
  | nil => rfl
  | cons field fields ih =>
    rw [Expr.attrs, List.map_cons, ← Expr.attrs, Expr.attributesAll, ih]
    rfl

theorem attributes_names (names : List String) :
    Expr.attributesAll (names.map .name) = [] := by
  rw [Expr.attributesAll_eq, List.flatMap_map]
  exact List.flatMap_eq_nil_iff.2 fun _ _ => rfl

theorem attributesAll_append (es es' : List Expr) :
    Expr.attributesAll (es ++ es') = Expr.attributesAll es ++ Expr.attributesAll es' := by
  rw [Expr.attributesAll_eq, Expr.attributesAll_eq, Expr.attributesAll_eq, List.flatMap_append]

theorem attributes_valuesOf (m : Member) (owner : String) :
    (valuesOf m owner).attributes = slots m := attributes_attrs owner _

theorem attributes_applied (m : Member) (function : String) :
    (applied m function).attributes = slots m := attributes_attrs "self" _

/-- A function without a body asks for nothing. -/
theorem noSetters_demand (body : fn.body = []) : NoSetters fn.attributes := by
  rw [Function.attributes, body]
  exact noSetters_nil

theorem noSetters_ret {e : Expr} (body : fn.body = [.ret e]) (plain : NoSetters e.attributes) :
    NoSetters fn.attributes := by
  rwa [Function.attributes_ret body]

/-- Pairs of values ask for nothing but the values. -/
theorem attributesEntries_pairUp_subset (es : List Expr) :
    Expr.attributesEntries (pairUp es) ⊆ Expr.attributesAll es := by
  match es with
  | [] => exact List.nil_subset _
  | [_] => exact List.nil_subset _
  | a :: b :: rest =>
    intro s mem
    have mem : s ∈ Expr.attributesEntries ((a, b) :: pairUp rest) := mem
    simp only [Expr.attributesEntries, Expr.attributesAll, List.mem_append] at mem ⊢
    rcases mem with (first | second) | later
    · exact .inl first
    · exact .inr (.inl second)
    · exact .inr (.inr (attributesEntries_pairUp_subset rest later))

/-! ## Labels and slots -/

theorem UsableLabels.noSetters_labels (usable : UsableLabels m) : NoSetters m.labels := by
  intro l mem setter
  have start : ∀ name ∈ setterNames, name.toList.head? = some '_' := by decide
  exact usable.start l mem (start l setter)

theorem UsableLabels.noSetters_slots (usable : UsableLabels m) : NoSetters (slots m) := by
  intro s mem setter
  obtain ⟨l, hl, rfl⟩ := List.mem_map.1 mem
  have unguarded : ∀ name ∈ setterNames, ¬IsGuarded name := by decide
  exact unguarded _ setter (usable.isGuarded_slotName hl)

/-! ## Contracts -/

theorem noSetters_abstractAccessors (mem : fn ∈ abstractAccessors m) :
    NoSetters fn.attributes := by
  obtain ⟨i, hi, rfl⟩ := List.getElem_of_mem mem
  rw [show (abstractAccessors m)[i] = abstractAccessor _ _ _ from List.getElem_zipWith]
  exact noSetters_demand rfl

theorem noSetters_abstractTransforms {ts : List Function} (h : abstractTransforms m f = .ok ts)
    (mem : fn ∈ ts) : NoSetters fn.attributes := by
  have basic : ∀ g ∈ basicDemands m, NoSetters g.attributes := by
    intro g hg
    simp only [basicDemands, List.mem_cons, List.not_mem_nil, or_false] at hg
    rcases hg with rfl | rfl | rfl | rfl <;> exact noSetters_demand rfl
  obtain ⟨-, pair, -, rfl⟩ | ⟨-, rfl⟩ := withPair_eq_ok h
  · rcases List.mem_append.1 mem with mem | mem
    · exact basic fn mem
    · cases List.mem_singleton.1 mem
      exact noSetters_demand rfl
  · exact basic fn mem

theorem noSetters_extensions (usable : UsableLabels m) (mem : fn ∈ extensions m f runtime) :
    NoSetters fn.attributes := by
  rcases List.mem_cons.1 mem with rfl | mem
  · unfold contractExtension
    split
    · have asks : (overflowExtension m runtime).attributes = "warn" :: m.labels := by
        simp [Function.attributes, overflowExtension, Stmt.attributes, Expr.attributes,
          Expr.attributesAll, Expr.attributes_calls, attributesAll_append, ofSelf, attributes_attrs]
      rw [asks, noSetters_cons]
      exact ⟨by decide, usable.noSetters_labels⟩
    · exact (by decide : NoSetters ["__name__"])
  · cases List.mem_singleton.1 mem
    exact (by decide : NoSetters ["to"])

theorem noSetters_components (usable : UsableLabels m) (mem : fn ∈ components m) :
    NoSetters fn.attributes := by
  obtain ⟨i, hi, rfl⟩ := List.getElem_of_mem mem
  simp only [components, List.getElem_mapIdx]
  refine noSetters_ret rfl (noSetters_cons.2 ⟨?_, noSetters_nil⟩)
  refine usable.noSetters_labels _ ?_
  rw [List.getElem_zip]
  exact List.getElem_mem _

theorem noSetters_iteration (usable : UsableLabels m) (mem : fn ∈ iteration m) :
    NoSetters fn.attributes := by
  simp only [iteration, List.mem_cons, List.not_mem_nil, or_false] at mem
  rcases mem with rfl | rfl
  · refine noSetters_ret rfl ?_
    rw [Expr.attributes_calls, Expr.attributesAll, Expr.attributes, ofSelf, attributes_attrs]
    simpa [Expr.attributesAll] using usable.noSetters_labels
  · exact noSetters_ret rfl noSetters_nil

theorem noSetters_conversions (usable : UsableLabels m) (mem : fn ∈ conversions m) :
    NoSetters fn.attributes := by
  have values : NoSetters (Expr.attributesAll (ofSelf m.labels)) := by
    rw [ofSelf, attributes_attrs]
    exact usable.noSetters_labels
  simp only [conversions, List.mem_append] at mem
  rcases mem with (list | map) | native
  · split at list
    · cases List.mem_singleton.1 list
      unfold toListMethod
      split
      · exact noSetters_ret rfl noSetters_nil
      · exact noSetters_ret rfl values
    · cases list
  · split at map
    · cases List.mem_singleton.1 map
      exact noSetters_ret rfl fun s mem => values s (attributesEntries_pairUp_subset _ mem)
    · cases map
  · cases kind : Native.of? m with
    | none =>
      rw [kind] at native
      cases native
    | some n =>
      rw [kind] at native
      have native : fn ∈ nativeMethods m n := native
      simp only [nativeMethods, List.mem_cons, List.not_mem_nil, or_false] at native
      rcases native with rfl | rfl
      · exact noSetters_ret rfl values
      · have named : n.projection ∉ setterNames := by cases n <;> decide
        exact noSetters_ret rfl (noSetters_cons.2 ⟨named, noSetters_nil⟩)

/-- All functions of a contract are harmless. -/
theorem noSetters_contractOf (d : f.Derived) (there : m ∈ f.members) (usable : UsableLabels m)
    (mem : .function fn ∈ (contractOf f runtime m).items) : NoSetters fn.attributes := by
  have emitted : fullContract m f runtime = .ok (contractOf f runtime m) := fullContract_eq d there
  by_cases arity : m.arity = 0
  · rw [contract_of_null arity emitted] at mem
    have mem : fn ∈ extensions m f runtime ++ iteration m ++ conversions m := by
      simpa [withConversions, ClassDef.addFunctions, nullContract, emptySlots] using mem
    rcases List.mem_append.1 mem with mem | mem
    · rcases List.mem_append.1 mem with mem | mem
      · exact noSetters_extensions usable mem
      · exact noSetters_iteration usable mem
    · exact noSetters_conversions usable mem
  · obtain ⟨ts, -, hts, eq⟩ := fullContract_eq_ok arity emitted
    rw [eq, mem_items_contractOutline, contractFunctions] at mem
    simp only [List.mem_append] at mem
    rcases mem with ((((mem | mem) | mem) | mem) | mem) | mem
    · exact noSetters_abstractAccessors mem
    · exact noSetters_extensions usable mem
    · exact noSetters_components usable mem
    · exact noSetters_iteration usable mem
    · exact noSetters_abstractTransforms hts mem
    · exact noSetters_conversions usable mem

/-! ## Concrete classes -/

theorem noSetters_transforms (usable : UsableLabels m) {ts : List Function}
    (h : transforms m f = .ok ts) (mem : fn ∈ ts) : NoSetters fn.attributes := by
  have basic : ∀ g ∈ basicTransforms m, NoSetters g.attributes := by
    have slots := usable.noSetters_slots
    intro g hg
    simp only [basicTransforms, List.mem_cons, List.not_mem_nil, or_false] at hg
    rcases hg with rfl | rfl | rfl | rfl
    · exact noSetters_ret rfl (by rwa [attributes_applied])
    · exact noSetters_ret rfl (by rwa [attributes_applied])
    · refine noSetters_ret rfl ?_
      rw [Expr.attributes_calls, Expr.attributesAll, attributes_applied]
      simpa [Expr.attributesAll] using slots
    · exact noSetters_ret rfl (by rwa [Expr.attributes, attributes_applied])
  obtain ⟨-, pair, -, rfl⟩ | ⟨-, rfl⟩ := withPair_eq_ok h
  · rcases List.mem_append.1 mem with mem | mem
    · exact basic fn mem
    · cases List.mem_singleton.1 mem
      exact noSetters_ret rfl noSetters_nil
  · exact basic fn mem

/-- Showing values asks for nothing but the values. -/
theorem attributes_shownRest (es : List Expr) :
    Expr.attributesAll (shownRest es) = Expr.attributesAll es := by
  induction es with
  | nil => rfl
  | cons e es ih =>
    rw [shownRest, List.flatMap_cons, List.append_assoc, ← shownRest, attributesAll_append, ih]
    simp [Expr.attributesAll, Expr.attributes]

theorem attributes_shownParts (fields : List String) :
    Expr.attributesAll (shownParts fields) = fields := by
  cases fields with
  | nil => rfl
  | cons field fields =>
    rw [shownParts_cons, Expr.attributesAll, Expr.attributesAll, attributes_shownRest, ofSelf,
      attributes_attrs]
    rfl

theorem noSetters_valueIdentity (usable : UsableLabels m) (mem : fn ∈ valueIdentity m) :
    NoSetters fn.attributes := by
  have slots := usable.noSetters_slots
  simp only [valueIdentity, List.mem_cons, List.not_mem_nil, or_false] at mem
  rcases mem with rfl | rfl | rfl | rfl
  · have asks : (equalMethod m).attributes = Generated.slots m ++ Generated.slots m := by
      simp [Function.attributes, equalMethod, equality, Stmt.attributes, Expr.attributes,
        Expr.attributesAll, isInstance, Expr.attributes_calls, attributes_valuesOf]
    rw [asks, noSetters_append]
    exact ⟨slots, slots⟩
  · refine noSetters_ret rfl ?_
    rw [Expr.attributes_calls, Expr.attributesAll, attributes_valuesOf]
    simpa [Expr.attributesAll] using slots
  · refine noSetters_ret rfl ?_
    rwa [Expr.attributes, attributes_shownParts]
  · refine noSetters_ret rfl ?_
    simpa [Expr.attributes, Expr.attributesAll, attributes_valuesOf] using slots

/-- The functions of a concrete class are harmless, except for its initialiser. -/
theorem noSetters_classOf (d : f.Derived) (le : f.maxArity ≤ 999) (there : m ∈ f.members)
    (usable : UsableLabels m) (mem : .function fn ∈ (classOf f m).items) :
    fn = initialiser m ∨ NoSetters fn.attributes := by
  have slots := usable.noSetters_slots
  obtain ⟨doc, ext, ts, -, hext, hts, eq⟩ := concreteClass_eq_ok (concreteClass_eq d le there)
  rw [eq, mem_items_concreteOutline, concreteFunctions] at mem
  simp only [List.mem_append, List.mem_cons] at mem
  rcases mem with (((rfl | mem) | mem) | mem) | mem
  · exact .inl rfl
  · right
    obtain ⟨i, hi, rfl⟩ := List.getElem_of_mem mem
    simp only [accessors, List.getElem_zipWith]
    refine noSetters_ret rfl (noSetters_cons.2 ⟨?_, noSetters_nil⟩)
    exact slots _ (List.mem_map_of_mem (List.getElem_mem _))
  · obtain ⟨-, next, -, rfl⟩ | ⟨-, rfl⟩ := ownExtension_eq_ok hext
    · cases List.mem_singleton.1 mem
      refine .inr (noSetters_ret rfl ?_)
      rw [Expr.attributes_calls, attributesAll_append, ofSelf, attributes_attrs]
      simpa [Expr.attributesAll, Expr.attributes] using slots
    · cases mem
  · exact .inr (noSetters_transforms usable hts mem)
  · exact .inr (noSetters_valueIdentity usable mem)

/-- Those of the null class ask for nothing. -/
theorem noSetters_nullOutline (mem : .function fn ∈ (nullOutline m next).items) :
    NoSetters fn.attributes := by
  have mem : fn ∈ nullMethods m next := by simpa [nullOutline] using mem
  simp only [nullMethods, List.mem_cons, List.not_mem_nil, or_false] at mem
  rcases mem with rfl | rfl | rfl | rfl | rfl <;> exact noSetters_ret rfl noSetters_nil

/-! ## Functions of the file of concrete classes -/

theorem noSetters_nativeConverters (mem : fn ∈ nativeConverters f) : NoSetters fn.attributes := by
  obtain ⟨m, -, eq⟩ := List.mem_filterMap.1 mem
  obtain ⟨n, -, rfl⟩ := Option.map_eq_some_iff.1 eq
  have none : (converterFunction m n).attributes = [] := by
    simp [Function.attributes, converterFunction, Stmt.attributes, Expr.attributes,
      Expr.attributes_calls, attributes_names]
  rw [none]
  exact noSetters_nil

theorem noSetters_factoryFunction : NoSetters (factoryFunction f runtime).attributes :=
  noSetters_nil

end Polyad.Generated
