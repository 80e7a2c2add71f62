import Polyad.Machine.Program
import Polyad.Proofs.Generated.Names

/-!
# Concrete classes fulfil their contracts

In a derived family of at most 999 values both classes of every member that holds values are
emitted. Each function that the contract only demands is there in the concrete class, under its
name and with its signature, and so is what value identity demands. The extension is there exactly
if the member is not terminal, and no class defines a name twice.
-/

namespace Polyad.Generated

open Code Machine

variable {m : Member} {f : Family} {runtime : String}

/-! ## Emission succeeds -/

theorem exists_withPair (d : f.Derived) (mem : m ∈ f.members) (own : List Function)
    (paired : Member → Function) : ∃ fs, withPair m f own paired = .ok fs := by
  unfold withPair
  split
  · next zip =>
    rw [d.has_zip mem, Bool.and_eq_true, decide_eq_true_eq, decide_eq_true_eq] at zip
    obtain ⟨pair, -, found, -⟩ := Family.exists_get? (a := 2) (by decide) zip.2
    rw [found]
    exact ⟨_, rfl⟩
  · exact ⟨_, rfl⟩

theorem exists_ownExtension (d : f.Derived) (mem : m ∈ f.members) :
    ∃ fs, ownExtension m f = .ok fs := by
  unfold ownExtension
  split
  · next has =>
    rw [d.has_chainExtension mem, decide_eq_true_eq] at has
    obtain ⟨next, -, found, -⟩ := Family.exists_successor? mem has
    rw [found]
    exact ⟨_, rfl⟩
  · exact ⟨_, rfl⟩

theorem exists_contract (runtime : String) (d : f.Derived) (mem : m ∈ f.members) :
    ∃ c, contract m f runtime = .ok c := by
  obtain ⟨fs, hfs⟩ := exists_withPair d mem (basicDemands m) (zipDemand m)
  have proper : properContract m f runtime = .ok (contractOutline m runtime
      (abstractAccessors m ++ extensions m f runtime ++ components m ++ iteration m ++ fs)) :=
    Error.bind_eq_ok_iff.2 ⟨fs, hfs, rfl⟩
  by_cases null : m.isNull = true
  · exact ⟨_, Error.bind_eq_ok_iff.2 ⟨(), d.consistent m mem, by rw [if_pos null]; rfl⟩⟩
  · exact ⟨_, Error.bind_eq_ok_iff.2 ⟨(), d.consistent m mem, by rw [if_neg null, proper]⟩⟩

theorem exists_concreteDocstring (le : f.maxArity ≤ 999) (mem : m ∈ f.members) :
    ∃ doc, concreteDocstring m = .ok doc := by
  obtain ⟨pos, bounded⟩ := Family.arity_bounds mem
  have cardinal : Naming.cardinal m.arity = .ok (Naming.numberWords m.arity.toNat) := by
    rw [Naming.cardinal, if_pos ⟨pos, by omega⟩]
  unfold concreteDocstring
  split
  · exact ⟨_, rfl⟩
  · rw [cardinal]
    exact ⟨_, rfl⟩

theorem exists_concreteClass (d : f.Derived) (le : f.maxArity ≤ 999) (mem : m ∈ f.members) :
    ∃ c, concreteClass m f = .ok c := by
  obtain ⟨doc, hdoc⟩ := exists_concreteDocstring le mem
  obtain ⟨ext, hext⟩ := exists_ownExtension d mem
  obtain ⟨ts, hts⟩ := exists_withPair d mem (basicTransforms m) (zipTransform m)
  refine ⟨concreteOutline m doc (concreteFunctions m ext ts), ?_⟩
  unfold concreteClass
  refine Error.bind_eq_ok_iff.2 ⟨(), d.consistent m mem, ?_⟩
  refine Error.bind_eq_ok_iff.2 ⟨doc, hdoc, ?_⟩
  exact Error.bind_eq_ok_iff.2 ⟨ext, hext, Error.bind_eq_ok_iff.2 ⟨ts, hts, rfl⟩⟩

/-! ## Looking functions up -/

theorem find?_of_nodup {α : Type} {key : α → String} {xs : List α} {x : α}
    (nodup : (xs.map key).Nodup) (mem : x ∈ xs) : xs.find? (key · == key x) = some x := by
  induction xs with
  | nil => cases mem
  | cons y ys ih =>
    rw [List.map_cons, List.nodup_cons] at nodup
    rcases List.mem_cons.1 mem with rfl | mem
    · simp
    · have ne : key y ≠ key x := fun eq => nodup.1 (eq ▸ List.mem_map_of_mem mem)
      rw [List.find?_cons_of_neg (by simpa using ne)]
      exact ih nodup.2 mem

theorem get?_of_nodup {c : ClassDef} (item : ClassItem)
    (nodup : (c.items.map ClassItem.name).Nodup) (mem : item ∈ c.items) :
    c.get? item.name = some item :=
  find?_of_nodup nodup mem

theorem mem_of_get? {c : ClassDef} {name : String} {item : ClassItem}
    (found : c.get? name = some item) : item ∈ c.items ∧ item.name = name := by
  unfold ClassDef.get? at found
  have named := List.find?_some found
  exact ⟨List.mem_of_find?_eq_some found, eq_of_beq named⟩

theorem get?_eq_none_iff {c : ClassDef} {name : String} :
    c.get? name = none ↔ name ∉ c.items.map ClassItem.name := by
  simp [ClassDef.get?]

/-! ## Demands and their fulfilment -/

/-- The same name, parameters and result. -/
structure SameSignature (a b : Function) : Prop where
  name : a.name = b.name
  parameters : a.parameters = b.parameters
  returns : a.returns = b.returns

/-- A class has a function of its own where another one demands it. -/
def Fulfils (c : ClassDef) (demand : Function) : Prop :=
  ∃ own, c.get? demand.name = some (.function own) ∧ isAbstractFunction own = false ∧
    SameSignature own demand

theorem accessor_of_abstractAccessor (valid : m.validate = .ok ()) {demand : Function}
    (mem : demand ∈ abstractAccessors m) :
    ∃ own ∈ accessors m, isAbstractFunction own = false ∧ SameSignature own demand := by
  obtain ⟨params, labels, ordinals, -⟩ := Member.validate_eq_ok_iff.1 valid
  obtain ⟨i, hi, rfl⟩ := List.getElem_of_mem mem
  have hi' : i < (accessors m).length := by
    simp only [abstractAccessors, accessors, List.length_zipWith, List.length_zip] at hi ⊢
    omega
  refine ⟨(accessors m)[i], List.getElem_mem hi', ?_, ?_, ?_, ?_⟩ <;>
    simp [accessors, abstractAccessors, abstractAccessor, getter, isAbstractFunction]

theorem transform_of_demand {ts ds : List Function} (hts : transforms m f = .ok ts)
    (hds : abstractTransforms m f = .ok ds) {demand : Function} (mem : demand ∈ ds) :
    ∃ own ∈ ts, isAbstractFunction own = false ∧ SameSignature own demand := by
  have basic : ∀ d ∈ basicDemands m, ∃ own ∈ basicTransforms m,
      isAbstractFunction own = false ∧ SameSignature own d := by
    intro d hd
    obtain ⟨i, hi, rfl⟩ := List.getElem_of_mem hd
    have hi' : i < (basicTransforms m).length := hi
    refine ⟨(basicTransforms m)[i], List.getElem_mem hi', ?_⟩
    match i, hi with
    | 0, _ => exact ⟨rfl, rfl, rfl, rfl⟩
    | 1, _ => exact ⟨rfl, rfl, rfl, rfl⟩
    | 2, _ => exact ⟨rfl, rfl, rfl, rfl⟩
    | 3, _ => exact ⟨rfl, rfl, rfl, rfl⟩
  obtain ⟨zip, pair, found, rfl⟩ | ⟨zip, rfl⟩ := withPair_eq_ok hts <;>
    obtain ⟨zip', pair', found', rfl⟩ | ⟨zip', rfl⟩ := withPair_eq_ok hds
  · rw [found] at found'
    cases found'
    rcases List.mem_append.1 mem with mem | mem
    · obtain ⟨own, hown, fits⟩ := basic demand mem
      exact ⟨own, List.mem_append_left _ hown, fits⟩
    · cases List.mem_singleton.1 mem
      exact ⟨zipTransform m pair, by simp, rfl, rfl, rfl, rfl⟩
  · rw [zip] at zip'
    cases zip'
  · rw [zip] at zip'
    cases zip'
  · exact basic demand mem

theorem not_isAbstractFunction_of_plain {fn : Function} (h : fn.decorators = []) :
    ¬isAbstractFunction fn = true := by
  simp [isAbstractFunction, h]

theorem decorators_of_mem_conversions {fn : Function} (mem : fn ∈ conversions m) :
    fn.decorators = [] := by
  simp only [conversions, List.mem_append] at mem
  rcases mem with (mem | mem) | mem
  · split at mem
    · rw [List.mem_singleton.1 mem, toListMethod]
      split <;> rfl
    · cases mem
  · split at mem
    · rw [List.mem_singleton.1 mem]
      rfl
    · cases mem
  · cases h : Native.of? m with
    | none => simp [h] at mem
    | some n =>
      simp only [h, Option.map_some, Option.getD_some, nativeMethods, List.mem_cons,
        List.not_mem_nil, or_false] at mem
      rcases mem with rfl | rfl <;> rfl

theorem decorators_of_mem_extensions {fn : Function} (mem : fn ∈ extensions m f runtime) :
    fn.decorators = [] := by
  simp only [extensions, contractExtension, plusOperator, List.mem_cons, List.not_mem_nil,
    or_false] at mem
  rcases mem with rfl | rfl
  · split <;> rfl
  · rfl

theorem decorators_of_mem_iteration {fn : Function} (mem : fn ∈ iteration m) :
    fn.decorators = [] := by
  simp only [iteration, List.mem_cons, List.not_mem_nil, or_false] at mem
  rcases mem with rfl | rfl <;> rfl

/-- What a contract only demands are its accessors and transforms. -/
theorem mem_of_isAbstractFunction {ts : List Function} {fn : Function}
    (mem : fn ∈ contractFunctions m f runtime ts) (abstract : isAbstractFunction fn = true) :
    fn ∈ abstractAccessors m ∨ fn ∈ ts := by
  simp only [contractFunctions, List.mem_append] at mem
  rcases mem with ((((mem | mem) | mem) | mem) | mem) | mem
  · exact .inl mem
  · exact absurd abstract (not_isAbstractFunction_of_plain (decorators_of_mem_extensions mem))
  · refine absurd abstract (not_isAbstractFunction_of_plain ?_)
    obtain ⟨i, hi, rfl⟩ := List.getElem_of_mem mem
    simp [components, component, getter]
  · exact absurd abstract (not_isAbstractFunction_of_plain (decorators_of_mem_iteration mem))
  · exact .inr mem
  · exact absurd abstract (not_isAbstractFunction_of_plain (decorators_of_mem_conversions mem))

theorem mem_items_contractOutline {fs : List Function} {fn : Function} :
    .function fn ∈ (contractOutline m runtime fs).items ↔ fn ∈ fs := by
  simp [contractOutline, emptySlots]

theorem mem_items_concreteOutline {doc : String} {fs : List Function} {fn : Function} :
    .function fn ∈ (concreteOutline m doc fs).items ↔ fn ∈ fs := by
  simp [concreteOutline]

/-- Every demand of the contract of a member is met in its concrete class. -/
theorem fulfils_of_isAbstractFunction (proper : m.arity ≠ 0) {contract concrete : ClassDef}
    (hi : fullContract m f runtime = .ok contract) (hc : concreteClass m f = .ok concrete)
    (apart : ∀ l ∈ m.labels, l ∉ fixedNames m) {demand : Function}
    (mem : .function demand ∈ contract.items) (abstract : isAbstractFunction demand = true) :
    Fulfils concrete demand := by
  have nodup := nodup_names_concreteClass hc apart
  obtain ⟨ds, valid, hds, rfl⟩ := fullContract_eq_ok proper hi
  obtain ⟨doc, ext, ts, -, -, hts, rfl⟩ := concreteClass_eq_ok hc
  have found : ∃ own ∈ concreteFunctions m ext ts, isAbstractFunction own = false ∧
      SameSignature own demand := by
    rcases mem_of_isAbstractFunction (mem_items_contractOutline.1 mem) abstract with mem | mem
    · obtain ⟨own, hown, fits⟩ := accessor_of_abstractAccessor valid mem
      exact ⟨own, by simp [concreteFunctions, hown], fits⟩
    · obtain ⟨own, hown, fits⟩ := transform_of_demand hts hds mem
      exact ⟨own, by simp [concreteFunctions, hown], fits⟩
  obtain ⟨own, hown, concrete, same⟩ := found
  refine ⟨own, ?_, concrete, same⟩
  rw [← same.name]
  exact get?_of_nodup (.function own) nodup (mem_items_concreteOutline.2 hown)

/-- What value identity demands is in every concrete class. -/
theorem exists_identityMethod {concrete : ClassDef} (hc : concreteClass m f = .ok concrete)
    (apart : ∀ l ∈ m.labels, l ∉ fixedNames m) {name : String}
    (mem : name ∈ Support.identityMethods) :
    ∃ own, concrete.get? name = some (.function own) ∧ isAbstractFunction own = false := by
  have nodup := nodup_names_concreteClass hc apart
  obtain ⟨doc, ext, ts, -, -, -, rfl⟩ := concreteClass_eq_ok hc
  have found : ∃ own ∈ valueIdentity m, own.name = name ∧ isAbstractFunction own = false := by
    simp only [Support.identityMethods, List.mem_cons, List.not_mem_nil, or_false] at mem
    rcases mem with rfl | rfl | rfl
    · exact ⟨_, List.mem_cons_self, rfl, rfl⟩
    · exact ⟨_, List.mem_cons_of_mem _ List.mem_cons_self, rfl, rfl⟩
    · exact ⟨_, List.mem_cons_of_mem _ (List.mem_cons_of_mem _ List.mem_cons_self), rfl, rfl⟩
  obtain ⟨own, hown, rfl, concrete⟩ := found
  refine ⟨own, get?_of_nodup (.function own) nodup (mem_items_concreteOutline.2 ?_), concrete⟩
  simp [concreteFunctions, hown]

theorem name_contractExtension (m : Member) (f : Family) (runtime : String) :
    (contractExtension m f runtime).name = "to" := by
  unfold contractExtension
  split <;> rfl

/-- The own extension of a concrete class has the signature of the one in the contract. -/
theorem sameSignature_extension {next : Member} (found : f.successor? m = some next) :
    SameSignature (concreteExtension m next) (contractExtension m f runtime) := by
  rw [contractExtension, found]
  exact ⟨rfl, rfl, rfl⟩

theorem get?_extension_of_contract (proper : m.arity ≠ 0) {c : ClassDef}
    (h : contract m f runtime = .ok c) (apart : ∀ l ∈ m.labels, l ∉ fixedNames m) :
    c.get? "to" = some (.function (contractExtension m f runtime)) := by
  have full : fullContract m f runtime = .ok (withConversions c m) :=
    Error.bind_eq_ok_iff.2 ⟨c, h, rfl⟩
  have nodup := nodup_names_fullContract proper full apart
  have prefixed : c.items.Sublist (withConversions c m).items := List.sublist_append_left ..
  unfold contract at h
  obtain ⟨⟨⟩, -, h⟩ := Error.bind_eq_ok_iff.1 h
  rw [if_neg (by simpa [Member.isNull] using proper)] at h
  obtain ⟨ts, -, h⟩ := Error.bind_eq_ok_iff.1 h
  cases h
  rw [← name_contractExtension m f runtime]
  refine get?_of_nodup (.function _) ((prefixed.map _).nodup nodup) ?_
  exact mem_items_contractOutline.2 (by simp [extensions])

theorem get?_withConversions {c : ClassDef} {name : String} {item : ClassItem}
    (h : c.get? name = some item) : (withConversions c m).get? name = some item := by
  unfold ClassDef.get? at h
  simp [ClassDef.get?, withConversions, ClassDef.addFunctions, List.find?_append, h]

theorem get?_extension_of_successor {concrete : ClassDef} (hc : concreteClass m f = .ok concrete)
    (apart : ∀ l ∈ m.labels, l ∉ fixedNames m) (has : m.has .chainExtension = true) :
    ∃ next, f.successor? m = some next ∧
      concrete.get? "to" = some (.function (concreteExtension m next)) := by
  have nodup := nodup_names_concreteClass hc apart
  obtain ⟨doc, ext, ts, -, hext, -, rfl⟩ := concreteClass_eq_ok hc
  obtain ⟨-, next, found, rfl⟩ | ⟨none, -⟩ := ownExtension_eq_ok hext
  · refine ⟨next, found, get?_of_nodup (.function (concreteExtension m next)) nodup ?_⟩
    exact mem_items_concreteOutline.2 (by simp [concreteFunctions])
  · rw [has] at none
    cases none

theorem get?_extension_eq_none {concrete : ClassDef} (hc : concreteClass m f = .ok concrete)
    (apart : ∀ l ∈ m.labels, l ∉ fixedNames m) (no : m.has .chainExtension = false) :
    concrete.get? "to" = none := by
  obtain ⟨doc, ext, ts, valid, hext, hts, rfl⟩ := concreteClass_eq_ok hc
  obtain ⟨params, -, -, -⟩ := Member.validate_eq_ok_iff.1 valid
  obtain ⟨has, -⟩ | ⟨-, rfl⟩ := ownExtension_eq_ok hext
  · rw [no] at has
    cases has
  · have label : "to" ∉ m.labels := fun mem =>
      apart "to" mem (List.mem_append_left _ (by decide))
    have transform : "to" ∉ ts.map Function.name := fun mem => by
      have := (names_transforms hts).subset mem
      revert this
      decide
    rw [get?_eq_none_iff, names_concreteOutline]
    simp only [concreteFunctions, List.map_append, List.map_cons, List.map_nil,
      names_accessors params, names_valueIdentity, initialiser, List.mem_cons, List.mem_append]
    simp [label, transform]

/-! ## Contracts and concrete classes -/

/-- What the concrete class of a member owes to its contract. -/
structure Honours (m : Member) (contract concrete : ClassDef) : Prop where
  demands : ∀ demand, .function demand ∈ contract.items → isAbstractFunction demand = true →
    Fulfils concrete demand
  identity : ∀ name ∈ Support.identityMethods,
    ∃ own, concrete.get? name = some (.function own) ∧ isAbstractFunction own = false
  /-- Only a member that is not terminal has an extension of its own. -/
  extended : (concrete.get? "to").isSome = !m.isTerminal
  extension : ∀ item, concrete.get? "to" = some item → ∃ own demanded, item = .function own ∧
    contract.get? "to" = some (.function demanded) ∧ SameSignature own demanded
  once : (contract.items.map ClassItem.name).Nodup ∧ (concrete.items.map ClassItem.name).Nodup

theorem honours_withConversions (d : f.Derived) (mem : m ∈ f.members) (proper : m.arity ≠ 0)
    {c concrete : ClassDef} (hi : contract m f runtime = .ok c)
    (hc : concreteClass m f = .ok concrete) (apart : ∀ l ∈ m.labels, l ∉ fixedNames m) :
    Honours m (withConversions c m) concrete := by
  have full : fullContract m f runtime = .ok (withConversions c m) :=
    Error.bind_eq_ok_iff.2 ⟨c, hi, rfl⟩
  refine ⟨fun demand => fulfils_of_isAbstractFunction proper full hc apart,
    fun name => exists_identityMethod hc apart, ?_, fun item found => ?_,
    nodup_names_fullContract proper full apart, nodup_names_concreteClass hc apart⟩
  · rw [← d.has_chainExtension_eq_not mem]
    cases has : m.has .chainExtension with
    | true =>
      obtain ⟨next, -, found⟩ := get?_extension_of_successor hc apart has
      rw [found]
      rfl
    | false =>
      rw [get?_extension_eq_none hc apart has]
      rfl
  · cases has : m.has .chainExtension with
    | true =>
      obtain ⟨next, succ, found'⟩ := get?_extension_of_successor hc apart has
      rw [found'] at found
      cases found
      exact ⟨_, _, rfl, get?_withConversions (get?_extension_of_contract proper hi apart),
        sameSignature_extension succ⟩
    | false =>
      rw [get?_extension_eq_none hc apart has] at found
      cases found

/-- The conversions of a contract demand nothing. -/
theorem Honours.of_withConversions {c concrete : ClassDef} {demanded : ClassItem}
    (h : Honours m (withConversions c m) concrete) (has : c.get? "to" = some demanded) :
    Honours m c concrete where
  demands demand mem := h.demands demand (List.mem_append_left _ mem)
  identity := h.identity
  extended := h.extended
  extension item found := by
    obtain ⟨own, demanded, rfl, found', same⟩ := h.extension item found
    rw [get?_withConversions has] at found'
    exact ⟨own, demanded, rfl, has.trans found', same⟩
  once := by
    have prefixed : c.items.Sublist (withConversions c m).items := List.sublist_append_left ..
    exact ⟨(prefixed.map _).nodup h.once.1, h.once.2⟩

/-- In a derived family of at most 999 values both classes of every member that holds values are
emitted, and the concrete class honours the contract, with and without its conversions. -/
theorem emitted_classes_honour_contracts (d : f.Derived) (le : f.maxArity ≤ 999)
    (apart : ∀ m ∈ f.members, ∀ l ∈ m.labels, l ∉ fixedNames m) (runtime : String)
    (mem : m ∈ f.proper) :
    ∃ c concrete, contract m f runtime = .ok c ∧ concreteClass m f = .ok concrete ∧
      Honours m c concrete ∧ Honours m (withConversions c m) concrete := by
  obtain ⟨mem, proper⟩ := Family.mem_proper_iff.1 mem
  obtain ⟨c, hi⟩ := exists_contract runtime d mem
  obtain ⟨concrete, hc⟩ := exists_concreteClass d le mem
  have full := honours_withConversions d mem proper hi hc (apart m mem)
  have has := get?_extension_of_contract proper hi (apart m mem)
  exact ⟨c, concrete, hi, hc, full.of_withConversions has, full⟩

theorem built_three_honours_contract :
    ∃ c concrete, contract (Family.builtMember 3 2) (Family.built 3) "runtime" = .ok c ∧
      concreteClass (Family.builtMember 3 2) (Family.built 3) = .ok concrete ∧
      Honours (Family.builtMember 3 2) c concrete ∧
      Honours (Family.builtMember 3 2) (withConversions c (Family.builtMember 3 2)) concrete := by
  have three : 3 ≤ Naming.letterBudget := by decide
  have pair : Family.builtMember 3 2 ∈ (Family.built 3).proper :=
    Family.mem_proper_iff.2 ⟨Family.mem_built_iff.2 ⟨2, by decide, rfl⟩, by decide⟩
  exact emitted_classes_honour_contracts (Family.derived_built three) (by decide)
    labels_apart_built "runtime" pair

end Polyad.Generated
