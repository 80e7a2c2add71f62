import Polyad.Generated.Files
import Polyad.Proofs.Family.Built

/-!
# The functions of generated classes

What emission succeeds with: the functions of a contract and of a concrete class as one list each,
and their names. Besides the accessors, which are named by the labels of a member, every name is one
of a fixed list or that of a component. No class defines a name twice, as long as no label is one of
the fixed names.
-/

namespace Polyad.Generated

open Code

variable {m : Member} {f : Family} {runtime : String}

/-! ## Successful emission -/

theorem present_eq_ok_iff {α : Type} {o : Option α} {x : α} : present o = .ok x ↔ o = some x := by
  cases o <;> simp [present]

theorem ownExtension_eq_ok {fs : List Function} (h : ownExtension m f = .ok fs) :
    (m.has .chainExtension = true ∧ ∃ next, f.successor? m = some next ∧
      fs = [concreteExtension m next]) ∨ (m.has .chainExtension = false ∧ fs = []) := by
  unfold ownExtension at h
  split at h
  · next has =>
    obtain ⟨next, found, eq⟩ := Error.bind_eq_ok_iff.1 h
    cases eq
    exact .inl ⟨has, next, present_eq_ok_iff.1 found, rfl⟩
  · next has =>
    cases h
    exact .inr ⟨by simpa using has, rfl⟩

theorem withPair_eq_ok {own fs : List Function} {paired : Member → Function}
    (h : withPair m f own paired = .ok fs) :
    (m.has .zip = true ∧ ∃ pair, f.get? 2 = some pair ∧ fs = own ++ [paired pair]) ∨
    (m.has .zip = false ∧ fs = own) := by
  unfold withPair at h
  split at h
  · next has =>
    obtain ⟨pair, found, eq⟩ := Error.bind_eq_ok_iff.1 h
    cases eq
    exact .inl ⟨has, pair, present_eq_ok_iff.1 found, rfl⟩
  · next has =>
    cases h
    exact .inr ⟨by simpa using has, rfl⟩

/-- The functions of a concrete class, given those it only may have. -/
def concreteFunctions (m : Member) (extension transforms : List Function) : List Function :=
  initialiser m :: accessors m ++ extension ++ transforms ++ valueIdentity m

/-- The functions of a contract with its conversions, given the transforms. -/
def contractFunctions (m : Member) (f : Family) (runtime : String) (transforms : List Function) :
    List Function :=
  abstractAccessors m ++ extensions m f runtime ++ components m ++ iteration m ++ transforms ++
    conversions m

theorem concreteClass_eq_ok {c : ClassDef} (h : concreteClass m f = .ok c) :
    ∃ doc ext ts, m.validate = .ok () ∧ ownExtension m f = .ok ext ∧ transforms m f = .ok ts ∧
      c = concreteOutline m doc (concreteFunctions m ext ts) := by
  unfold concreteClass at h
  obtain ⟨⟨⟩, valid, h⟩ := Error.bind_eq_ok_iff.1 h
  obtain ⟨doc, -, h⟩ := Error.bind_eq_ok_iff.1 h
  obtain ⟨ext, hext, h⟩ := Error.bind_eq_ok_iff.1 h
  obtain ⟨ts, hts, h⟩ := Error.bind_eq_ok_iff.1 h
  cases h
  exact ⟨doc, ext, ts, valid, hext, hts, rfl⟩

theorem fullContract_eq_ok (proper : m.arity ≠ 0) {c : ClassDef}
    (h : fullContract m f runtime = .ok c) :
    ∃ ts, m.validate = .ok () ∧ abstractTransforms m f = .ok ts ∧
      c = contractOutline m runtime (contractFunctions m f runtime ts) := by
  unfold fullContract contract at h
  obtain ⟨c', h', eq⟩ := Error.bind_eq_ok_iff.1 h
  obtain ⟨⟨⟩, valid, h'⟩ := Error.bind_eq_ok_iff.1 h'
  rw [if_neg (by simpa [Member.isNull] using proper)] at h'
  obtain ⟨ts, hts, h'⟩ := Error.bind_eq_ok_iff.1 h'
  cases h'
  cases eq
  refine ⟨ts, valid, hts, ?_⟩
  simp [withConversions, ClassDef.addFunctions, contractOutline, contractFunctions]

theorem contract_of_null (null : m.arity = 0) {c : ClassDef}
    (h : fullContract m f runtime = .ok c) :
    c = withConversions (nullContract m f runtime) m := by
  unfold fullContract contract at h
  obtain ⟨c', h, eq⟩ := Error.bind_eq_ok_iff.1 h
  obtain ⟨⟨⟩, -, h⟩ := Error.bind_eq_ok_iff.1 h
  rw [if_pos (by simp [Member.isNull, null])] at h
  cases h
  cases eq
  rfl

/-- The parameters of an initialiser are the labels. -/
theorem parameterNames_initialiser (params : m.typeParams.length = m.labels.length) :
    (initialiser m).parameters.map Parameter.name = "self" :: m.labels := by
  refine List.cons_eq_cons.2 ⟨rfl, List.ext_getElem ?_ ?_⟩
  · simp [params]
  · simp [typedParameter]

theorem parameters_plusOperator (m : Member) (f : Family) (runtime : String) :
    ∃ type, (plusOperator (contractExtension m f runtime)).parameters =
      [selfParameter, typedParameter "that" type] := by
  show ∃ type, (contractExtension m f runtime).parameters = _
  unfold contractExtension
  split <;> exact ⟨_, rfl⟩

/-! ## Names -/

def componentNames (m : Member) : List String :=
  (List.range m.arity.toNat).map fun i => "component" ++ toString (i + 1)

/-- The names, other than those of components, that classes give to what is no accessor. -/
def commonNames : List String := [
  "__slots__", "__init__", "to", "__add__", "__iter__", "__len__", "fold", "flat_map", "any",
  "none", "zip_with", "to_list", "to_map", "to_pair", "to_triple", "__invert__", "__eq__",
  "__hash__", "__repr__", "__reduce__"]

/-- The common names that concrete classes may use. -/
def concreteNames : List String := [
  "__slots__", "__init__", "to", "fold", "flat_map", "any", "none", "zip_with", "__eq__",
  "__hash__", "__repr__", "__reduce__"]

/-- The names in the classes of a member that its labels do not decide. -/
def fixedNames (m : Member) : List String := commonNames ++ componentNames m

theorem nodup_commonNames : commonNames.Nodup := by decide

theorem concreteNames_sublist : concreteNames.Sublist commonNames := by decide

theorem toString_injective {a b : Nat} (h : toString a = toString b) : a = b := by
  have same := congrArg (fun s => Nat.ofDigitChars 10 s.toList 0) h
  simpa [Nat.toList_repr, Nat.ofDigitChars_toDigits, toString] using same

theorem nodup_componentNames : (componentNames m).Nodup := by
  refine List.Pairwise.map _ (fun i j ne h => ne ?_) List.nodup_range
  have := toString_injective (String.append_right_inj _ |>.1 h)
  omega

/-- The names of components start alike. -/
theorem not_mem_componentNames_of_start {name : String}
    (start : ¬"component".toList <+: name.toList) : name ∉ componentNames m := by
  intro mem
  obtain ⟨i, -, rfl⟩ := List.mem_map.1 mem
  exact start ⟨_, (String.toList_append ..).symm⟩

theorem not_mem_componentNames {name : String} (h : name ∈ commonNames) :
    name ∉ componentNames m := by
  have start : ∀ n ∈ commonNames, ¬"component".toList <+: n.toList := by decide
  exact not_mem_componentNames_of_start (start name h)

theorem names_accessors (params : m.typeParams.length = m.labels.length) :
    (accessors m).map Function.name = m.labels := by
  apply List.ext_getElem <;> simp [accessors, params, getter]

theorem names_abstractAccessors (valid : m.validate = .ok ()) :
    (abstractAccessors m).map Function.name = m.labels := by
  obtain ⟨params, labels, ordinals, -⟩ := Member.validate_eq_ok_iff.1 valid
  apply List.ext_getElem
  · simp [abstractAccessors]
    omega
  · simp [abstractAccessors, abstractAccessor]

theorem names_components (valid : m.validate = .ok ()) :
    (components m).map Function.name = componentNames m := by
  obtain ⟨params, labels, -, -⟩ := Member.validate_eq_ok_iff.1 valid
  apply List.ext_getElem
  · simp [components, componentNames]
    omega
  · intro i _ _
    simp only [components, componentNames, component, getter, List.getElem_map,
      List.getElem_mapIdx, List.getElem_range]
    rfl

/-- Names that stand around others differ if both do and have none in common. -/
theorem nodup_around (before : List String) {names after : List String} (nodup : names.Nodup)
    (fixed : (before ++ after).Nodup) (apart : ∀ n ∈ names, n ∉ before ++ after) :
    (before ++ names ++ after).Nodup := by
  have perm : (before ++ names ++ after).Perm (names ++ (before ++ after)) := by
    rw [← List.append_assoc]
    exact List.perm_append_comm.append_right after
  rw [perm.nodup_iff, List.nodup_append]
  exact ⟨nodup, fixed, fun n hn o ho eq => apart n hn (eq ▸ ho)⟩

theorem names_conversions_sublist :
    ((conversions m).map Function.name).Sublist
      ["to_list", "to_map", "to_pair", "to_triple", "__invert__"] := by
  have list : ((if m.has .listProjection then [toListMethod m] else []).map
      Function.name).Sublist ["to_list"] := by
    split
    · unfold toListMethod
      split <;> exact List.Sublist.refl _
    · simp
  have map : ((if m.has .mapProjection then [toMapMethod m] else []).map
      Function.name).Sublist ["to_map"] := by
    split <;> simp [toMapMethod]
  have native : (((Native.of? m).map (nativeMethods m)).getD [] |>.map Function.name).Sublist
      ["to_pair", "to_triple", "__invert__"] := by
    cases Native.of? m with
    | none => simp
    | some n =>
      cases n with
      | pair => exact show ["to_pair", "__invert__"].Sublist _ by decide
      | triple => exact show ["to_triple", "__invert__"].Sublist _ by decide
  simp only [conversions, List.map_append]
  exact (list.append map).append native

theorem names_ownExtension {fs : List Function} (h : ownExtension m f = .ok fs) :
    (fs.map Function.name).Sublist ["to"] := by
  obtain ⟨-, next, -, rfl⟩ | ⟨-, rfl⟩ := ownExtension_eq_ok h <;> simp [concreteExtension]

theorem names_transforms {fs : List Function} (h : transforms m f = .ok fs) :
    (fs.map Function.name).Sublist ["fold", "flat_map", "any", "none", "zip_with"] := by
  obtain ⟨-, pair, -, rfl⟩ | ⟨-, rfl⟩ := withPair_eq_ok h
  · exact List.Sublist.refl _
  · exact show ["fold", "flat_map", "any", "none"].Sublist _ by decide

theorem names_abstractTransforms {fs : List Function} (h : abstractTransforms m f = .ok fs) :
    (fs.map Function.name).Sublist ["fold", "flat_map", "any", "none", "zip_with"] := by
  obtain ⟨-, pair, -, rfl⟩ | ⟨-, rfl⟩ := withPair_eq_ok h <;>
    simp [basicDemands, zipDemand, abstractTransform]

theorem names_extensions : (extensions m f runtime).map Function.name = ["to", "__add__"] := by
  simp only [extensions, contractExtension, plusOperator, List.map_cons, List.map_nil]
  split <;> rfl

theorem names_iteration : (iteration m).map Function.name = ["__iter__", "__len__"] := rfl

theorem names_valueIdentity :
    (valueIdentity m).map Function.name = ["__eq__", "__hash__", "__repr__", "__reduce__"] := rfl

theorem names_concreteOutline {doc : String} {fs : List Function} :
    (concreteOutline m doc fs).items.map ClassItem.name =
      "__slots__" :: fs.map Function.name := by
  simp only [concreteOutline, List.map_cons, List.map_map]
  rfl

theorem names_contractOutline {fs : List Function} :
    (contractOutline m runtime fs).items.map ClassItem.name =
      "__slots__" :: fs.map Function.name := by
  simp only [contractOutline, List.map_cons, List.map_map]
  rfl

/-- The fixed names of a concrete class, before and after its accessors. -/
theorem names_concreteFunctions {ext ts : List Function} (valid : m.validate = .ok ())
    (hext : ownExtension m f = .ok ext) (hts : transforms m f = .ok ts) :
    ∃ after, (concreteFunctions m ext ts).map Function.name =
        ["__init__"] ++ m.labels ++ after ∧
      (["__slots__", "__init__"] ++ after).Sublist concreteNames := by
  obtain ⟨params, -, -, -⟩ := Member.validate_eq_ok_iff.1 valid
  refine ⟨ext.map Function.name ++ ts.map Function.name ++ (valueIdentity m).map Function.name,
    ?_, ?_⟩
  · simp [concreteFunctions, names_accessors params, initialiser]
  · have := ((names_ownExtension hext).append (names_transforms hts)).append
      (List.Sublist.refl ((valueIdentity m).map Function.name))
    exact ((List.Sublist.refl ["__slots__", "__init__"]).append this).trans
      (by rw [names_valueIdentity]; decide)

/-- The fixed names of a contract, around its accessors and its components. -/
theorem names_contractFunctions {ts : List Function} (valid : m.validate = .ok ())
    (hts : abstractTransforms m f = .ok ts) :
    ∃ after, (contractFunctions m f runtime ts).map Function.name =
        m.labels ++ (["to", "__add__"] ++ componentNames m ++ after) ∧
      (["__slots__", "to", "__add__"] ++ after).Sublist commonNames := by
  refine ⟨(iteration m).map Function.name ++ ts.map Function.name ++
    (conversions m).map Function.name, ?_, ?_⟩
  · simp [contractFunctions, names_abstractAccessors valid, names_extensions,
      names_components valid]
  · have := ((List.Sublist.refl ((iteration m).map Function.name)).append
      (names_abstractTransforms hts)).append (names_conversions_sublist (m := m))
    exact ((List.Sublist.refl ["__slots__", "to", "__add__"]).append this).trans
      (by rw [names_iteration]; decide)

/-- No name is defined twice in a concrete class. -/
theorem nodup_names_concreteClass {c : ClassDef} (h : concreteClass m f = .ok c)
    (apart : ∀ l ∈ m.labels, l ∉ fixedNames m) : (c.items.map ClassItem.name).Nodup := by
  obtain ⟨doc, ext, ts, valid, hext, hts, rfl⟩ := concreteClass_eq_ok h
  obtain ⟨after, names, fixed⟩ := names_concreteFunctions valid hext hts
  obtain ⟨-, -, -, nodup⟩ := Member.validate_eq_ok_iff.1 valid
  rw [names_concreteOutline, names]
  have common := fixed.trans concreteNames_sublist
  exact nodup_around ["__slots__", "__init__"] nodup (common.nodup nodup_commonNames)
    fun l hl mem => apart l hl (List.mem_append_left _ (common.subset mem))

/-- A concrete class uses its labels and some of the common names. -/
theorem mem_names_concreteClass {c : ClassDef} (h : concreteClass m f = .ok c) {name : String}
    (mem : name ∈ c.items.map ClassItem.name) : name ∈ m.labels ∨ name ∈ concreteNames := by
  obtain ⟨doc, ext, ts, valid, hext, hts, rfl⟩ := concreteClass_eq_ok h
  obtain ⟨after, names, fixed⟩ := names_concreteFunctions valid hext hts
  rw [names_concreteOutline, names] at mem
  rcases List.mem_cons.1 mem with rfl | mem
  · exact .inr (by decide)
  · rcases List.mem_append.1 mem with mem | mem
    · rcases List.mem_append.1 mem with mem | mem
      · cases List.mem_singleton.1 mem
        exact .inr (by decide)
      · exact .inl mem
    · exact .inr (fixed.subset (List.mem_append_right _ mem))

/-- No name is defined twice in a contract. -/
theorem nodup_names_fullContract (proper : m.arity ≠ 0) {c : ClassDef}
    (h : fullContract m f runtime = .ok c) (apart : ∀ l ∈ m.labels, l ∉ fixedNames m) :
    (c.items.map ClassItem.name).Nodup := by
  obtain ⟨ts, valid, hts, rfl⟩ := fullContract_eq_ok proper h
  obtain ⟨after, names, fixed⟩ := names_contractFunctions valid hts
  obtain ⟨-, -, -, nodup⟩ := Member.validate_eq_ok_iff.1 valid
  have inner : (["__slots__", "to", "__add__"] ++ componentNames m ++ after).Nodup :=
    nodup_around _ nodup_componentNames (fixed.nodup nodup_commonNames)
      fun n hn mem => not_mem_componentNames (fixed.subset mem) hn
  have around : ∀ n ∈ ["__slots__", "to", "__add__"] ++ componentNames m ++ after,
      n ∈ fixedNames m := by
    intro n hn
    rcases List.mem_append.1 hn with hn | hn
    · rcases List.mem_append.1 hn with hn | hn
      · exact List.mem_append_left _ (fixed.subset (List.mem_append_left _ hn))
      · exact List.mem_append_right _ hn
    · exact List.mem_append_left _ (fixed.subset (List.mem_append_right _ hn))
  rw [names_contractOutline, names]
  exact nodup_around ["__slots__"] nodup inner
    fun l hl mem => apart l hl (around l mem)

/-- A contract uses its labels and some of the fixed names. -/
theorem mem_names_fullContract (proper : m.arity ≠ 0) {c : ClassDef}
    (h : fullContract m f runtime = .ok c) {name : String}
    (mem : name ∈ c.items.map ClassItem.name) : name ∈ m.labels ∨ name ∈ fixedNames m := by
  obtain ⟨ts, valid, hts, rfl⟩ := fullContract_eq_ok proper h
  obtain ⟨after, names, fixed⟩ := names_contractFunctions valid hts
  rw [names_contractOutline, names] at mem
  rcases List.mem_cons.1 mem with rfl | mem
  · exact .inr (List.mem_append_left _ (by decide))
  · rcases List.mem_append.1 mem with label | mem
    · exact .inl label
    · rcases List.mem_append.1 mem with mem | late
      · rcases List.mem_append.1 mem with early | component
        · have early := List.mem_cons_of_mem "__slots__" early
          exact .inr (List.mem_append_left _ (fixed.subset (List.mem_append_left _ early)))
        · exact .inr (List.mem_append_right _ component)
      · exact .inr (List.mem_append_left _ (fixed.subset (List.mem_append_right _ late)))

/-! ## Built families -/

/-- The labels of built members are too short for a fixed name. -/
theorem label_not_mem_fixedNames {bound n : Nat} {label : String}
    (mem : label ∈ (Family.builtMember bound n).labels) : label ∉ fixedNames m := by
  obtain ⟨c, -, rfl⟩ := Family.mem_letters_of_label mem
  intro fixed
  rcases List.mem_append.1 fixed with common | component
  · have long : ∀ name ∈ commonNames, name.length ≠ 1 := by decide
    exact long _ common (by simp)
  · obtain ⟨i, -, eq⟩ := List.mem_map.1 component
    have length := congrArg String.length eq
    simp only [String.length_append, String.length_singleton] at length
    have : "component".length = 9 := by decide
    omega

theorem labels_apart_built {bound : Nat} :
    ∀ m ∈ (Family.built bound).members, ∀ l ∈ m.labels, l ∉ fixedNames m := by
  intro m mem l hl
  obtain ⟨n, -, rfl⟩ := Family.mem_built_iff.1 mem
  exact label_not_mem_fixedNames hl

end Polyad.Generated
