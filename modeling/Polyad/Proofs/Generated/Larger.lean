import Polyad.Generated.Files
import Polyad.Proofs.Family.Built

/-!
# Larger families

A family is raised by one with a larger bound that has the same members below its own bound and, at
that bound, a member of the same names. The member at the bound may change in everything else: it is
the last one of the smaller family only. Classes speak of other members by name, an extension of the
successor and `zip_with` of the pair, so below the smaller bound both families are given the same
classes.
-/

namespace Polyad

/-- The same arity and the same names, which is all that one class says about another. -/
structure Member.Namesakes (m n : Member) : Prop where
  arity : m.arity = n.arity
  interfaceName : m.interfaceName = n.interfaceName
  className : m.className = n.className

theorem Member.Namesakes.refl (m : Member) : m.Namesakes m := ⟨rfl, rfl, rfl⟩

namespace Family

/-- `g` raises the bound of `f`. -/
structure RaisedBy (f g : Family) : Prop where
  lower : f.maxArity < g.maxArity
  same : ∀ k < f.maxArity, f.get? k = g.get? k
  named : ∀ m n, f.get? f.maxArity = some m → g.get? f.maxArity = some n →
    m.interfaceName = n.interfaceName ∧ m.className = n.className

/-- Built families raise one another. -/
theorem raisedBy_built {a b : Nat} (lt : a < b) : (built a).RaisedBy (built b) where
  lower := Int.ofNat_lt.2 lt
  same k below := by
    have bound : (built a).maxArity = a := rfl
    by_cases neg : k < 0
    · rw [get?_eq_none_of_neg neg, get?_eq_none_of_neg neg]
    · obtain ⟨n, rfl⟩ := Int.eq_ofNat_of_zero_le (a := k) (by omega)
      have left : n < a := by omega
      have right : n < b := by omega
      rw [get?_built (Nat.le_of_lt left), get?_built (Nat.le_of_lt right), builtMember_eq left right]
  named m n left right := by
    rw [show (built a).maxArity = a from rfl] at left right
    rw [get?_built (Nat.le_refl a)] at left
    rw [get?_built (Nat.le_of_lt lt)] at right
    cases left
    cases right
    exact ⟨rfl, rfl⟩

namespace RaisedBy

variable {f g : Family} {m : Member} (r : f.RaisedBy g)

include r

/-- A member below the smaller bound belongs to both families. -/
theorem mem (mem : m ∈ f.members) (below : m.arity < f.maxArity) : m ∈ g.members :=
  mem_of_get? ((r.same _ below).symm.trans (get?_arity mem))

/-- Up to the smaller bound, both families have members of the same names. -/
theorem exists_namesakes {k : Int} (pos : 0 ≤ k) (le : k ≤ f.maxArity) :
    ∃ a b, f.get? k = some a ∧ g.get? k = some b ∧ a.Namesakes b := by
  obtain ⟨a, -, left, -⟩ := exists_get? pos le
  have lower := r.lower
  obtain ⟨b, -, right, -⟩ := exists_get? (f := g) pos (by omega)
  refine ⟨a, b, left, right, ?_⟩
  by_cases eq : k = f.maxArity
  · subst eq
    have arity := (arity_of_get? left).trans (arity_of_get? right).symm
    obtain ⟨interfaceName, className⟩ := r.named a b left right
    exact ⟨arity, interfaceName, className⟩
  · have same := r.same k (by omega)
    rw [left, right] at same
    cases same
    exact .refl a

/-- The member just below the smaller bound does not notice that its successor is no longer the last
one. -/
theorem exists_successors (mem : m ∈ f.members) (below : m.arity < f.maxArity) :
    ∃ a b, f.successor? m = some a ∧ g.successor? m = some b ∧ a.Namesakes b := by
  have pos := (arity_bounds mem).1
  exact r.exists_namesakes (k := m.arity + 1) (by omega) (by omega)

/-- If a member that holds values is below the smaller bound, both families have a pair. -/
theorem exists_pairs (mem : m ∈ f.members) (below : m.arity < f.maxArity) (ne : m.arity ≠ 0) :
    ∃ a b, f.get? 2 = some a ∧ g.get? 2 = some b ∧ a.Namesakes b := by
  have pos := (arity_bounds mem).1
  exact r.exists_namesakes (k := 2) (by omega) (by omega)

end RaisedBy

end Family

/-! ## What classes say about other members -/

namespace Generated

open Code

section Namesakes

variable {a b : Member} (same : a.Namesakes b) (m : Member)

include same

theorem contractType_congr (params : List String) : contractType a params = contractType b params := by
  rw [contractType, contractType, same.interfaceName]

theorem typedExtension_congr : typedExtension m a = typedExtension m b := by
  rw [typedExtension, typedExtension, contractType_congr same, same.arity]

theorem concreteExtension_congr : concreteExtension m a = concreteExtension m b := by
  rw [concreteExtension, concreteExtension, contractType_congr same, same.className]

theorem nullOutline_congr : nullOutline m a = nullOutline m b := by
  have extension : nullExtension a = nullExtension b := by
    rw [nullExtension, nullExtension, contractType_congr same, same.className]
  rw [nullOutline, nullOutline, nullMethods, nullMethods, extension]

theorem zipDemand_congr : zipDemand m a = zipDemand m b := by
  rw [zipDemand, zipDemand, same.interfaceName]

theorem zipTransform_congr : zipTransform m a = zipTransform m b := by
  rw [zipTransform, zipTransform, same.interfaceName, same.className]

end Namesakes

/-! ## The classes of both families -/

section Raised

variable {f g : Family} {m : Member} (r : f.RaisedBy g) (mem : m ∈ f.members)
  (below : m.arity < f.maxArity)

include r mem below

theorem extensions_raised (runtime : String) : extensions m f runtime = extensions m g runtime := by
  obtain ⟨a, b, left, right, same⟩ := r.exists_successors mem below
  have extension : contractExtension m f runtime = contractExtension m g runtime := by
    simp only [contractExtension, left, right]
    exact typedExtension_congr same m
  rw [extensions, extensions, extension]

theorem withPair_raised (ne : m.arity ≠ 0) (own : List Function) {paired : Member → Function}
    (congr : ∀ {a b : Member}, a.Namesakes b → paired a = paired b) :
    withPair m f own paired = withPair m g own paired := by
  obtain ⟨a, b, left, right, same⟩ := r.exists_pairs mem below ne
  simp only [withPair, left, right, present, bind, Except.bind, congr same]

theorem contract_raised (runtime : String) : contract m f runtime = contract m g runtime := by
  have extension := extensions_raised r mem below runtime
  rw [contract, contract]
  by_cases null : m.isNull
  · rw [if_pos null, if_pos null, nullContract, nullContract, extension]
  · have ne : m.arity ≠ 0 := by simpa [Member.isNull] using null
    rw [if_neg null, if_neg null, properContract, properContract, extension,
      abstractTransforms, abstractTransforms,
      withPair_raised r mem below ne (basicDemands m) (zipDemand_congr · m)]

theorem concreteClass_raised (ne : m.arity ≠ 0) : concreteClass m f = concreteClass m g := by
  have extension : ownExtension m f = ownExtension m g := by
    obtain ⟨a, b, left, right, same⟩ := r.exists_successors mem below
    simp only [ownExtension, left, right, present, bind, Except.bind,
      concreteExtension_congr same m]
  rw [concreteClass, concreteClass, extension, transforms, transforms,
    withPair_raised r mem below ne (basicTransforms m) (zipTransform_congr · m)]

theorem nullClass_raised : nullClass m f = nullClass m g := by
  obtain ⟨a, b, left, right, same⟩ := r.exists_successors mem below
  simp only [nullClass, left, right, present, bind, Except.bind, nullOutline_congr same m]

end Raised

/-- Raising the bound of a family leaves the classes below the old bound as they were: the contract
with its conversions, and the concrete class, for the null tuple with its instance. Where one family
is refused a class, the other one is refused it for the same reason. -/
theorem classes_raised {f g : Family} (r : f.RaisedBy g) {m : Member} (mem : m ∈ f.members)
    (below : m.arity < f.maxArity) :
    m ∈ g.members ∧ (∀ runtime, fullContract m f runtime = fullContract m g runtime) ∧
      concreteDefinitions m f = concreteDefinitions m g := by
  refine ⟨r.mem mem below, fun runtime => ?_, ?_⟩
  · rw [fullContract, fullContract, contract_raised r mem below]
  · rw [concreteDefinitions, concreteDefinitions]
    by_cases null : m.isNull
    · rw [if_pos null, if_pos null, nullClass_raised r mem below]
    · have ne : m.arity ≠ 0 := by simpa [Member.isNull] using null
      rw [if_neg null, if_neg null, concreteClass_raised r mem below ne]

/-- With a third value, single values stay as they were next to pairs. -/
theorem classes_raised_single :
    Family.builtMember 2 1 ∈ (Family.built 3).members ∧
      (∀ runtime, fullContract (Family.builtMember 2 1) (Family.built 2) runtime =
        fullContract (Family.builtMember 2 1) (Family.built 3) runtime) ∧
      concreteDefinitions (Family.builtMember 2 1) (Family.built 2) =
        concreteDefinitions (Family.builtMember 2 1) (Family.built 3) :=
  classes_raised (Family.raisedBy_built (by decide))
    (Family.mem_built_iff.2 ⟨1, by decide, rfl⟩) (by decide)

end Generated

end Polyad
