import Polyad.Machine.Support
import Polyad.Proofs.Generated.Fulfilment

/-!
# Generated classes in a program

A concrete class comes before its contract in its lineage, and both before the supporting classes.
So an attribute is that of the concrete class if it has one, and else that of the contract. There
can be instances of the class as soon as it has a function wherever something is demanded.
-/

namespace Polyad.Machine

open Code Generated

/-! ## Attributes of a class -/

section

variable {c : ClassDef} {fn : Function} {name : String}

theorem ownAttribute?_of_mem (nodup : (c.items.map ClassItem.name).Nodup)
    (mem : .function fn ∈ c.items) :
    ownAttribute? c fn.name = some
      (if fn.decorators.contains "property" then .property (.written fn)
      else .method (.written fn)) := by
  have backwards : (c.items.reverse.map ClassItem.name).Nodup := by
    rw [List.map_reverse]
    exact List.pairwise_reverse.2 (nodup.imp Ne.symm)
  have found : c.items.reverse.find? (·.name == fn.name) = some (.function fn) :=
    find?_of_nodup backwards (List.mem_reverse.2 mem)
  rw [ownAttribute?, found]

theorem ownAttribute?_of_not_mem (absent : name ∉ c.items.map ClassItem.name) :
    ownAttribute? c name = if (slotNames c).contains name then some (.slot name) else none := by
  have none : c.items.reverse.find? (·.name == name) = none := by
    rw [List.find?_eq_none]
    intro item mem eq
    exact absent (eq_of_beq eq ▸ List.mem_map_of_mem (List.mem_reverse.1 mem))
  rw [ownAttribute?, none]

end

namespace Program

/-- The classes that generated files take from elsewhere. -/
def givenClasses : List String := [
  Support.markerClass, Support.identityClass, Support.openClass, "ABC", "Generic", "object"]

/-- A program that hides nothing that generated files take from elsewhere. -/
structure Undisturbed (p : Program) : Prop where
  classes : ∀ name ∈ givenClasses, p.class? name = none
  names : ∀ name v, builtins.lookup name = some v → p.lookup name = some v

/-- A program with a contract and a concrete class. -/
structure Installed (p : Program) (contract concrete : ClassDef) : Prop where
  finds_contract : p.class? contract.name = some contract
  finds_concrete : p.class? concrete.name = some concrete

variable {p : Program} {contract concrete : ClassDef} {rest : List String}

/-! ## Lineages -/

theorem parents_of_class? {name : String} {c : ClassDef} (found : p.class? name = some c) :
    p.parents name = c.bases.map baseName := by
  rw [parents, found]

theorem Undisturbed.parents (u : p.Undisturbed) {name : String} (mem : name ∈ givenClasses) :
    p.parents name = Support.parents name := by
  rw [Program.parents, u.classes name mem]

/-- The supporting part of the lineage of a concrete class. -/
def supportLineage (generic : Bool) : List String :=
  [Support.markerClass, Support.identityClass, "ABC"] ++ (if generic then ["Generic"] else []) ++
    ["object"]

theorem lineage_eq (u : p.Undisturbed) (i : p.Installed contract concrete) {generic : Bool}
    (derived : concrete.bases.map baseName = [contract.name])
    (bases : contract.bases.map baseName = [Support.markerClass, Support.identityClass] ++
      if generic then ["Generic"] else []) :
    p.lineage concrete.name = concrete.name :: contract.name :: supportLineage generic := by
  have marker : p.parents Support.markerClass = [] := u.parents (by decide)
  have identity : p.parents Support.identityClass = ["ABC"] := u.parents (by decide)
  have abc : p.parents "ABC" = [] := u.parents (by decide)
  have top : p.parents "Generic" = [] := u.parents (by decide)
  have below : p.generations 3 contract.name =
      contract.name :: [Support.markerClass, Support.identityClass, "ABC"] ++
        if generic then ["Generic"] else [] := by
    rw [generations, parents_of_class? i.finds_contract, bases]
    cases generic
    · simp [generations, marker, identity, abc, joinLineages]
      decide
    · simp [generations, marker, identity, abc, top, joinLineages]
      decide
  rw [lineage, generations, parents_of_class? i.finds_concrete, derived, List.map_cons,
    List.map_nil, below]
  simp [joinLineages, supportLineage]

/-- A class comes first in its lineage. -/
theorem isKindOf_refl (p : Program) (className : String) :
    p.isKindOf className className = true := by
  rw [isKindOf, lineage, generations, List.contains_iff_mem]
  exact List.mem_cons_self

/-! ## Attributes along a lineage -/

/-- What every class has got of its own. -/
def intrinsicNames : List String := ["__class__", "__module__", "__doc__"]

theorem find?_eq {className name : String} (plain : name ∉ intrinsicNames) :
    p.find? className name = (p.lineage className).findSome? fun owner =>
      p.ownAttribute? owner name := by
  simp only [intrinsicNames, List.mem_cons, List.not_mem_nil, or_false, not_or] at plain
  obtain ⟨first, second, third⟩ := plain
  rw [find?, if_neg (by simpa using first), if_neg (by simpa using second),
    if_neg (by simpa using third)]

theorem find?_of_concrete (i : p.Installed contract concrete)
    (lin : p.lineage concrete.name = concrete.name :: contract.name :: rest) {name : String}
    {a : Attribute} (plain : name ∉ intrinsicNames)
    (own : Machine.ownAttribute? concrete name = some a) :
    p.find? concrete.name name = some a := by
  rw [find?_eq plain, lin, List.findSome?_cons, ownAttribute?, i.finds_concrete]
  simp only [own]

theorem find?_of_contract (i : p.Installed contract concrete)
    (lin : p.lineage concrete.name = concrete.name :: contract.name :: rest) {name : String}
    {a : Attribute} (plain : name ∉ intrinsicNames)
    (absent : Machine.ownAttribute? concrete name = none)
    (own : Machine.ownAttribute? contract name = some a) :
    p.find? concrete.name name = some a := by
  rw [find?_eq plain, lin, List.findSome?_cons, ownAttribute?, i.finds_concrete]
  simp only [absent]
  rw [List.findSome?_cons, ownAttribute?, i.finds_contract]
  simp only [own]

/-- Supporting classes that the program does not hide offer what they have. -/
theorem Undisturbed.findSome?_given (u : p.Undisturbed) {owners : List String}
    (given : owners ⊆ givenClasses) (name : String) :
    (owners.findSome? fun owner => p.ownAttribute? owner name) =
      owners.findSome? (Support.attribute? · name) := by
  induction owners with
  | nil => rfl
  | cons o os ih =>
    obtain ⟨known, rest⟩ := List.cons_subset.1 given
    have own : p.ownAttribute? o name = Support.attribute? o name := by
      rw [ownAttribute?, u.classes o known]
    rw [List.findSome?_cons, List.findSome?_cons, own, ih rest]

/-- What neither of the two has is looked for in the supporting classes. -/
theorem find?_of_support (u : p.Undisturbed) (i : p.Installed contract concrete) {generic : Bool}
    (lin : p.lineage concrete.name = concrete.name :: contract.name :: supportLineage generic)
    {name : String} (plain : name ∉ intrinsicNames)
    (absent : Machine.ownAttribute? concrete name = none)
    (unknown : Machine.ownAttribute? contract name = none) :
    p.find? concrete.name name =
      (supportLineage generic).findSome? (Support.attribute? · name) := by
  have given : supportLineage generic ⊆ givenClasses := by cases generic <;> decide
  rw [find?_eq plain, lin, List.findSome?_cons, ownAttribute?, i.finds_concrete]
  simp only [absent]
  rw [List.findSome?_cons, ownAttribute?, i.finds_contract]
  simp only [unknown]
  exact u.findSome?_given given name

/-! ## Classes with instances -/

/-- What the supporting part of a lineage demands is value identity. -/
theorem Undisturbed.demands_subset (u : p.Undisturbed) {generic : Bool} {owner name : String}
    (mem : owner ∈ supportLineage generic) (demanded : name ∈ p.demands owner) :
    name ∈ Support.identityMethods := by
  have given : ∀ o ∈ supportLineage generic, o ∈ givenClasses := by cases generic <;> decide
  rw [demands, u.classes owner (given owner mem)] at demanded
  dsimp only at demanded
  split at demanded
  · exact demanded
  · cases demanded

theorem mem_demands {c : ClassDef} (found : p.class? c.name = some c) {name : String}
    (demanded : name ∈ p.demands c.name) :
    ∃ fn, .function fn ∈ c.items ∧ isAbstractFunction fn = true ∧ fn.name = name := by
  rw [demands, found] at demanded
  obtain ⟨item, mem, eq⟩ := List.mem_filterMap.1 demanded
  cases item with
  | assignment a => cases eq
  | function fn =>
    dsimp only at eq
    split at eq
    · next abstract =>
      cases eq
      exact ⟨fn, mem, abstract, rfl⟩
    · cases eq

/-- There can be instances of a class that has a function of its own wherever it or its contract or
value identity demands one. -/
theorem isConcrete_of_met (u : p.Undisturbed) (i : p.Installed contract concrete) {generic : Bool}
    (lin : p.lineage concrete.name = concrete.name :: contract.name :: supportLineage generic)
    (nodup : (concrete.items.map ClassItem.name).Nodup)
    (own : ∀ fn, .function fn ∈ concrete.items → isAbstractFunction fn = false)
    (met : ∀ demand, .function demand ∈ contract.items → isAbstractFunction demand = true →
      ∃ fn, .function fn ∈ concrete.items ∧ fn.name = demand.name)
    (identity : ∀ name ∈ Support.identityMethods,
      ∃ fn, .function fn ∈ concrete.items ∧ fn.name = name)
    (plain : ∀ name ∈ concrete.items.map ClassItem.name, name ∉ intrinsicNames) :
    p.isConcrete concrete.name = true := by
  have answered : ∀ name, (∃ fn, .function fn ∈ concrete.items ∧ fn.name = name) →
      ((p.find? concrete.name name).map isDemand).getD true = false := by
    rintro name ⟨fn, mem, rfl⟩
    have named : fn.name ∈ concrete.items.map ClassItem.name :=
      List.mem_map_of_mem (f := ClassItem.name) mem
    rw [find?_of_concrete i lin (plain _ named) (ownAttribute?_of_mem nodup mem)]
    have concreteFn := own fn mem
    split <;> simpa [isDemand] using concreteFn
  rw [isConcrete, unmet, List.isEmpty_iff, List.filter_eq_nil_iff]
  intro name demanded
  obtain ⟨owner, mem, demanded⟩ := List.mem_flatMap.1 demanded
  rw [Bool.not_eq_true]
  apply answered
  rw [lin] at mem
  rcases List.mem_cons.1 mem with rfl | mem
  · obtain ⟨fn, hfn, abstract, -⟩ := mem_demands i.finds_concrete demanded
    rw [own fn hfn] at abstract
    cases abstract
  · rcases List.mem_cons.1 mem with rfl | mem
    · obtain ⟨demand, hd, abstract, rfl⟩ := mem_demands i.finds_contract demanded
      exact met demand hd abstract
    · exact identity name (u.demands_subset mem demanded)

end Program
end Polyad.Machine
