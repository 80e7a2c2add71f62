import Polyad.Proofs.Machine.Tuples

/-!
# Hosts of tuples

A program in which the tuples of a family can be compared: all their classes stand in it, none of
them is derived from another, and none goes by the name of a native type. That of a loaded family is
one as soon as the names of its classes mean nothing else in a comparison.
-/

namespace Polyad.Machine

open Code Generated

/-- The names of native types. -/
def nativeNames : List String := [
  "NoneType", "bool", "int", "float", "str", "list", "tuple", "dict", "slice", "tuple_iterator",
  "type", "function", "method", "builtin_function_or_method", "NotImplementedType",
  "NotImplementedError", "object"]

theorem Datum.nativeTypes_subset (v : Datum) : v.nativeTypes ⊆ nativeNames := by
  cases v <;> simp [nativeTypes, nativeNames]

/-- The classes of the tuples of a family, the open-ended ones included. -/
def tupleClasses (f : Family) : List String := Support.openClass :: f.members.map (·.className)

theorem mem_tupleClasses {f : Family} {m : Member} (mem : m ∈ f.members) :
    m.className ∈ tupleClasses f :=
  List.mem_cons_of_mem _ (List.mem_map_of_mem (f := Member.className) mem)

/-- A program with the classes of a family, in which the classes of tuples are told from each other
and from native types. -/
structure Program.Hosts (p : Program) (f : Family) : Prop where
  undisturbed : p.Undisturbed
  proper : ∀ m ∈ f.proper, ∃ contract concrete, p.Emitted m f Support.home contract concrete
  null : ∀ m ∈ f.members, m.arity = 0 →
    ∃ next contract concrete, p.EmittedNull m next f Support.home contract concrete
  /-- A comparison finds its own class under its name. -/
  means : ∀ m ∈ f.members, ∀ x y : Datum,
    p.Means [("self", x), ("other", y)] m.className (.type m.className)
  distinct : (tupleClasses f).Nodup
  apart : ∀ c ∈ tupleClasses f, ∀ d ∈ tupleClasses f, p.isKindOf c d = true → c = d
  foreign : ∀ c ∈ tupleClasses f, c ∉ nativeNames

/-- Names that a comparison takes for something else: its parameter and the native types. -/
def comparisonNames : List String := "other" :: nativeNames

/-- The names of the classes of built families mean nothing else. -/
theorem comparisonNames_not_built : ∀ n ∈ builtNames, n ∉ comparisonNames := by decide +kernel

theorem className_not_mem_comparisonNames {bound : Nat} (le : bound ≤ Naming.letterBudget) :
    ∀ m ∈ (Family.built bound).members, m.className ∉ comparisonNames := fun _ mem =>
  comparisonNames_not_built _ ((classNames_built_sublist le).subset
    (List.mem_append_right _ (List.mem_map_of_mem mem)))

variable {f : Family} {null next : Member}

namespace Loadable

variable (l : Loadable f) (members : f.members = null :: f.proper)

include l

theorem className_not_taken {m : Member} (mem : m ∈ f.members) : m.className ∉ takenNames :=
  l.free _ (List.mem_append_right _ (List.mem_map_of_mem (f := Member.className) mem))

theorem className_not_given {m : Member} (mem : m ∈ f.members) :
    m.className ∉ Program.givenClasses := fun given =>
  l.className_not_taken mem (by simp [takenNames, given])

theorem interfaceName_not_given {m : Member} (mem : m ∈ f.members) :
    m.interfaceName ∉ Program.givenClasses := fun given =>
  l.free _ (List.mem_append_left _ (List.mem_map_of_mem (f := Member.interfaceName) mem))
    (by simp [takenNames, given])

theorem className_ne_interfaceName {m m' : Member} (mem : m ∈ f.members) (mem' : m' ∈ f.members) :
    m.className ≠ m'.interfaceName := fun eq =>
  (List.nodup_append.1 l.distinct).2.2 _ (List.mem_map_of_mem (f := Member.interfaceName) mem') _
    (List.mem_map_of_mem (f := Member.className) mem) eq.symm

theorem nodup_tupleClasses : (tupleClasses f).Nodup := by
  refine List.nodup_cons.2 ⟨fun mem => ?_, (List.nodup_append.1 l.distinct).2.1⟩
  obtain ⟨m, mem, eq⟩ := List.mem_map.1 mem
  exact l.className_not_given mem (eq ▸ by decide)

include members

/-- A class of a member comes before its contract and the supporting classes. -/
theorem lineage_className (package : String) (arity : null.arity = 0)
    (succ : f.successor? null = some next) {m : Member} (mem : m ∈ f.members) :
    ∃ generic, (Program.afterLoading package f null next).lineage m.className =
      m.className :: m.interfaceName :: Program.supportLineage generic := by
  by_cases zero : m.arity = 0
  · cases eq_null members mem zero
    have e := l.emittedNull_afterLoading members package arity succ
    have lineage := e.lineage
    rw [e.name_concrete, name_contractOf l.derived mem] at lineage
    exact ⟨false, lineage⟩
  · have e := l.emitted_afterLoading members package next (Family.mem_proper_iff.2 ⟨mem, zero⟩)
    have lineage := e.lineage
    rw [e.name_concrete, name_contractOf l.derived mem] at lineage
    exact ⟨true, lineage⟩

/-- Among the classes of tuples none is derived from another. -/
theorem eq_of_isKindOf (package : String) (arity : null.arity = 0)
    (succ : f.successor? null = some next) {c d : String} (hc : c ∈ tupleClasses f)
    (hd : d ∈ tupleClasses f)
    (kind : (Program.afterLoading package f null next).isKindOf c d = true) : c = d := by
  rw [Program.isKindOf, List.contains_iff_mem] at kind
  rcases List.mem_cons.1 hc with rfl | hc
  · rw [(l.undisturbed_afterLoading members package next).lineage_open] at kind
    rcases List.mem_cons.1 hd with rfl | hd
    · rfl
    · obtain ⟨m, mem, rfl⟩ := List.mem_map.1 hd
      have given : ∀ o ∈ [Support.openClass, Support.markerClass, Support.identityClass, "ABC",
          "object"], o ∈ Program.givenClasses := by decide
      exact absurd (given _ kind) (l.className_not_given mem)
  · obtain ⟨m, mem, rfl⟩ := List.mem_map.1 hc
    obtain ⟨generic, lineage⟩ := l.lineage_className members package arity succ mem
    rw [lineage, List.mem_cons, List.mem_cons] at kind
    have apart : d ≠ m.interfaceName ∧ d ∉ Program.supportLineage generic := by
      rcases List.mem_cons.1 hd with rfl | hd
      · refine ⟨fun eq => l.interfaceName_not_given mem (eq ▸ by decide), ?_⟩
        cases generic <;> decide
      · obtain ⟨m', mem', rfl⟩ := List.mem_map.1 hd
        have given : ∀ o ∈ Program.supportLineage generic, o ∈ Program.givenClasses := by
          cases generic <;> decide
        exact ⟨l.className_ne_interfaceName mem' mem, fun support =>
          l.className_not_given mem' (given _ support)⟩
    rcases kind with eq | contract | support
    · exact eq.symm
    · exact absurd contract apart.1
    · exact absurd support apart.2

/-- The program of a family hosts its tuples, if the names of the classes mean nothing else in a
comparison. -/
theorem hosts (package : String) (arity : null.arity = 0) (succ : f.successor? null = some next)
    (own : ∀ m ∈ f.members, m.className ∉ comparisonNames) :
    (Program.afterLoading package f null next).Hosts f where
  undisturbed := l.undisturbed_afterLoading members package next
  proper m mem := ⟨_, _, l.emitted_afterLoading members package next mem⟩
  null m mem zero := by
    cases eq_null members mem zero
    exact ⟨_, _, _, l.emittedNull_afterLoading members package arity succ⟩
  means m mem x y := by
    have free : m.className ∉ ["self", "other"] := by
      intro parameter
      rcases List.mem_cons.1 parameter with eq | parameter
      · exact l.className_not_taken mem (eq ▸ by decide)
      · exact own m mem (by simp [comparisonNames, List.mem_singleton.1 parameter])
    exact .global (lookup_eq_none_of_not_mem free) (l.lookup_className members package next mem)
  distinct := l.nodup_tupleClasses
  apart c hc d hd kind := l.eq_of_isKindOf members package arity succ hc hd kind
  foreign c hc native := by
    rcases List.mem_cons.1 hc with rfl | hc
    · revert native
      decide
    · obtain ⟨m, mem, rfl⟩ := List.mem_map.1 hc
      exact own m mem (List.mem_cons_of_mem _ native)

end Loadable
end Polyad.Machine
