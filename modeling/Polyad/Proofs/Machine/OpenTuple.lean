import Polyad.Proofs.Machine.Lookup
import Polyad.Proofs.Machine.Steps

/-!
# The open-ended tuple

Instances of the supporting class for any number of values, in a program that does not hide it. Such
an instance holds its values in one slot. Extending it, with the method or with the operator, warns
and makes another one.
-/

namespace Polyad.Machine

open Code Support

variable {p : Program} {h : Heap} {id : Nat} {vs : List Datum}

theorem isOwn_open (name : String) : Context.IsOwn (.support openClass name) := by
  show openClass ≠ "object"
  decide

namespace Program.Undisturbed

variable (u : p.Undisturbed)

include u

theorem lineage_open :
    p.lineage openClass = [openClass, markerClass, identityClass, "ABC", "object"] := by
  have self : p.parents openClass = [markerClass, identityClass] := u.parents (by decide)
  have marker : p.parents markerClass = [] := u.parents (by decide)
  have identity : p.parents identityClass = ["ABC"] := u.parents (by decide)
  have abc : p.parents "ABC" = [] := u.parents (by decide)
  simp only [Program.lineage, Program.generations, self, marker, identity, abc, List.map_cons,
    List.map_nil]
  decide

/-- What the open-ended tuple offers itself is found there. -/
theorem find?_open {name : String} {a : Attribute} (plain : name ∉ Program.intrinsicNames)
    (own : attribute? openClass name = some a) : p.find? openClass name = some a := by
  have none : p.class? openClass = none := u.classes _ (by decide)
  rw [Program.find?_eq plain, u.lineage_open, List.findSome?_cons, Program.ownAttribute?, none]
  simp only [own]

/-- What it does not offer itself is looked for in the classes that it is derived from. -/
theorem find?_open_support {name : String} (plain : name ∉ Program.intrinsicNames) :
    p.find? openClass name =
      [openClass, markerClass, identityClass, "ABC", "object"].findSome? (attribute? · name) := by
  rw [Program.find?_eq plain, u.lineage_open]
  exact u.findSome?_given (by decide) name

theorem isConcrete_open : p.isConcrete openClass = true := by
  have demands : ∀ owner ∈ Program.givenClasses, p.demands owner =
      if owner == identityClass then identityMethods else [] := by
    intro owner mem
    rw [Program.demands, u.classes owner mem]
  have met : ∀ name ∈ identityMethods,
      ((p.find? openClass name).map Program.isDemand).getD true = false := by
    intro name mem
    have own : ∀ n ∈ identityMethods, n ∉ Program.intrinsicNames ∧
        (methodsOf openClass).contains n = true := by decide
    obtain ⟨plain, listed⟩ := own name mem
    have found := u.find?_open (a := .method (.support openClass name)) plain
      (by rw [attribute?, if_pos listed])
    rw [found]
    rfl
  rw [Program.isConcrete, Program.unmet, List.isEmpty_iff, List.filter_eq_nil_iff]
  intro name demanded
  obtain ⟨owner, mem, demanded⟩ := List.mem_flatMap.1 demanded
  have given : ∀ o ∈ [openClass, markerClass, identityClass, "ABC", "object"],
      o ∈ Program.givenClasses := by decide
  rw [u.lineage_open] at mem
  rw [demands owner (given owner mem)] at demanded
  split at demanded
  · rw [met name demanded]
    decide
  · cases demanded

end Program.Undisturbed

/-- An open-ended tuple on the heap, with the values it holds. -/
def HoldsOpen (h : Heap) (id : Nat) (vs : List Datum) : Prop :=
  ∃ i label, h.get? id = some i ∧ i.className = openClass ∧
    i.slot? valuesSlot = some (.tuple vs label)

theorem HoldsOpen.of_get? {g h : Heap} (held : HoldsOpen h id vs) (same : g.get? id = h.get? id) :
    HoldsOpen g id vs := by
  obtain ⟨i, label, found, rest⟩ := held
  exact ⟨i, label, same.trans found, rest⟩

/-- The heap with a new open-ended tuple. -/
def Heap.withOpen (h : Heap) (vs : List Datum) : Heap :=
  h.labelled.push ⟨openClass, [(valuesSlot, .tuple vs h.labels)]⟩

theorem holdsOpen_new (h : Heap) (vs : List Datum) :
    HoldsOpen (h.withOpen vs) h.instances.length vs :=
  ⟨_, h.labels, Heap.get?_push_self .., rfl, rfl⟩

namespace Program.Undisturbed

variable (u : p.Undisturbed)

include u

/-- The initialiser of the open-ended tuple puts the tuple of its arguments into the slot. -/
theorem run_initialiser_open {label : Nat} {g : Heap} {i : Instance}
    (tupled : Exec.tuple vs h = (.ok (.tuple vs label), g)) (held : g.get? id = some i)
    (class_eq : i.className = openClass) (n : Nat) :
    (Context.withDepth p (n + 1)).run (.support openClass "__init__") (.object id :: vs) h =
      (.ok .null, g.modify id (·.setSlot valuesSlot (.tuple vs label))) := by
  have slot : p.find? openClass valuesSlot = some (.slot valuesSlot) := u.find?_open (by decide) rfl
  have written : (Context.withDepth p n).setPast (.object id) valuesSlot (.tuple vs label) g =
      (.ok (), g.modify id (·.setSlot valuesSlot (.tuple vs label))) := by
    rw [Context.setPast, Exec.bind_ok (Context.className_ok held), Context.program_withDepth,
      class_eq, slot]
    rfl
  show (Exec.tuple vs >>= fun t => (Context.withDepth p n).setPast (.object id) valuesSlot t >>=
    fun _ => pure Datum.null) h = _
  rw [Exec.bind_ok tupled]
  exact Exec.bind_ok written

/-- Making an open-ended tuple puts the tuple of its values into the slot. -/
theorem construct_open_of {label : Nat} {g : Heap}
    (tupled : Exec.tuple vs (h.push ⟨openClass, []⟩) =
      (.ok (.tuple vs label), g.push ⟨openClass, []⟩))
    (same : g.instances = h.instances) (n : Nat) :
    (Context.withDepth p (n + 1)).construct openClass vs h =
      (.ok (.object h.instances.length),
        g.push ⟨openClass, [(valuesSlot, .tuple vs label)]⟩) := by
  have initialiser : p.find? openClass "__init__" =
      some (.method (.support openClass "__init__")) := u.find?_open (by decide) rfl
  have held : (g.push ⟨openClass, []⟩).get? h.instances.length = some ⟨openClass, []⟩ := by
    rw [← same]
    exact Heap.get?_push_self g ⟨openClass, []⟩
  have ran : (Context.withDepth p (n + 1)).run (.support openClass "__init__")
      (.object h.instances.length :: vs) (h.push ⟨openClass, []⟩) =
        (.ok .null, g.push ⟨openClass, [(valuesSlot, .tuple vs label)]⟩) := by
    rw [u.run_initialiser_open tupled held rfl n, ← same, Heap.modify_push_self]
    rfl
  refine Context.construct_ok ?_ ?_ (isOwn_open _) ran
  · rw [Context.program_withDepth, u.isConcrete_open]
  · rw [Context.program_withDepth, initialiser]

/-- Making an open-ended tuple of some values warns of nothing. -/
theorem construct_open (ne : vs ≠ []) (n : Nat) :
    (Context.withDepth p (n + 1)).construct openClass vs h =
      (.ok (.object h.instances.length), h.withOpen vs) := by
  have tupled : Exec.tuple vs (h.push ⟨openClass, []⟩) =
      (.ok (.tuple vs h.labels), h.labelled.push ⟨openClass, []⟩) := Exec.tuple_ok ne _
  exact u.construct_open_of tupled rfl n

theorem values_open (held : HoldsOpen h id vs) (n : Nat) :
    Support.values (Context.withDepth p n) (.object id) h = (.ok vs, h) := by
  obtain ⟨i, label, found, class_eq, value⟩ := held
  have slot : p.find? openClass valuesSlot = some (.slot valuesSlot) := u.find?_open (by decide) rfl
  have read : valueTuple (Context.withDepth p n) (.object id) h = (.ok (.tuple vs label), h) := by
    refine Context.getAttribute_slot found ?_ value
    rw [Context.program_withDepth, class_eq, slot]
  rw [Support.values, Exec.bind_ok read]
  rfl

/-- The methods without parameters are run on the open-ended tuple itself. -/
theorem send_open (held : HoldsOpen h id vs) {name : String}
    (plain : name ∉ Program.intrinsicNames)
    (own : attribute? openClass name = some (.method (.support openClass name))) (n : Nat) :
    (Context.withDepth p (n + 1)).send id name [] h =
      Support.run (Context.withDepth p n) openClass name [.object id] h := by
  obtain ⟨i, label, found, class_eq, -⟩ := held
  have answer : (Context.withDepth p (n + 1)).program.find? i.className name =
      some (.method (.support openClass name)) := by
    rw [Context.program_withDepth, class_eq, u.find?_open plain own]
  rw [Context.send_ok found answer (isOwn_open name)]
  rfl

theorem length_open (held : HoldsOpen h id vs) (n : Nat) :
    (Context.withDepth p (n + 1)).length (.object id) h = (.ok vs.length, h) := by
  have answer : (Context.withDepth p (n + 1)).send id "__len__" [] h =
      (.ok (.int vs.length), h) := by
    refine (u.send_open held (by decide) rfl n).trans ?_
    exact Exec.bind_ok (u.values_open held n)
  rw [Context.length, Exec.bind_ok answer]
  rfl

theorem iterate_open (held : HoldsOpen h id vs) (n : Nat) :
    (Context.withDepth p (n + 1)).iterate (.object id) h = (.ok vs, h) := by
  have answer : (Context.withDepth p (n + 1)).send id "__iter__" [] h = (.ok (.iterator vs), h) := by
    refine (u.send_open held (by decide) rfl n).trans ?_
    exact Exec.bind_ok (u.values_open held n)
  rw [Context.iterate, Exec.bind_ok answer]
  rfl

/-- The heap after an open-ended tuple was extended. -/
theorem callMethod_open (held : HoldsOpen h id vs) (that : Datum) (n : Nat) :
    (Context.withDepth p (n + 2)).callMethod (.object id) "to" [that] h =
      (.ok (.object h.instances.length),
        (h.warned overflowClass overflowMessage).withOpen (vs ++ [that])) := by
  have method : p.find? openClass "to" = some (.method (.support openClass "to")) :=
    u.find?_open (by decide) rfl
  have warned : Exec.warn overflowClass overflowMessage h =
      (.ok (), h.warned overflowClass overflowMessage) := rfl
  have later : HoldsOpen (h.warned overflowClass overflowMessage) id vs := held.of_get? rfl
  obtain ⟨i, label, found, class_eq, -⟩ := held
  rw [Context.callMethod_object found (r := .support openClass "to")
    (by rw [Context.program_withDepth, class_eq, method])]
  show Support.extend (Context.withDepth p (n + 1)) (.object id) that h = _
  rw [Support.extend, Exec.bind_ok warned, Exec.bind_ok (u.values_open later (n + 1))]
  exact u.construct_open (by simp) n

/-- The operator of extension asks for the method. -/
theorem add_open (held : HoldsOpen h id vs) (that : Datum) (n : Nat) :
    (Context.withDepth p (n + 1)).add (.object id) that h =
      (Context.withDepth p n).callMethod (.object id) "to" [that] h := by
  have method : p.find? openClass "__add__" = some (.method (.support openClass "__add__")) :=
    u.find?_open (by decide) rfl
  obtain ⟨i, label, found, class_eq, -⟩ := held
  rw [Context.add_object found (r := .support openClass "__add__")
    (by rw [Context.program_withDepth, class_eq, method]) (isOwn_open _)]
  rfl

end Program.Undisturbed
end Polyad.Machine
