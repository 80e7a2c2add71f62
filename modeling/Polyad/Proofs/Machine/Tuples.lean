import Polyad.Proofs.Machine.Loaded
import Polyad.Proofs.Machine.OpenTuple

/-!
# Tuples of a loaded family

Which object stands for some values: the null tuple for none, an instance of the class for as many,
and an open-ended tuple if the family has no such class. An object goes on standing for its values,
since what is on the heap stays there as it is.
-/

namespace Polyad.Machine

open Code Generated

/-! ## Growing heaps -/

/-- What is on the one heap is on the other, as it is. -/
def Heap.Within (g h : Heap) : Prop := g.instances <+: h.instances

namespace Heap.Within

variable {g h k : Heap} {id : Nat} {vs : List Datum}

theorem refl (h : Heap) : h.Within h := List.prefix_refl _

theorem trans (first : g.Within h) (second : h.Within k) : g.Within k :=
  List.IsPrefix.trans first second

theorem push (h : Heap) (i : Instance) : h.Within (h.push i) := List.prefix_append _ _

theorem withOpen (h : Heap) (vs : List Datum) : h.Within (h.withOpen vs) := List.prefix_append _ _

theorem of_eq (same : h.instances = g.instances) : g.Within h :=
  ⟨[], by rw [List.append_nil, same]⟩

theorem get?_eq_some (w : g.Within h) {i : Instance} (found : g.get? id = some i) :
    h.get? id = some i := by
  obtain ⟨rest, eq⟩ := w
  have lt : id < g.instances.length := (List.getElem?_eq_some_iff.1 found).1
  rw [Heap.get?, ← eq, List.getElem?_append_left lt]
  exact found

theorem holds (w : g.Within h) {m : Member} (held : Holds g id m vs) : Holds h id m vs := by
  obtain ⟨i, found, rest⟩ := held
  exact ⟨i, w.get?_eq_some found, rest⟩

theorem holdsOpen (w : g.Within h) (held : HoldsOpen g id vs) : HoldsOpen h id vs := by
  obtain ⟨i, label, found, rest⟩ := held
  exact ⟨i, label, w.get?_eq_some found, rest⟩

end Heap.Within

/-! ## Objects and their values -/

/-- The class of the tuples of a number of values. -/
def tupleClass (f : Family) (count : Nat) : String :=
  match f.get? count with
  | some m => m.className
  | none => Support.openClass

/-- An object that is the tuple of some values. The null tuple is the first thing on the heap. -/
inductive Represents (f : Family) (h : Heap) : Datum → List Datum → Prop
  | null {m : Member} : m ∈ f.members → m.arity = 0 → Holds h 0 m [] →
      Represents f h (.object 0) []
  | proper {m : Member} {id : Nat} {vs : List Datum} : m ∈ f.proper → Holds h id m vs →
      Represents f h (.object id) vs
  | openEnded {id : Nat} {vs : List Datum} : f.maxArity < vs.length → HoldsOpen h id vs →
      Represents f h (.object id) vs

theorem Represents.mono {f : Family} {g h : Heap} {x : Datum} {vs : List Datum}
    (r : Represents f g x vs) (w : g.Within h) : Represents f h x vs := by
  cases r with
  | null mem arity held => exact .null mem arity (w.holds held)
  | proper mem held => exact .proper mem (w.holds held)
  | openEnded beyond held => exact .openEnded beyond (w.holdsOpen held)

/-- Running something on a heap makes the tuple of some values after some warnings, and leaves what
was there alone. -/
structure Makes (f : Family) (run : Exec Datum) (h : Heap) (vs : List Datum) (ws : List Warning)
    (x : Datum) (h' : Heap) : Prop where
  ran : run h = (.ok x, h')
  represents : Represents f h' x vs
  kept : h.Within h'
  warned : h'.warnings = h.warnings ++ ws

/-- What runs on after some warnings does. -/
theorem Makes.after {f : Family} {run run' : Exec Datum} {g h h' : Heap} {vs : List Datum}
    {ws ws' : List Warning} {x : Datum} (m : Makes f run' h vs ws' x h') (step : run g = run' h)
    (within : g.Within h) (warned : h.warnings = g.warnings ++ ws) :
    Makes f run g vs (ws ++ ws') x h' where
  ran := step.trans m.ran
  represents := m.represents
  kept := within.trans m.kept
  warned := by rw [m.warned, warned, List.append_assoc]

/-- What a tuple shows of itself: its class, and the values it holds. -/
structure Shows (cx : Context) (f : Family) (h : Heap) (x : Datum) (vs : List Datum) : Prop where
  null : vs = [] → cx.program.lookup nullInstance = some x
  kind : cx.typeName x h = (.ok (tupleClass f vs.length), h)
  length : cx.length x h = (.ok vs.length, h)
  items : (cx.iterate x h).1 = .ok vs

variable {f : Family} {null next : Member} {package : String}

theorem tupleClass_eq {m : Member} (mem : m ∈ f.members) {count : Nat} (arity : m.arity = count) :
    tupleClass f count = m.className := by
  rw [tupleClass, ← arity, Family.get?_arity mem]

theorem tupleClass_of_lt {count : Nat} (lt : f.maxArity < count) :
    tupleClass f count = Support.openClass := by
  rw [tupleClass, Family.get?_eq_none_of_lt lt]

theorem Holds.arity_eq (d : f.Derived) {m : Member} (mem : m ∈ f.members) {h : Heap} {id : Nat}
    {vs : List Datum} (held : Holds h id m vs) : m.arity = vs.length := by
  have size := held.length
  have labels := (Member.validate_eq_ok_iff.1 (d.consistent m mem)).2.1
  omega

/-- There is one member without values. -/
theorem eq_null {m : Member} (members : f.members = null :: f.proper) (mem : m ∈ f.members)
    (arity : m.arity = 0) : m = null := by
  rw [members] at mem
  rcases List.mem_cons.1 mem with eq | proper
  · exact eq
  · exact absurd arity (Family.mem_proper_iff.1 proper).2

namespace Loadable

variable (l : Loadable f) (members : f.members = null :: f.proper)

include l members

/-- A tuple shows its class and its values. -/
theorem shows (arity : null.arity = 0) (succ : f.successor? null = some next) {h : Heap} {x : Datum}
    {vs : List Datum} (r : Represents f h x vs) (n : Nat) :
    Shows (Context.loaded package f null next (n + 2)) f h x vs := by
  cases r with
  | null mem zero held =>
    cases eq_null members mem zero
    have e := l.emittedNull_afterLoading members package arity succ
    refine ⟨fun _ => ?_, ?_, e.length_object held (n + 1), ?_⟩
    · rw [Context.program_withDepth, l.lookup_nullInstance members]
    · obtain ⟨i, found, class_eq, -⟩ := held
      rw [Context.typeName, Context.className_ok found, class_eq, List.length_nil,
        tupleClass_eq mem zero]
    · rw [e.iterate_object held (n + 1)]
  | proper mem held =>
    have e := l.emitted_afterLoading members package next mem
    refine ⟨fun nil => absurd nil (e.ne_nil held), ?_, e.length_object held (n + 1), ?_⟩
    · have own := (Family.mem_proper_iff.1 mem).1
      have size := held.arity_eq l.derived own
      obtain ⟨i, found, class_eq, -⟩ := held
      rw [Context.typeName, Context.className_ok found, class_eq, tupleClass_eq own size]
    · rw [e.iterate_object held n]
  | openEnded beyond held =>
    have u := l.undisturbed_afterLoading members package next
    refine ⟨fun nil => ?_, ?_, u.length_open held (n + 1), ?_⟩
    · have := l.pos
      rw [nil, List.length_nil] at beyond
      omega
    · obtain ⟨i, label, found, class_eq, -⟩ := held
      rw [Context.typeName, Context.className_ok found, class_eq, tupleClass_of_lt beyond]
    · rw [u.iterate_open held (n + 1)]

end Loadable
end Polyad.Machine
