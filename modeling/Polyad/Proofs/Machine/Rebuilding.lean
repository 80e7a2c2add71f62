import Polyad.Proofs.Machine.Soundness
import Polyad.Proofs.Machine.ValueIdentity

/-!
# Rebuilt values

When a value is what another one was made again into: it has the same shape, down to values without
parts, which are the same but for the labels of floating point numbers. Tuples rebuilt from leaves
that are equal to all they can be rebuilt as are equal to the old ones.
-/

namespace Polyad.Machine

open Code Generated

/-- The second value is the first one made again. Labels of collections and of floating point
numbers may be others, and so may the instances that stand for tuples. -/
inductive Rebuilt (f : Family) (h : Heap) : Datum → Datum → Prop
  | whole {v : Datum} : v.hasParts = false → Rebuilt f h v v
  | float (x : Float) (i j : Nat) : Rebuilt f h (.float x i) (.float x j)
  | list {xs ys : List Datum} (i j : Nat) : xs.length = ys.length →
      (∀ e ∈ xs.zip ys, Rebuilt f h e.1 e.2) → Rebuilt f h (.list xs i) (.list ys j)
  | tuple {xs ys : List Datum} (i j : Nat) : xs.length = ys.length →
      (∀ e ∈ xs.zip ys, Rebuilt f h e.1 e.2) → Rebuilt f h (.tuple xs i) (.tuple ys j)
  | dict {es es' : List (Datum × Datum)} (i j : Nat) : es.length = es'.length →
      (∀ e ∈ es.zip es', Rebuilt f h e.1.1 e.2.1) → (∀ e ∈ es.zip es', Rebuilt f h e.1.2 e.2.2) →
      Rebuilt f h (.dict es i) (.dict es' j)
  | object {id other : Nat} {c : String} {vs ws : List Datum} : Stores f h id c vs →
      Stores f h other c ws → vs.length = ws.length →
      (∀ e ∈ vs.zip ws, Rebuilt f h e.1 e.2) → Rebuilt f h (.object id) (.object other)

/-- A value is equal to all that it can be rebuilt as, whichever side is asked. A number that
differs from itself is not, but all other atoms are, and lists of such values. -/
def Steady (p : Program) (f : Family) (h : Heap) (v : Datum) : Prop :=
  ∀ g, h.Within g → ∀ w, Rebuilt f g v w → EqualTo p g v w ∧ EqualTo p g w v

variable {p : Program} {f : Family} {h g : Heap} {v w x y : Datum} {xs ys vs ws : List Datum}
variable {id other : Nat} {c : String}

namespace Rebuilt

theorem mono (r : Rebuilt f h v w) (within : h.Within g) : Rebuilt f g v w := by
  induction r with
  | whole single => exact .whole single
  | float x i j => exact .float x i j
  | list i j length _ ih => exact .list i j length ih
  | tuple i j length _ ih => exact .tuple i j length ih
  | dict i j length _ _ ihk ihv => exact .dict i j length ihk ihv
  | object s t length _ ih => exact .object (s.mono within) (t.mono within) length ih

theorem of_forall₂_list (each : List.Forall₂ (Rebuilt f h) xs ys) (i j : Nat) :
    Rebuilt f h (.list xs i) (.list ys j) :=
  .list i j each.length_eq fun _ mem => (List.forall₂_iff_zip.1 each).2 mem

theorem of_forall₂_tuple (each : List.Forall₂ (Rebuilt f h) xs ys) (i j : Nat) :
    Rebuilt f h (.tuple xs i) (.tuple ys j) :=
  .tuple i j each.length_eq fun _ mem => (List.forall₂_iff_zip.1 each).2 mem

theorem of_forall₂_dict {es es' : List (Datum × Datum)}
    (each : List.Forall₂ (fun e e' => Rebuilt f h e.1 e'.1 ∧ Rebuilt f h e.2 e'.2) es es')
    (i j : Nat) : Rebuilt f h (.dict es i) (.dict es' j) :=
  .dict i j each.length_eq (fun _ mem => ((List.forall₂_iff_zip.1 each).2 mem).1)
    fun _ mem => ((List.forall₂_iff_zip.1 each).2 mem).2

theorem of_forall₂_object (s : Stores f h id c vs) (t : Stores f h other c ws)
    (each : List.Forall₂ (Rebuilt f h) vs ws) : Rebuilt f h (.object id) (.object other) :=
  .object s t each.length_eq fun _ mem => (List.forall₂_iff_zip.1 each).2 mem

theorem list_cases {i : Nat} (r : Rebuilt f h (.list xs i) y) :
    ∃ ys j, y = .list ys j ∧ List.Forall₂ (Rebuilt f h) xs ys := by
  cases r with
  | whole single => cases single
  | list _ j length each =>
    exact ⟨_, j, rfl, List.forall₂_iff_zip.2 ⟨length, fun mem => each _ mem⟩⟩

theorem tuple_cases {i : Nat} (r : Rebuilt f h (.tuple xs i) y) :
    ∃ ys j, y = .tuple ys j ∧ List.Forall₂ (Rebuilt f h) xs ys := by
  cases r with
  | whole single => cases single
  | tuple _ j length each =>
    exact ⟨_, j, rfl, List.forall₂_iff_zip.2 ⟨length, fun mem => each _ mem⟩⟩

end Rebuilt

namespace Program.Hosts

variable (o : p.Hosts f)

include o

/-- A tuple is rebuilt as one of its class that holds rebuilt values. -/
theorem rebuilt_object (s : Stores f h id c vs) (r : Rebuilt f h (.object id) y) :
    ∃ other ws, y = .object other ∧ Stores f h other c ws ∧ List.Forall₂ (Rebuilt f h) vs ws := by
  cases r with
  | whole single => cases single
  | object s' t length each =>
    obtain ⟨rfl, rfl⟩ := o.stores_unique s s'
    exact ⟨_, _, rfl, t, List.forall₂_iff_zip.2 ⟨length, fun mem => each _ mem⟩⟩

/-- Tuples of steady leaves are steady. -/
theorem steady_of_isValue (value : IsValue f h (Steady p f h) x) : Steady p f h x := by
  induction value with
  | leaf steady => exact steady
  | tuple s _ ih =>
    intro g within y r
    obtain ⟨other, ws, rfl, t, each⟩ := o.rebuilt_object (s.mono within) r
    have equal := fun v mem w r => ih v mem g within w r
    refine ⟨o.equalTo_of_values (s.mono within) t ?_, o.equalTo_of_values t (s.mono within) ?_⟩
    · exact forall₂_imp each fun v mem w _ r => .inr (equal v mem w r).1
    · exact List.Forall₂.flip (forall₂_imp each fun v mem w _ r => .inr (equal v mem w r).2)

/-- A rebuilt tuple of steady leaves is a copy of the old one. -/
theorem isCopy_of_rebuilt (t : IsTuple f h (Steady p f h) id c vs) (within : h.Within g)
    (r : Rebuilt f g (.object id) y) : IsCopy p f g c (.object id) y := by
  obtain ⟨equal, equalBack⟩ := o.steady_of_isValue t.isValue g within y r
  obtain ⟨other, ws, rfl, s, -⟩ := o.rebuilt_object (t.stores.mono within) r
  exact ⟨⟨other, ws, rfl, s⟩, equal, equalBack⟩

end Program.Hosts

/-! ## Steady leaves -/

/-- Atoms that are equal to themselves are equal to what they are rebuilt as. -/
theorem steady_atom (atom : v.IsAtom) (proper : Datum.atomEqual v v = true) : Steady p f h v := by
  intro g _ w r
  cases r with
  | whole _ => exact ⟨(equalTo_atom atom atom).2 proper, (equalTo_atom atom atom).2 proper⟩
  | float x i j =>
    exact ⟨(equalTo_atom (.float x i) (.float x j)).2 proper,
      (equalTo_atom (.float x j) (.float x i)).2 proper⟩
  | list => cases atom
  | tuple => cases atom
  | dict => cases atom
  | object => cases atom

/-- Lists of steady values are steady. -/
theorem steady_list (each : ∀ x ∈ xs, Steady p f h x) (i : Nat) : Steady p f h (.list xs i) := by
  intro g within w r
  obtain ⟨ys, j, rfl, rebuilt⟩ := r.list_cases
  have equal := fun x mem y r => each x mem g within y r
  simp only [EqualTo, Leaves.equal_list]
  refine ⟨equalTo_tuple ?_ 0 0, equalTo_tuple ?_ 0 0⟩
  · exact forall₂_imp rebuilt fun x mem y _ r => .inr (equal x mem y r).1
  · exact List.Forall₂.flip (forall₂_imp rebuilt fun x mem y _ r => .inr (equal x mem y r).2)

end Polyad.Machine
