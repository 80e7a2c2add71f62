import Mathlib.Data.List.Forall2
import Polyad.Proofs.Machine.Steps

/-!
# Outcomes of comparing and hashing

What an operation comes to once calls may stand deeply enough inside each other. Comparing and
hashing put values together on the way and so use up labels, but the instances on the heap stay as
they are. Lists of values are compared and hashed one value after another.
-/

namespace Polyad.Machine

variable {p : Program} {h : Heap} {α β : Type}

/-- An operation comes to a result on the instances of a heap: so it is at every sufficient depth of
calls, whatever labels and warnings there are, and it leaves the instances as they are. -/
def Yields (p : Program) (h : Heap) (run : Context → Exec α) (r : Except Fault α) : Prop :=
  ∃ k, ∀ n ≥ k, ∀ g : Heap, g.instances = h.instances →
    ∃ g', run (Context.withDepth p n) g = (r, g') ∧ g'.instances = h.instances

namespace Yields

theorem pure (a : α) : Yields p h (fun _ => Pure.pure a) (.ok a) :=
  ⟨0, fun _ _ g same => ⟨g, rfl, same⟩⟩

/-- An operation comes to one result only. -/
theorem unique {run : Context → Exec α} {r r' : Except Fault α} (first : Yields p h run r)
    (second : Yields p h run r') : r = r' := by
  obtain ⟨k, first⟩ := first
  obtain ⟨l, second⟩ := second
  obtain ⟨g, ran, -⟩ := first (max k l) (Nat.le_max_left k l) h rfl
  obtain ⟨g', ran', -⟩ := second (max k l) (Nat.le_max_right k l) h rfl
  rw [ran] at ran'
  exact congrArg Prod.fst ran'

theorem bind {run : Context → Exec α} {next : α → Context → Exec β} {a : α} {r : Except Fault β}
    (step : Yields p h run (.ok a)) (rest : Yields p h (next a) r) :
    Yields p h (fun cx => run cx >>= fun a => next a cx) r := by
  obtain ⟨k, step⟩ := step
  obtain ⟨l, rest⟩ := rest
  refine ⟨max k l, fun n le g same => ?_⟩
  obtain ⟨g₁, ran, same₁⟩ := step n (Nat.le_trans (Nat.le_max_left k l) le) g same
  obtain ⟨g₂, ran', same₂⟩ := rest n (Nat.le_trans (Nat.le_max_right k l) le) g₁ same₁
  exact ⟨g₂, (Exec.bind_ok ran).trans ran', same₂⟩

theorem bind_error {run : Context → Exec α} (next : α → Context → Exec β) {e : Fault}
    (step : Yields p h run (.error e)) :
    Yields p h (fun cx => run cx >>= fun a => next a cx) (.error e) := by
  obtain ⟨k, step⟩ := step
  refine ⟨k, fun n le g same => ?_⟩
  obtain ⟨g', ran, same'⟩ := step n le g same
  exact ⟨g', Exec.bind_error ran, same'⟩

/-- What runs on like another operation one call further in comes to the same. -/
theorem of_call {run run' : Context → Exec α} {r : Except Fault α}
    (calls : ∀ n g, g.instances = h.instances → ∃ g', g'.instances = h.instances ∧
      run (Context.withDepth p (n + 1)) g = run' (Context.withDepth p n) g')
    (inner : Yields p h run' r) : Yields p h run r := by
  obtain ⟨k, inner⟩ := inner
  refine ⟨k + 1, fun n le g same => ?_⟩
  obtain ⟨n, rfl⟩ : ∃ m, n = m + 1 := ⟨n - 1, by omega⟩
  obtain ⟨g', same', eq⟩ := calls n g same
  obtain ⟨g'', ran, same''⟩ := inner n (by omega) g' same'
  exact ⟨g'', eq.trans ran, same''⟩

/-- What comes to a result one call further in, and leaves no trace. -/
theorem of_answer {run : Context → Exec α} {r : Except Fault α}
    (answers : ∀ n g, g.instances = h.instances → run (Context.withDepth p (n + 1)) g = (r, g)) :
    Yields p h run r := by
  refine ⟨1, fun n le g same => ⟨g, ?_, same⟩⟩
  obtain ⟨n, rfl⟩ : ∃ m, n = m + 1 := ⟨n - 1, by omega⟩
  exact answers n g same

end Yields

/-! ## Equality and hashes of values -/

def EqualTo (p : Program) (h : Heap) (x y : Datum) : Prop :=
  Yields p h (fun cx => cx.equal x y) (.ok true)

def Differs (p : Program) (h : Heap) (x y : Datum) : Prop :=
  Yields p h (fun cx => cx.equal x y) (.ok false)

/-- Comparing two values gives an answer. -/
def Comparable (p : Program) (h : Heap) (x y : Datum) : Prop := EqualTo p h x y ∨ Differs p h x y

/-- Two values are one and the same or compare equal. -/
def Same (p : Program) (h : Heap) (x y : Datum) : Prop := x.identical y = true ∨ EqualTo p h x y

def HashesTo (p : Program) (h : Heap) (x : Datum) (d : Digest) : Prop :=
  Yields p h (fun cx => cx.digest x) (.ok d)

/-- Hashing a value fails. -/
def Unhashable (p : Program) (h : Heap) (x : Datum) : Prop :=
  ∃ e, Yields p h (fun cx => cx.digest x) (.error e)

/-- Hashing a value gives a hash or fails. -/
def Hashed (p : Program) (h : Heap) (x : Datum) : Prop :=
  (∃ d, HashesTo p h x d) ∨ Unhashable p h x

/-- Either neither of two values has a hash, or both have the same. -/
def HashAlike (p : Program) (h : Heap) (x y : Datum) : Prop :=
  (Unhashable p h x ∧ Unhashable p h y) ∨ ∃ d, HashesTo p h x d ∧ HashesTo p h y d

/-- A value that is not an instance of a class on the heap. -/
def Datum.IsNative (v : Datum) : Prop := ∀ id, v ≠ .object id

variable {x y z : Datum} {xs ys : List Datum} {d : Digest}

theorem EqualTo.not_differs (equal : EqualTo p h x y) : ¬Differs p h x y := fun differs => by
  cases equal.unique differs

theorem Comparable.differs (compared : Comparable p h x y) (ne : ¬EqualTo p h x y) :
    Differs p h x y := compared.resolve_left ne

theorem HashesTo.not_unhashable (hash : HashesTo p h x d) : ¬Unhashable p h x := by
  rintro ⟨e, fails⟩
  cases hash.unique fails

theorem Hashed.hashAlike (hashed : Hashed p h x) : HashAlike p h x x := by
  rcases hashed with ⟨d, hash⟩ | fails
  · exact .inr ⟨d, hash, hash⟩
  · exact .inl ⟨fails, fails⟩

theorem HashAlike.hashesTo (alike : HashAlike p h x y) (hash : HashesTo p h x d) :
    HashesTo p h y d := by
  obtain ⟨fails, -⟩ | ⟨d', first, second⟩ := alike
  · exact absurd fails hash.not_unhashable
  · cases hash.unique first
    exact second

theorem Same.refl (x : Datum) : Same p h x x := .inl (Datum.identical_iff.2 rfl)

theorem Same.flip (same : Same p h x y) (symm : EqualTo p h x y → EqualTo p h y x) :
    Same p h y x := by
  rcases same with eq | equal
  · rw [Datum.identical_iff] at eq
    rw [eq]
    exact .refl y
  · exact .inr (symm equal)

theorem Same.trans (first : Same p h x y) (second : Same p h y z)
    (trans : EqualTo p h x y → EqualTo p h y z → EqualTo p h x z) : Same p h x z := by
  rcases first with eq | equal
  · rw [Datum.identical_iff] at eq
    rwa [eq]
  · rcases second with eq | equal'
    · rw [Datum.identical_iff] at eq
      rw [← eq]
      exact .inr equal
    · exact .inr (trans equal equal')

theorem Same.hashAlike (same : Same p h x y) (hashed : Hashed p h x)
    (alike : EqualTo p h x y → HashAlike p h x y) : HashAlike p h x y := by
  rcases same with eq | equal
  · rw [Datum.identical_iff] at eq
    rw [← eq]
    exact hashed.hashAlike
  · exact alike equal

/-! ## Lists of values -/

section

variable {R S : α → α → Prop} {xs ys zs : List α}

theorem forall₂_imp (related : List.Forall₂ R xs ys)
    (imp : ∀ x ∈ xs, ∀ y ∈ ys, R x y → S x y) : List.Forall₂ S xs ys := by
  induction related with
  | nil => exact .nil
  | cons head _ ih =>
    refine .cons (imp _ List.mem_cons_self _ List.mem_cons_self head) (ih fun x hx y hy => ?_)
    exact imp x (List.mem_cons_of_mem _ hx) y (List.mem_cons_of_mem _ hy)

theorem forall₂_trans (first : List.Forall₂ R xs ys) (second : List.Forall₂ R ys zs)
    (trans : ∀ x ∈ xs, ∀ y ∈ ys, ∀ z ∈ zs, R x y → R y z → S x z) : List.Forall₂ S xs zs := by
  induction first generalizing zs with
  | nil =>
    cases second
    exact .nil
  | cons head _ ih =>
    cases second with
    | cons head' rest =>
      refine .cons (trans _ List.mem_cons_self _ List.mem_cons_self _ List.mem_cons_self head head')
        (ih rest fun x hx y hy z hz => ?_)
      exact trans x (List.mem_cons_of_mem _ hx) y (List.mem_cons_of_mem _ hy) z
        (List.mem_cons_of_mem _ hz)

end

theorem yields_same_true (same : Same p h x y) : Yields p h (fun cx => cx.same x y) (.ok true) := by
  by_cases identical : x.identical y = true
  · simp only [Context.same, if_pos identical]
    exact .pure true
  · simp only [Context.same, if_neg identical]
    exact same.resolve_left identical

theorem yields_same_false (compared : Comparable p h x y) (ne : ¬Same p h x y) :
    Yields p h (fun cx => cx.same x y) (.ok false) := by
  simp only [Context.same, if_neg fun identical => ne (.inl identical)]
  exact compared.differs fun equal => ne (.inr equal)

/-- Lists match if their values do one by one. -/
theorem yields_equalItems_true (same : List.Forall₂ (Same p h) xs ys) :
    Yields p h (fun cx => cx.equalItems xs ys) (.ok true) := by
  induction same with
  | nil =>
    simp only [Context.equalItems]
    exact .pure true
  | cons head _ ih =>
    simp only [Context.equalItems_cons]
    refine Yields.bind (yields_same_true head) ?_
    exact ih

/-- Lists whose values can be compared do not match if those values do not. -/
theorem yields_equalItems_false (compared : ∀ x ∈ xs, ∀ y ∈ ys, Comparable p h x y)
    (ne : ¬List.Forall₂ (Same p h) xs ys) :
    Yields p h (fun cx => cx.equalItems xs ys) (.ok false) := by
  induction xs generalizing ys with
  | nil =>
    cases ys with
    | nil => exact absurd .nil ne
    | cons y ys =>
      simp only [Context.equalItems]
      exact .pure false
  | cons x xs ih =>
    cases ys with
    | nil =>
      simp only [Context.equalItems]
      exact .pure false
    | cons y ys =>
      have head := compared x List.mem_cons_self y List.mem_cons_self
      simp only [Context.equalItems_cons]
      by_cases same : Same p h x y
      · have rest := ih (fun u hu v hv => compared u (List.mem_cons_of_mem _ hu) v
          (List.mem_cons_of_mem _ hv)) fun tail => ne (.cons same tail)
        refine Yields.bind (yields_same_true same) ?_
        exact rest
      · refine Yields.bind (yields_same_false head same) ?_
        exact .pure false

/-- Native tuples are equal if their items match. -/
theorem equalTo_tuple (same : List.Forall₂ (Same p h) xs ys) (i j : Nat) :
    EqualTo p h (.tuple xs i) (.tuple ys j) := by
  simp only [EqualTo, Context.equal, beq_iff_eq, if_pos same.length_eq]
  exact yields_equalItems_true same

/-- Native tuples of values that can be compared differ if their items do not match. -/
theorem differs_tuple (compared : ∀ x ∈ xs, ∀ y ∈ ys, Comparable p h x y)
    (ne : ¬List.Forall₂ (Same p h) xs ys) (i j : Nat) :
    Differs p h (.tuple xs i) (.tuple ys j) := by
  simp only [Differs, Context.equal, beq_iff_eq]
  split
  · exact yields_equalItems_false compared ne
  · exact .pure false

theorem yields_digests {ds : List Digest} (each : List.Forall₂ (HashesTo p h) xs ds) :
    Yields p h (fun cx => cx.digests xs) (.ok ds) := by
  induction each with
  | nil =>
    simp only [Context.digests]
    exact .pure []
  | cons head _ ih =>
    simp only [Context.digests]
    exact head.bind (ih.bind (.pure _))

/-- Hashing a list fails if hashing one of its values does. -/
theorem yields_digests_error (hashed : ∀ x ∈ xs, Hashed p h x)
    (fails : ∃ x ∈ xs, Unhashable p h x) :
    ∃ e, Yields p h (fun cx => cx.digests xs) (.error e) := by
  induction xs with
  | nil => simp at fails
  | cons x xs ih =>
    simp only [Context.digests]
    rcases hashed x List.mem_cons_self with ⟨d, head⟩ | ⟨e, head⟩
    · have later : ∃ y ∈ xs, Unhashable p h y := by
        obtain ⟨y, mem, unhashable⟩ := fails
        rcases List.mem_cons.1 mem with rfl | mem
        · exact absurd unhashable head.not_unhashable
        · exact ⟨y, mem, unhashable⟩
      obtain ⟨e, rest⟩ := ih (fun y mem => hashed y (List.mem_cons_of_mem _ mem)) later
      exact ⟨e, head.bind (rest.bind_error _)⟩
    · exact ⟨e, head.bind_error _⟩

theorem hashesTo_tuple {ds : List Digest} (each : List.Forall₂ (HashesTo p h) xs ds) (i : Nat) :
    HashesTo p h (.tuple xs i) (.ofItems ds) := by
  simp only [HashesTo, Context.digest]
  exact (yields_digests each).bind (.pure _)

theorem unhashable_tuple (hashed : ∀ x ∈ xs, Hashed p h x) (fails : ∃ x ∈ xs, Unhashable p h x)
    (i : Nat) : Unhashable p h (.tuple xs i) := by
  obtain ⟨e, error⟩ := yields_digests_error hashed fails
  simp only [Unhashable, Context.digest]
  exact ⟨e, error.bind_error _⟩

/-- Lists whose values hash alike one by one: either all of them have hashes, the same on both
sides, or some value on each side has none. -/
theorem hashes_of_hashAlike (alike : List.Forall₂ (HashAlike p h) xs ys) :
    (∃ ds, List.Forall₂ (HashesTo p h) xs ds ∧ List.Forall₂ (HashesTo p h) ys ds) ∨
      ((∃ x ∈ xs, Unhashable p h x) ∧ ∃ y ∈ ys, Unhashable p h y) := by
  induction alike with
  | nil => exact .inl ⟨[], .nil, .nil⟩
  | cons head _ ih =>
    obtain ⟨first, second⟩ | ⟨d, first, second⟩ := head
    · exact .inr ⟨⟨_, List.mem_cons_self, first⟩, _, List.mem_cons_self, second⟩
    · obtain ⟨ds, mine, theirs⟩ | ⟨⟨x, hx, mine⟩, y, hy, theirs⟩ := ih
      · exact .inl ⟨d :: ds, .cons first mine, .cons second theirs⟩
      · exact .inr ⟨⟨x, List.mem_cons_of_mem _ hx, mine⟩, y, List.mem_cons_of_mem _ hy, theirs⟩

theorem exists_hashes (hashed : ∀ x ∈ xs, ∃ d, HashesTo p h x d) :
    ∃ ds, List.Forall₂ (HashesTo p h) xs ds := by
  induction xs with
  | nil => exact ⟨[], .nil⟩
  | cons x xs ih =>
    obtain ⟨d, head⟩ := hashed x List.mem_cons_self
    obtain ⟨ds, rest⟩ := ih fun y mem => hashed y (List.mem_cons_of_mem _ mem)
    exact ⟨d :: ds, .cons head rest⟩

end Polyad.Machine
