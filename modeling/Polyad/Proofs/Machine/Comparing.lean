import Mathlib.Data.List.Nodup
import Polyad.Proofs.Machine.Answers
import Polyad.Proofs.Machine.Hosting

/-!
# Comparing and hashing tuples

The outcome of comparing any two tuples of a family, open-ended ones included, in a program that can
tell their classes from each other and from native types. Tuples of one class are compared like
native tuples of their values and have the hash of such a tuple, but all null tuples hash to 0.
-/

namespace Polyad.Machine

open Code Generated

/-- An instance of a class of tuples, with the values it holds. -/
inductive Stores (f : Family) (h : Heap) (id : Nat) : String → List Datum → Prop
  | null {m : Member} : m ∈ f.members → m.arity = 0 → Holds h id m [] →
      Stores f h id m.className []
  | proper {m : Member} {vs : List Datum} : m ∈ f.proper → Holds h id m vs →
      Stores f h id m.className vs
  | openEnded {vs : List Datum} : HoldsOpen h id vs → Stores f h id Support.openClass vs

/-- The class of the tuples without values of a family. -/
def IsNullClass (f : Family) (c : String) : Prop := (f.get? 0).map (·.className) = some c

instance (f : Family) (c : String) : Decidable (IsNullClass f c) :=
  inferInstanceAs (Decidable (_ = _))

/-- The hash of a tuple of a class from those of its values. -/
def tupleDigest (f : Family) (c : String) (ds : List Digest) : Digest :=
  if IsNullClass f c then .number 0 else .ofItems ds

variable {p : Program} {f : Family} {h g : Heap} {id other : Nat} {c d : String}
variable {vs ws : List Datum}

namespace Stores

/-- What a tuple stores is seen on the instances of the heap. -/
theorem of_instances (s : Stores f h id c vs) (same : g.instances = h.instances) :
    Stores f g id c vs := by
  have at_id : g.get? id = h.get? id := by rw [Heap.get?, Heap.get?, same]
  cases s with
  | null mem arity held => exact .null mem arity (held.of_get? at_id)
  | proper mem held => exact .proper mem (held.of_get? at_id)
  | openEnded held => exact .openEnded (held.of_get? at_id)

theorem mem_classes (s : Stores f h id c vs) : c ∈ tupleClasses f := by
  cases s with
  | null mem _ _ => exact mem_tupleClasses mem
  | proper mem _ => exact mem_tupleClasses (Family.mem_proper_iff.1 mem).1
  | openEnded _ => exact List.mem_cons_self

theorem exists_instance (s : Stores f h id c vs) : ∃ i, h.get? id = some i ∧ i.className = c := by
  cases s with
  | null _ _ held =>
    obtain ⟨i, found, class_eq, -⟩ := held
    exact ⟨i, found, class_eq⟩
  | proper _ held =>
    obtain ⟨i, found, class_eq, -⟩ := held
    exact ⟨i, found, class_eq⟩
  | openEnded held =>
    obtain ⟨i, -, found, class_eq, -⟩ := held
    exact ⟨i, found, class_eq⟩

end Stores

namespace Program.Hosts

variable (o : p.Hosts f)

include o

/-! ## Kinds of tuples -/

theorem eq_of_className {m m' : Member} (mem : m ∈ f.members) (mem' : m' ∈ f.members)
    (eq : m.className = m'.className) : m = m' :=
  List.inj_on_of_nodup_map (List.nodup_cons.1 o.distinct).2 mem mem' eq

theorem className_ne_open {m : Member} (mem : m ∈ f.members) :
    m.className ≠ Support.openClass := fun eq =>
  (List.nodup_cons.1 o.distinct).1 (eq ▸ List.mem_map_of_mem (f := Member.className) mem)

/-- What a tuple of the class of a null member stores. -/
theorem stores_null {m : Member} (mem : m ∈ f.members) (arity : m.arity = 0)
    (s : Stores f h id m.className vs) : vs = [] ∧ Holds h id m [] := by
  generalize eq : m.className = c at s
  cases s with
  | null mem' _ held =>
    cases o.eq_of_className mem mem' eq
    exact ⟨rfl, held⟩
  | proper mem' _ =>
    obtain ⟨own, nonzero⟩ := Family.mem_proper_iff.1 mem'
    cases o.eq_of_className mem own eq
    exact absurd arity nonzero
  | openEnded _ => exact absurd eq (o.className_ne_open mem)

theorem stores_proper {m : Member} (mem : m ∈ f.proper) (s : Stores f h id m.className vs) :
    Holds h id m vs := by
  obtain ⟨own, nonzero⟩ := Family.mem_proper_iff.1 mem
  generalize eq : m.className = c at s
  cases s with
  | null mem' arity _ =>
    cases o.eq_of_className own mem' eq
    exact absurd arity nonzero
  | proper mem' held =>
    cases o.eq_of_className own (Family.mem_proper_iff.1 mem').1 eq
    exact held
  | openEnded _ => exact absurd eq (o.className_ne_open own)

theorem stores_open (s : Stores f h id Support.openClass vs) : HoldsOpen h id vs := by
  generalize eq : Support.openClass = c at s
  cases s with
  | null mem _ _ => exact absurd eq.symm (o.className_ne_open mem)
  | proper mem _ => exact absurd eq.symm (o.className_ne_open (Family.mem_proper_iff.1 mem).1)
  | openEnded held => exact held

theorem isNullClass_iff {m : Member} (mem : m ∈ f.members) :
    IsNullClass f m.className ↔ m.arity = 0 := by
  constructor
  · intro eq
    obtain ⟨null, found, eq⟩ := Option.map_eq_some_iff.1 eq
    rw [← o.eq_of_className (Family.mem_of_get? found) mem eq, Family.arity_of_get? found]
  · intro arity
    rw [IsNullClass, ← arity, Family.get?_arity mem]
    rfl

theorem not_isNullClass_open : ¬IsNullClass f Support.openClass := by
  intro eq
  obtain ⟨null, found, eq⟩ := Option.map_eq_some_iff.1 eq
  exact o.className_ne_open (Family.mem_of_get? found) eq

theorem values_of_isNullClass (s : Stores f h id c vs) (null : IsNullClass f c) : vs = [] := by
  cases s with
  | null _ _ _ => rfl
  | proper mem _ =>
    obtain ⟨own, nonzero⟩ := Family.mem_proper_iff.1 mem
    exact absurd ((o.isNullClass_iff own).1 null) nonzero
  | openEnded _ => exact absurd null o.not_isNullClass_open

/-- An instance stores the values of one tuple only. -/
theorem stores_unique (s : Stores f h id c vs) (t : Stores f h id d ws) : c = d ∧ vs = ws := by
  obtain ⟨i, found, rfl⟩ := s.exists_instance
  obtain ⟨j, found', rfl⟩ := t.exists_instance
  cases found.symm.trans found'
  refine ⟨rfl, ?_⟩
  generalize i.className = c at s t
  cases s with
  | null mem arity _ => exact (o.stores_null mem arity t).1.symm
  | proper mem held =>
    obtain ⟨i, there, -, values⟩ := held
    obtain ⟨j, there', -, values'⟩ := o.stores_proper mem t
    cases there.symm.trans there'
    exact List.map_injective_iff.2 (fun _ _ => Option.some.inj) (values.symm.trans values')
  | openEnded held =>
    obtain ⟨i, label, there, -, value⟩ := held
    obtain ⟨j, label', there', -, value'⟩ := o.stores_open t
    cases there.symm.trans there'
    cases value.symm.trans value'
    rfl

theorem isInstance_tuple (s : Stores f h id c vs) (mem : d ∈ tupleClasses f) (n : Nat) :
    (Context.withDepth p n).isInstance (.object id) d h = (.ok (decide (c = d)), h) := by
  have kind : p.isKindOf c d = decide (c = d) := by
    rw [Bool.eq_iff_iff, decide_eq_true_iff]
    refine ⟨o.apart c s.mem_classes d mem, ?_⟩
    rintro rfl
    exact isKindOf_refl p c
  obtain ⟨i, found, rfl⟩ := s.exists_instance
  rw [Context.isInstance_object found, Context.program_withDepth, kind]

theorem isInstance_native {v : Datum} (native : v.IsNative) (mem : d ∈ tupleClasses f)
    (cx : Context) : cx.isInstance v d h = (.ok false, h) := by
  have absent : v.nativeTypes.contains d = false := by
    rw [← Bool.not_eq_true, List.contains_iff_mem]
    exact fun listed => o.foreign d mem (v.nativeTypes_subset listed)
  have answer : cx.isInstance v d = pure (v.nativeTypes.contains d) := by
    cases v
    case object id => exact absurd rfl (native id)
    all_goals rfl
  rw [answer, absent]
  rfl

/-! ## Asking -/

theorem ask_self (s : Stores f h id c vs) (n : Nat) :
    (Context.withDepth p (n + 1)).ask (.object id) (.object id) h = (.ok (.bool true), h) := by
  have kind := o.isInstance_tuple s s.mem_classes n
  rw [decide_eq_true rfl] at kind
  cases s with
  | null mem arity held =>
    obtain ⟨next, contract, concrete, e⟩ := o.null _ mem arity
    exact e.ask_null held (o.means _ mem _ _) kind
  | proper mem held =>
    obtain ⟨contract, concrete, e⟩ := o.proper _ mem
    rw [e.ask_eq held, e.callMethod_equal_self held n]
  | openEnded held => exact o.undisturbed.ask_open_self held n

/-- Tuples deny being equal to what is not of their class. -/
theorem ask_foreign (s : Stores f h id c vs) {y : Datum} (ne : .object id ≠ y) {n : Nat}
    (kind : (Context.withDepth p n).isInstance y c h = (.ok false, h)) :
    ∃ a, Denies a ∧ (Context.withDepth p (n + 1)).ask (.object id) y h = (.ok a, h) := by
  cases s with
  | null mem arity held =>
    obtain ⟨next, contract, concrete, e⟩ := o.null _ mem arity
    exact ⟨_, .inr rfl, e.ask_null held (o.means _ mem _ _) kind⟩
  | proper mem held =>
    obtain ⟨contract, concrete, e⟩ := o.proper _ mem
    have own := (Family.mem_proper_iff.1 mem).1
    have called := e.callMethod_equal_foreign held ne (o.means _ own _ _) kind
    exact ⟨_, .inl rfl, (e.ask_eq held y n).trans called⟩
  | openEnded held => exact ⟨_, .inl rfl, o.undisturbed.ask_open_foreign held ne kind⟩

/-- Tuples of one class are compared by their values. -/
theorem ask_kin (s : Stores f h id c vs) (t : Stores f h other c ws) (ne : id ≠ other) (n : Nat) :
    ∃ g : Heap, g.instances = h.instances ∧
      (Context.withDepth p (n + 1)).ask (.object id) (.object other) h =
        (do return Datum.bool (← (Context.withDepth p n).equal (.tuple vs 0) (.tuple ws 0))) g := by
  have kind := o.isInstance_tuple t s.mem_classes n
  rw [decide_eq_true rfl] at kind
  cases s with
  | null mem arity held =>
    obtain ⟨rfl, -⟩ := o.stores_null mem arity t
    obtain ⟨next, contract, concrete, e⟩ := o.null _ mem arity
    refine ⟨h, rfl, (e.ask_null held (o.means _ mem _ _) kind).trans ?_⟩
    simp only [Context.equal, Context.equalItems]
    rfl
  | proper mem held =>
    obtain ⟨contract, concrete, e⟩ := o.proper _ mem
    have own := (Family.mem_proper_iff.1 mem).1
    have called := e.callMethod_equal held (o.stores_proper mem t) ne (o.means _ own _ _) n
    rw [Context.equal_tuple] at called
    exact ⟨h.labelled.labelled, rfl, (e.ask_eq held _ n).trans called⟩
  | openEnded held =>
    exact ⟨h, rfl, o.undisturbed.ask_open_kin held (o.stores_open t) ne kind⟩

/-! ## Equality -/

theorem equalTo_self (s : Stores f h id c vs) : EqualTo p h (.object id) (.object id) := by
  refine .of_answer fun n g same => ?_
  exact Context.negotiate_of_bool (b := pure true) (o.ask_self (s.of_instances same) n)

/-- Tuples of one class are equal or not as native tuples of their values are. -/
theorem equal_kin (s : Stores f h id c vs) (t : Stores f h other c ws) (ne : id ≠ other)
    {r : Except Fault Bool}
    (inner : Yields p h (fun cx => cx.equal (.tuple vs 0) (.tuple ws 0)) r) :
    Yields p h (fun cx => cx.equal (.object id) (.object other)) r := by
  refine inner.of_call fun n g same => ?_
  obtain ⟨g', same', asked⟩ := o.ask_kin (s.of_instances same) (t.of_instances same) ne n
  exact ⟨g', same'.trans same, Context.negotiate_of_bool asked⟩

/-- Tuples of different classes differ. -/
theorem differs_kinds (s : Stores f h id c vs) (t : Stores f h other d ws) (ne : c ≠ d) :
    Differs p h (.object id) (.object other) := by
  have apart : Datum.object id ≠ .object other := by
    intro eq
    injection eq with eq
    subst eq
    exact ne (o.stores_unique s t).1
  refine .of_answer fun n g same => ?_
  have mine := s.of_instances same
  have theirs := t.of_instances same
  have kind := o.isInstance_tuple theirs s.mem_classes n
  have kind' := o.isInstance_tuple mine t.mem_classes n
  rw [decide_eq_false ne.symm] at kind
  rw [decide_eq_false ne] at kind'
  obtain ⟨a, first, asked⟩ := o.ask_foreign mine apart kind
  obtain ⟨b, second, askedBack⟩ := o.ask_foreign theirs apart.symm kind'
  exact Context.negotiate_of_denies apart asked first askedBack second

/-- A tuple differs from everything native, whichever side is asked first. -/
theorem differs_native (s : Stores f h id c vs) {v : Datum} (native : v.IsNative) :
    Differs p h (.object id) v ∧ Differs p h v (.object id) := by
  have apart : Datum.object id ≠ v := (native id).symm
  have silent (cx : Context) (g : Heap) : cx.ask v (.object id) g = (.ok .notImplemented, g) := by
    cases v
    case object j => exact absurd rfl (native j)
    all_goals rfl
  have asked (n : Nat) (g : Heap) (same : g.instances = h.instances) := o.ask_foreign
    (s.of_instances same) apart (o.isInstance_native native s.mem_classes (.withDepth p n))
  constructor
  · refine .of_answer fun n g same => ?_
    obtain ⟨a, denies, answer⟩ := asked n g same
    have negotiated := Context.negotiate_of_denies apart answer denies (silent _ g) (.inl rfl)
    cases v <;> exact negotiated
  · refine .of_answer fun n g same => ?_
    obtain ⟨a, denies, answer⟩ := asked n g same
    have negotiated := Context.negotiate_of_denies apart.symm (silent _ g) (.inl rfl) answer denies
    cases v <;> exact negotiated

/-- Tuples are equal if they are of one class and their values are the same one by one. -/
theorem equalTo_of_values (s : Stores f h id c vs) (t : Stores f h other c ws)
    (same : List.Forall₂ (Same p h) vs ws) : EqualTo p h (.object id) (.object other) := by
  by_cases eq : id = other
  · subst eq
    exact o.equalTo_self s
  · exact o.equal_kin s t eq (equalTo_tuple same 0 0)

theorem differs_of_values (s : Stores f h id c vs) (t : Stores f h other c ws)
    (compared : ∀ v ∈ vs, ∀ w ∈ ws, Comparable p h v w)
    (ne : ¬List.Forall₂ (Same p h) vs ws) : Differs p h (.object id) (.object other) := by
  have apart : id ≠ other := by
    rintro rfl
    obtain ⟨-, rfl⟩ := o.stores_unique s t
    exact ne (List.forall₂_same.2 fun v _ => .refl v)
  exact o.equal_kin s t apart (differs_tuple compared ne 0 0)

/-- Tuples whose values can be compared are equal exactly if they are of one class and their values
are the same one by one, and differ otherwise. -/
theorem equal_cases (s : Stores f h id c vs) (t : Stores f h other d ws)
    (compared : ∀ v ∈ vs, ∀ w ∈ ws, Comparable p h v w) :
    ((c = d ∧ List.Forall₂ (Same p h) vs ws) ∧ EqualTo p h (.object id) (.object other)) ∨
      (¬(c = d ∧ List.Forall₂ (Same p h) vs ws) ∧ Differs p h (.object id) (.object other)) := by
  by_cases kind : c = d
  · subst kind
    by_cases same : List.Forall₂ (Same p h) vs ws
    · exact .inl ⟨⟨rfl, same⟩, o.equalTo_of_values s t same⟩
    · exact .inr ⟨fun both => same both.2, o.differs_of_values s t compared same⟩
  · exact .inr ⟨fun both => kind both.1, o.differs_kinds s t kind⟩

/-! ## Hashes -/

/-- Hashing a tuple: null tuples hash to 0, others as native tuples of their values do. -/
theorem digest_cases (s : Stores f h id c vs) :
    (IsNullClass f c ∧ HashesTo p h (.object id) (.number 0)) ∨
    (¬IsNullClass f c ∧ ∀ r,
      Yields p h (fun cx => cx.digest (.tuple vs 0)) r →
      Yields p h (fun cx => cx.digest (.object id)) r) := by
  cases s with
  | null mem arity held =>
    obtain ⟨next, contract, concrete, e⟩ := o.null _ mem arity
    refine .inl ⟨(o.isNullClass_iff mem).2 arity, .of_answer fun n g same => ?_⟩
    exact e.digest_null (held.of_get? (by rw [Heap.get?, Heap.get?, same])) n
  | proper mem held =>
    obtain ⟨contract, concrete, e⟩ := o.proper _ mem
    obtain ⟨own, nonzero⟩ := Family.mem_proper_iff.1 mem
    refine .inr ⟨mt (o.isNullClass_iff own).1 nonzero, fun r => .of_call fun n g same => ?_⟩
    have there : Holds g id _ vs := held.of_get? (by rw [Heap.get?, Heap.get?, same])
    exact ⟨g.labelled, same, e.digest_eq there n⟩
  | openEnded held =>
    refine .inr ⟨o.not_isNullClass_open, fun r => .of_call fun n g same => ⟨g, same, ?_⟩⟩
    exact o.undisturbed.digest_open (held.of_get? (by rw [Heap.get?, Heap.get?, same])) n

theorem hashesTo_object (s : Stores f h id c vs) {ds : List Digest}
    (each : List.Forall₂ (HashesTo p h) vs ds) :
    HashesTo p h (.object id) (tupleDigest f c ds) := by
  rw [tupleDigest]
  obtain ⟨null, hash⟩ | ⟨nonnull, calls⟩ := o.digest_cases s
  · rw [if_pos null]
    exact hash
  · rw [if_neg nonnull]
    exact calls _ (hashesTo_tuple each 0)

/-- Hashing a tuple fails if hashing one of its values does. -/
theorem unhashable_object (s : Stores f h id c vs) (hashed : ∀ v ∈ vs, Hashed p h v)
    (fails : ∃ v ∈ vs, Unhashable p h v) : Unhashable p h (.object id) := by
  obtain ⟨null, -⟩ | ⟨-, calls⟩ := o.digest_cases s
  · simp [o.values_of_isNullClass s null] at fails
  · obtain ⟨fault, error⟩ := unhashable_tuple hashed fails 0
    exact ⟨fault, calls _ error⟩

/-- Tuples of one class whose values hash alike one by one hash alike. -/
theorem hashAlike_of_values (s : Stores f h id c vs) (t : Stores f h other c ws)
    (hashed : ∀ v ∈ vs, Hashed p h v) (hashed' : ∀ w ∈ ws, Hashed p h w)
    (alike : List.Forall₂ (HashAlike p h) vs ws) :
    HashAlike p h (.object id) (.object other) := by
  obtain ⟨ds, mine, theirs⟩ | ⟨mine, theirs⟩ := hashes_of_hashAlike alike
  · exact .inr ⟨_, o.hashesTo_object s mine, o.hashesTo_object t theirs⟩
  · exact .inl ⟨o.unhashable_object s hashed mine, o.unhashable_object t hashed' theirs⟩

/-- A tuple has a hash exactly if all its values have one. -/
theorem hash_cases (s : Stores f h id c vs) (hashed : ∀ v ∈ vs, Hashed p h v) :
    (∃ d, HashesTo p h (.object id) d) ∨
      ((∃ v ∈ vs, Unhashable p h v) ∧ Unhashable p h (.object id)) := by
  by_cases fails : ∃ v ∈ vs, Unhashable p h v
  · exact .inr ⟨fails, o.unhashable_object s hashed fails⟩
  · have all : ∀ v ∈ vs, ∃ d, HashesTo p h v d := fun v mem =>
      (hashed v mem).resolve_right fun unhashable => fails ⟨v, mem, unhashable⟩
    obtain ⟨ds, each⟩ := exists_hashes all
    exact .inl ⟨_, o.hashesTo_object s each⟩

end Program.Hosts
end Polyad.Machine
