import Polyad.Proofs.Machine.Comparing
import Polyad.Proofs.Machine.Leaves

/-!
# Keys

What a mapping can be asked to file something under. Native values that cannot change are compared
as a whole, native tuples and the tuples of a family by what they hold; a list, a mapping or a slice
has no hash, and neither has a tuple that holds one at any depth. To be one and the same or equal is
an equivalence between all the values that have a hash.
-/

namespace Polyad.Machine

open Code Generated

namespace Datum

/-- A native value that is compared and hashed as a whole. -/
def isSimple : Datum → Bool
  | list .. | dict .. | slice .. | tuple .. | object _ => false
  | _ => true

theorem isNative_of_isSimple {v : Datum} (simple : v.isSimple = true) : v.IsNative := by
  rintro id rfl
  cases simple

theorem isNative_tuple (xs : List Datum) (i : Nat) : (tuple xs i).IsNative := nofun

theorem atomEqual_tuple {v : Datum} (simple : v.isSimple = true) (xs : List Datum) (i : Nat) :
    atomEqual v (tuple xs i) = false ∧ atomEqual (tuple xs i) v = false := by
  cases v
  case tuple ys j => cases simple
  case digest d => cases d <;> exact ⟨rfl, rfl⟩
  all_goals exact ⟨rfl, rfl⟩

end Datum

open Datum

/-- A value that can be a key: one without parts, or a tuple of such values. -/
inductive IsKey (f : Family) (h : Heap) : Datum → Prop
  | simple {v : Datum} : v.isSimple = true → IsKey f h v
  | tuple {xs : List Datum} (label : Nat) : (∀ x ∈ xs, IsKey f h x) → IsKey f h (.tuple xs label)
  | object {id : Nat} {c : String} {vs : List Datum} : Stores f h id c vs →
      (∀ v ∈ vs, IsKey f h v) → IsKey f h (.object id)

/-- Any native value, or a tuple. What stands inside a list, a mapping or a slice is of no account.
-/
inductive IsData (f : Family) (h : Heap) : Datum → Prop
  | simple {v : Datum} : v.isSimple = true → IsData f h v
  | list (items : List Datum) (label : Nat) : IsData f h (.list items label)
  | dict (entries : List (Datum × Datum)) (label : Nat) : IsData f h (.dict entries label)
  | slice (start stop step : Datum) : IsData f h (.slice start stop step)
  | tuple {xs : List Datum} (label : Nat) : (∀ x ∈ xs, IsData f h x) →
      IsData f h (.tuple xs label)
  | object {id : Nat} {c : String} {vs : List Datum} : Stores f h id c vs →
      (∀ v ∈ vs, IsData f h v) → IsData f h (.object id)

/-- Hashing a value fails as it does on what can change. -/
def Refuses (p : Program) (h : Heap) (x : Datum) : Prop :=
  Yields p h (fun cx => cx.digest x) (.error .wrongType)

variable {p : Program} {f : Family} {h : Heap} {v w x y z : Datum} {xs ys : List Datum}
variable {id other : Nat} {c d : String} {vs ws : List Datum}

theorem Refuses.unhashable (refuses : Refuses p h x) : Unhashable p h x := ⟨_, refuses⟩

theorem IsKey.items {i : Nat} (key : IsKey f h (.tuple xs i)) : ∀ x ∈ xs, IsKey f h x := by
  cases key with
  | simple simple => cases simple
  | tuple _ keys => exact keys

/-! ## Values without parts -/

namespace Context

theorem equal_simple (cx : Context) (hv : v.isSimple = true) (hw : w.IsNative) :
    cx.equal v w = pure (atomEqual v w) ∧ cx.equal w v = pure (atomEqual w v) := by
  have left : cx.equal v w = cx.equalLeaf v w := by
    cases v <;> first | rfl | cases hv
  have right : cx.equal w v = cx.equalLeaf w v := by
    cases w <;> cases v <;> first | rfl | cases hv
  have leaf {a b : Datum} (ha : a.IsNative) (hb : b.IsNative) :
      cx.equalLeaf a b = pure (atomEqual a b) := by
    rw [atomEqual, equalLeaf]
    · cases a.number? <;> cases b.number? <;> rfl
    · exact ha
    · exact hb
  have native := isNative_of_isSimple hv
  exact ⟨left.trans (leaf native hw), right.trans (leaf hw native)⟩

theorem exists_digest_simple (hv : v.isSimple = true) :
    ∃ d, ∀ cx : Context, cx.digest v = pure d := by
  cases v
  case float x label =>
    simp only [digest, leafDigest]
    split
    · exact ⟨_, fun _ => rfl⟩
    · exact ⟨_, fun _ => rfl⟩
  all_goals first | exact ⟨_, fun _ => rfl⟩ | cases hv

end Context

/-! ## Hashes of what can be a key -/

theorem yields_digests_refused (each : ∀ x ∈ xs, (∃ d, HashesTo p h x d) ∨ Refuses p h x)
    (fails : ∃ x ∈ xs, Refuses p h x) :
    Yields p h (fun cx => cx.digests xs) (.error .wrongType) := by
  induction xs with
  | nil => simp at fails
  | cons x xs ih =>
    simp only [Context.digests]
    rcases each x List.mem_cons_self with ⟨d, head⟩ | head
    · have later : ∃ y ∈ xs, Refuses p h y := by
        obtain ⟨y, mem, refuses⟩ := fails
        rcases List.mem_cons.1 mem with rfl | mem
        · exact absurd refuses.unhashable head.not_unhashable
        · exact ⟨y, mem, refuses⟩
      have rest := ih (fun y mem => each y (List.mem_cons_of_mem _ mem)) later
      exact head.bind (rest.bind_error _)
    · exact head.bind_error _

/-- A native tuple of data is a key with a hash, or it refuses to be hashed. -/
theorem hash_tuple (each : ∀ x ∈ xs, (IsKey f h x ∧ ∃ d, HashesTo p h x d) ∨ Refuses p h x) :
    ((∀ x ∈ xs, IsKey f h x) ∧ ∃ ds, List.Forall₂ (HashesTo p h) xs ds) ∨
      ∀ i, Refuses p h (.tuple xs i) := by
  by_cases fails : ∃ x ∈ xs, Refuses p h x
  · have error := yields_digests_refused (fun x mem => (each x mem).imp_left And.right) fails
    refine .inr fun i => ?_
    simp only [Refuses, Context.digest]
    exact error.bind_error _
  · have keys := fun x mem => (each x mem).resolve_right fun refuses => fails ⟨x, mem, refuses⟩
    exact .inl ⟨fun x mem => (keys x mem).1, exists_hashes fun x mem => (keys x mem).2⟩

namespace Program.Hosts

variable (o : p.Hosts f)

include o

/-- Hashing a value gives a hash, and then it can be a key, or it fails. -/
theorem hash_data (data : IsData f h x) :
    (IsKey f h x ∧ ∃ d, HashesTo p h x d) ∨ Refuses p h x := by
  have refused {v : Datum} (throws : ∀ cx : Context, cx.digest v = throw .wrongType) :
      Refuses p h v := by
    simp only [Refuses, throws]
    exact ⟨0, fun _ _ g same => ⟨g, rfl, same⟩⟩
  induction data with
  | simple simple =>
    obtain ⟨d, gives⟩ := Context.exists_digest_simple simple
    refine .inl ⟨.simple simple, d, ?_⟩
    simp only [HashesTo, gives]
    exact .pure d
  | list items label => exact .inr (refused fun _ => rfl)
  | dict entries label => exact .inr (refused fun _ => rfl)
  | slice start stop step => exact .inr (refused fun _ => rfl)
  | tuple label _ ih =>
    rcases hash_tuple ih with ⟨keys, ds, each⟩ | refuses
    · exact .inl ⟨.tuple label keys, _, hashesTo_tuple each label⟩
    · exact .inr (refuses label)
  | object s _ ih =>
    rcases o.digest_cases s with ⟨null, hash⟩ | ⟨-, calls⟩
    · have none := o.values_of_isNullClass s null
      exact .inl ⟨.object s (by simp [none]), _, hash⟩
    · rcases hash_tuple ih with ⟨keys, ds, each⟩ | refuses
      · exact .inl ⟨.object s keys, _, calls _ (hashesTo_tuple each 0)⟩
      · exact .inr (calls _ (refuses 0))

end Program.Hosts

/-! ## Equality of keys -/

/-- Equal keys: equal simple values, or tuples of one kind whose items are one and the same or equal.
-/
inductive Twins (p : Program) (f : Family) (h : Heap) : Datum → Datum → Prop
  | simple {v w : Datum} : v.isSimple = true → w.isSimple = true → atomEqual v w = true →
      Twins p f h v w
  | tuple {xs ys : List Datum} (i j : Nat) : List.Forall₂ (Same p h) xs ys →
      Twins p f h (.tuple xs i) (.tuple ys j)
  | object {id other : Nat} {c : String} {vs ws : List Datum} : Stores f h id c vs →
      Stores f h other c ws → List.Forall₂ (Same p h) vs ws →
      Twins p f h (.object id) (.object other)

namespace Program.Hosts

variable (o : p.Hosts f)

include o

theorem values_of_isKey (key : IsKey f h (.object id)) (s : Stores f h id c vs) :
    ∀ v ∈ vs, IsKey f h v := by
  cases key with
  | simple simple => cases simple
  | object t keys =>
    obtain ⟨-, rfl⟩ := o.stores_unique t s
    exact keys

theorem equalTo_of_twins (twins : Twins p f h x y) : EqualTo p h x y := by
  cases twins with
  | simple hv hw equal =>
    simp only [EqualTo, (Context.equal_simple _ hv (isNative_of_isSimple hw)).1, equal]
    exact .pure true
  | tuple i j same => exact equalTo_tuple same i j
  | object s t same => exact o.equalTo_of_values s t same

theorem twins_or_differs (hx : IsKey f h x) (hy : IsKey f h y) :
    Twins p f h x y ∨ Differs p h x y := by
  induction hx generalizing y with
  | @simple v hv =>
    cases hy with
    | simple hw =>
      cases equal : atomEqual v y with
      | true => exact .inl (.simple hv hw equal)
      | false =>
        right
        simp only [Differs, (Context.equal_simple _ hv (isNative_of_isSimple hw)).1, equal]
        exact .pure false
    | @tuple ys j _ =>
      right
      simp only [Differs, (Context.equal_simple _ hv (isNative_tuple ys j)).1,
        (atomEqual_tuple hv ys j).1]
      exact .pure false
    | object t _ => exact .inr (o.differs_native t (isNative_of_isSimple hv)).2
  | @tuple xs i _ ih =>
    cases hy with
    | simple hw =>
      right
      simp only [Differs, (Context.equal_simple _ hw (isNative_tuple xs i)).2,
        (atomEqual_tuple hw xs i).2]
      exact .pure false
    | @tuple ys j keys =>
      by_cases same : List.Forall₂ (Same p h) xs ys
      · exact .inl (.tuple i j same)
      · refine .inr (differs_tuple (fun x hx y hy => ?_) same i j)
        exact (ih x hx (keys y hy)).imp_left o.equalTo_of_twins
    | object t _ => exact .inr (o.differs_native t (isNative_tuple xs i)).2
  | @object id c vs s _ ih =>
    cases hy with
    | simple hw => exact .inr (o.differs_native s (isNative_of_isSimple hw)).1
    | @tuple ys j _ => exact .inr (o.differs_native s (isNative_tuple ys j)).1
    | @object other d ws t keys =>
      rcases o.equal_cases s t fun v hv w hw => (ih v hv (keys w hw)).imp_left o.equalTo_of_twins
        with ⟨⟨rfl, same⟩, -⟩ | ⟨-, differs⟩
      · exact .inl (.object s t same)
      · exact .inr differs

/-- Comparing two keys gives an answer. -/
theorem compared_keys (hx : IsKey f h x) (hy : IsKey f h y) : Comparable p h x y :=
  (o.twins_or_differs hx hy).imp_left o.equalTo_of_twins

theorem equalTo_iff_twins (hx : IsKey f h x) (hy : IsKey f h y) :
    EqualTo p h x y ↔ Twins p f h x y :=
  ⟨fun equal => (o.twins_or_differs hx hy).resolve_right equal.not_differs, o.equalTo_of_twins⟩

theorem equalTo_symm_keys (hx : IsKey f h x) (hy : IsKey f h y) (equal : EqualTo p h x y) :
    EqualTo p h y x := by
  induction hx generalizing y with
  | simple hv =>
    cases (o.equalTo_iff_twins (.simple hv) hy).1 equal with
    | simple _ hw equal => exact o.equalTo_of_twins (.simple hw hv (atomEqual_symm equal))
    | tuple => cases hv
    | object => cases hv
  | tuple i keys ih =>
    cases (o.equalTo_iff_twins (.tuple i keys) hy).1 equal with
    | simple hv => cases hv
    | tuple _ j same =>
      refine equalTo_tuple (List.Forall₂.flip ?_) j i
      exact forall₂_imp same fun x hx y mem same => same.flip (ih x hx (hy.items y mem))
  | object s keys ih =>
    cases (o.equalTo_iff_twins (.object s keys) hy).1 equal with
    | simple hv => cases hv
    | object s' t same =>
      obtain ⟨rfl, rfl⟩ := o.stores_unique s s'
      refine o.equalTo_of_values t s (List.Forall₂.flip ?_)
      exact forall₂_imp same fun v hv w mem same => same.flip (ih v hv (o.values_of_isKey hy t w mem))

theorem equalTo_trans_keys (hx : IsKey f h x) (hy : IsKey f h y) (hz : IsKey f h z)
    (first : EqualTo p h x y) (second : EqualTo p h y z) : EqualTo p h x z := by
  induction hx generalizing y z with
  | simple hu =>
    cases (o.equalTo_iff_twins (.simple hu) hy).1 first with
    | simple _ hv equal =>
      cases (o.equalTo_iff_twins (.simple hv) hz).1 second with
      | simple _ hw equal' => exact o.equalTo_of_twins (.simple hu hw (atomEqual_trans equal equal'))
      | tuple => cases hv
      | object => cases hv
    | tuple => cases hu
    | object => cases hu
  | tuple i keys ih =>
    cases (o.equalTo_iff_twins (.tuple i keys) hy).1 first with
    | simple hu => cases hu
    | tuple _ j same =>
      cases (o.equalTo_iff_twins hy hz).1 second with
      | simple hv => cases hv
      | tuple _ k same' =>
        refine equalTo_tuple (forall₂_trans same same' ?_) i k
        exact fun x hx y mem z mem' same same' =>
          same.trans same' (ih x hx (hy.items y mem) (hz.items z mem'))
  | object s keys ih =>
    cases (o.equalTo_iff_twins (.object s keys) hy).1 first with
    | simple hu => cases hu
    | object s' t same =>
      cases (o.equalTo_iff_twins hy hz).1 second with
      | simple hv => cases hv
      | object t' u same' =>
        obtain ⟨rfl, rfl⟩ := o.stores_unique s s'
        obtain ⟨rfl, rfl⟩ := o.stores_unique t t'
        refine o.equalTo_of_values s u (forall₂_trans same same' ?_)
        exact fun v hv w mem w' mem' same same' => same.trans same'
          (ih v hv (o.values_of_isKey hy t w mem) (o.values_of_isKey hz u w' mem'))

theorem same_symm (hx : IsKey f h x) (hy : IsKey f h y) (same : Same p h x y) : Same p h y x :=
  same.flip (o.equalTo_symm_keys hx hy)

theorem same_trans (hx : IsKey f h x) (hy : IsKey f h y) (hz : IsKey f h z)
    (first : Same p h x y) (second : Same p h y z) : Same p h x z :=
  first.trans second (o.equalTo_trans_keys hx hy hz)

end Program.Hosts

end Polyad.Machine
