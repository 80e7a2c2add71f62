import Polyad.Proofs.Machine.Outcomes

/-!
# Leaves

What tuples may hold besides tuples. Atoms are native values that hold no others: nothing, truth
values, numbers and texts. Numbers are equal by their exact values, whatever their types, and their
codes go by those values too; a number that is none differs even from itself. Lists of leaves are
leaves too, which have no hash.
-/

namespace Polyad.Machine

/-- Native values on which comparing and hashing are well-behaved: comparing them gives an answer,
equality is symmetric and transitive, and equal ones have the same hash or both have none. Nothing
says that a value is equal to itself. -/
structure Leaves (p : Program) (h : Heap) (leaf : Datum → Prop) : Prop where
  native : ∀ v, leaf v → v.IsNative
  compared : ∀ v w, leaf v → leaf w → Comparable p h v w
  hashed : ∀ v, leaf v → Hashed p h v
  symm : ∀ v w, leaf v → leaf w → EqualTo p h v w → EqualTo p h w v
  trans : ∀ u v w, leaf u → leaf v → leaf w → EqualTo p h u v → EqualTo p h v w → EqualTo p h u w
  alike : ∀ v w, leaf v → leaf w → EqualTo p h v w → HashAlike p h v w

/-! ## Atoms -/

namespace Datum

/-- A native value that holds no others. -/
inductive IsAtom : Datum → Prop
  | null : IsAtom .null
  | bool (b : Bool) : IsAtom (.bool b)
  | int (n : Int) : IsAtom (.int n)
  | float (x : Float) (label : Nat) : IsAtom (.float x label)
  | text (s : String) : IsAtom (.text s)

/-- Equality of atoms: by value if both are numbers, and otherwise by identity. -/
def atomEqual (v w : Datum) : Bool :=
  match v.number?, w.number? with
  | some a, some b => a.same b
  | _, _ => v.identical w

variable {u v w : Datum}

theorem IsAtom.isNative (atom : v.IsAtom) : v.IsNative := by
  rintro id rfl
  cases atom

theorem atomEqual_of_numbers {a b : Number} (first : v.number? = some a)
    (second : w.number? = some b) : atomEqual v w = a.same b := by
  rw [atomEqual, first, second]

/-- What is no number is equal to nothing but itself. -/
theorem atomEqual_cases (equal : atomEqual v w = true) :
    (∃ a, v.number? = some a ∧ w.number? = some a ∧ a ≠ .nan) ∨
      (v = w ∧ v.number? = none) := by
  rw [atomEqual] at equal
  cases first : v.number? with
  | none =>
    rw [first] at equal
    exact .inr ⟨identical_iff.1 equal, rfl⟩
  | some a =>
    cases second : w.number? with
    | none =>
      rw [first, second] at equal
      rw [identical_iff.1 equal, second] at first
      cases first
    | some b =>
      rw [first, second] at equal
      obtain ⟨rfl, proper⟩ := Number.same_eq_true_iff.1 equal
      exact .inl ⟨a, rfl, rfl, proper⟩

theorem atomEqual_symm (equal : atomEqual v w = true) : atomEqual w v = true := by
  rcases atomEqual_cases equal with ⟨a, first, second, proper⟩ | ⟨rfl, -⟩
  · rw [atomEqual_of_numbers second first]
    exact Number.same_eq_true_iff.2 ⟨rfl, proper⟩
  · exact equal

theorem atomEqual_trans (first : atomEqual u v = true) (second : atomEqual v w = true) :
    atomEqual u w = true := by
  rcases atomEqual_cases first with ⟨a, hu, hv, proper⟩ | ⟨rfl, -⟩
  · rcases atomEqual_cases second with ⟨b, hv', hw, -⟩ | ⟨rfl, -⟩
    · cases hv.symm.trans hv'
      rw [atomEqual_of_numbers hu hw]
      exact Number.same_eq_true_iff.2 ⟨rfl, proper⟩
    · exact first
  · exact second

end Datum

open Datum

variable {p : Program} {h : Heap} {v w : Datum}

namespace Context

theorem equal_atom (cx : Context) (hv : v.IsAtom) (hw : w.IsAtom) :
    cx.equal v w = pure (atomEqual v w) := by
  cases hv <;> cases hw <;> rfl

theorem digest_atom (cx : Context) (hv : v.IsAtom) : cx.digest v = leafDigest v := by
  cases hv <;> rfl

/-- Every atom has a digest. -/
theorem exists_leafDigest (hv : v.IsAtom) : ∃ d, leafDigest v = pure d := by
  cases hv with
  | float x label =>
    rw [leafDigest]
    split
    · exact ⟨_, rfl⟩
    · exact ⟨_, rfl⟩
  | _ => exact ⟨_, rfl⟩

/-- The digest of a number goes by its value. -/
theorem leafDigest_number {a : Number} {n : Int} (hv : v.IsAtom) (number : v.number? = some a)
    (code : a.code? = some n) : leafDigest v = pure (.number n) := by
  cases hv with
  | null => cases number
  | text s => cases number
  | float x label =>
    cases number
    rw [leafDigest, code]
  | bool b =>
    cases number
    cases code
    rfl
  | int m =>
    cases number
    cases code
    rfl

end Context

theorem equalTo_atom (hv : v.IsAtom) (hw : w.IsAtom) :
    EqualTo p h v w ↔ atomEqual v w = true := by
  have yields : Yields p h (fun cx => cx.equal v w) (.ok (atomEqual v w)) := by
    simp only [Context.equal_atom _ hv hw]
    exact .pure _
  constructor
  · intro equal
    injection yields.unique equal
  · intro equal
    rwa [equal] at yields

theorem hashesTo_atom (hv : v.IsAtom) {d : Digest} (gives : Context.leafDigest v = pure d) :
    HashesTo p h v d := by
  simp only [HashesTo, Context.digest_atom _ hv, gives]
  exact .pure d

/-- Equal atoms have the same hash. -/
theorem hashAlike_atom (hv : v.IsAtom) (hw : w.IsAtom) (equal : atomEqual v w = true) :
    HashAlike p h v w := by
  rcases atomEqual_cases equal with ⟨a, first, second, proper⟩ | ⟨rfl, -⟩
  · obtain ⟨n, code⟩ : ∃ n, a.code? = some n := by
      cases a with
      | nan => exact absurd rfl proper
      | infinite negative => exact ⟨_, rfl⟩
      | exact q => exact ⟨_, rfl⟩
    exact .inr ⟨_, hashesTo_atom hv (Context.leafDigest_number hv first code),
      hashesTo_atom hw (Context.leafDigest_number hw second code)⟩
  · obtain ⟨d, gives⟩ := Context.exists_leafDigest hv
    exact .inr ⟨d, hashesTo_atom hv gives, hashesTo_atom hv gives⟩

/-- Atoms are well-behaved leaves in every program. -/
theorem leaves_atoms (p : Program) (h : Heap) : Leaves p h IsAtom where
  native _ hv := hv.isNative
  compared v w hv hw := by
    cases equal : atomEqual v w with
    | true => exact .inl ((equalTo_atom hv hw).2 equal)
    | false =>
      right
      simp only [Differs, Context.equal_atom _ hv hw, equal]
      exact .pure false
  hashed v hv := by
    obtain ⟨d, gives⟩ := Context.exists_leafDigest hv
    exact .inl ⟨d, hashesTo_atom hv gives⟩
  symm v w hv hw equal :=
    (equalTo_atom hw hv).2 (atomEqual_symm ((equalTo_atom hv hw).1 equal))
  trans u v w hu hv hw first second := by
    rw [equalTo_atom hu hv] at first
    rw [equalTo_atom hv hw] at second
    exact (equalTo_atom hu hw).2 (atomEqual_trans first second)
  alike v w hv hw equal := hashAlike_atom hv hw ((equalTo_atom hv hw).1 equal)

/-! ## Lists of leaves -/

/-- A leaf, or a list of some. -/
inductive OrList (leaf : Datum → Prop) : Datum → Prop
  | leaf {v : Datum} : leaf v → OrList leaf v
  | list {xs : List Datum} (label : Nat) : (∀ x ∈ xs, leaf x) → OrList leaf (.list xs label)

namespace Leaves

variable {leaf : Datum → Prop} {xs ys : List Datum} {i j : Nat}

theorem unhashable_list (xs : List Datum) (i : Nat) : Unhashable p h (.list xs i) := by
  refine ⟨.wrongType, .of_answer fun n g _ => ?_⟩
  rw [Context.digest] <;> first | rfl | simp

/-- A list differs from every native value that is none. -/
theorem differs_list (native : v.IsNative) (flat : ∀ ys j, v ≠ .list ys j) :
    Differs p h (.list xs i) v ∧ Differs p h v (.list xs i) := by
  have right (cx : Context) : cx.equal (.list xs i) v = pure false := by
    cases v
    case object id => exact absurd rfl (native id)
    case list ys j => exact absurd rfl (flat ys j)
    all_goals rfl
  have left (cx : Context) : cx.equal v (.list xs i) = pure false := by
    cases v
    case object id => exact absurd rfl (native id)
    case list ys j => exact absurd rfl (flat ys j)
    case digest d => cases d <;> rfl
    all_goals rfl
  simp only [Differs, right, left]
  exact ⟨.pure false, .pure false⟩

theorem equal_list (cx : Context) (xs ys : List Datum) (i j : Nat) :
    cx.equal (.list xs i) (.list ys j) = cx.equal (.tuple xs 0) (.tuple ys 0) := by
  simp only [Context.equal]

variable (l : Leaves p h leaf)

include l

/-- Lists of leaves are compared by their items. -/
theorem equal_list_cases (hx : ∀ x ∈ xs, leaf x) (hy : ∀ y ∈ ys, leaf y) (i j : Nat) :
    (List.Forall₂ (Same p h) xs ys ∧ EqualTo p h (.list xs i) (.list ys j)) ∨
      (¬List.Forall₂ (Same p h) xs ys ∧ Differs p h (.list xs i) (.list ys j)) := by
  have compared := fun x mem y mem' => l.compared x y (hx x mem) (hy y mem')
  simp only [EqualTo, Differs, equal_list]
  by_cases same : List.Forall₂ (Same p h) xs ys
  · exact .inl ⟨same, equalTo_tuple same 0 0⟩
  · exact .inr ⟨same, differs_tuple compared same 0 0⟩

theorem equalTo_list_iff (hx : ∀ x ∈ xs, leaf x) (hy : ∀ y ∈ ys, leaf y) :
    EqualTo p h (.list xs i) (.list ys j) ↔ List.Forall₂ (Same p h) xs ys := by
  obtain ⟨same, equal⟩ | ⟨ne, differs⟩ := l.equal_list_cases hx hy i j
  · exact ⟨fun _ => same, fun _ => equal⟩
  · exact ⟨fun equal => absurd differs equal.not_differs, fun same => absurd same ne⟩

variable (flat : ∀ xs i, ¬leaf (.list xs i))

include flat

theorem differs_leaf (hv : leaf v) (xs : List Datum) (i : Nat) :
    Differs p h (.list xs i) v ∧ Differs p h v (.list xs i) :=
  differs_list (l.native v hv) fun ys j eq => flat ys j (eq ▸ hv)

/-- What is equal is on both sides a leaf, or on both sides a list. -/
theorem leaf_or_list (hv : OrList leaf v) (hw : OrList leaf w) (equal : EqualTo p h v w) :
    (leaf v ∧ leaf w) ∨ ∃ xs i ys j, v = .list xs i ∧ w = .list ys j ∧ (∀ x ∈ xs, leaf x) ∧
      (∀ y ∈ ys, leaf y) ∧ List.Forall₂ (Same p h) xs ys := by
  cases hv with
  | leaf hv =>
    cases hw with
    | leaf hw => exact .inl ⟨hv, hw⟩
    | list j hy => exact absurd (l.differs_leaf flat hv _ j).2 equal.not_differs
  | list i hx =>
    cases hw with
    | leaf hw => exact absurd (l.differs_leaf flat hw _ i).1 equal.not_differs
    | list j hy => exact .inr ⟨_, i, _, j, rfl, rfl, hx, hy, (l.equalTo_list_iff hx hy).1 equal⟩

/-- Leaves and lists of them are well-behaved if the leaves are. -/
theorem orList : Leaves p h (OrList leaf) where
  native v hv := by
    cases hv with
    | leaf hv => exact l.native _ hv
    | list i _ => exact fun _ eq => by cases eq
  compared v w hv hw := by
    cases hv with
    | leaf hv =>
      cases hw with
      | leaf hw => exact l.compared _ _ hv hw
      | list j _ => exact .inr (l.differs_leaf flat hv _ j).2
    | list i hx =>
      cases hw with
      | leaf hw => exact .inr (l.differs_leaf flat hw _ i).1
      | list j hy => exact (l.equal_list_cases hx hy i j).imp And.right And.right
  hashed v hv := by
    cases hv with
    | leaf hv => exact l.hashed _ hv
    | list i _ => exact .inr (unhashable_list _ i)
  symm v w hv hw equal := by
    obtain ⟨hv, hw⟩ | ⟨xs, i, ys, j, rfl, rfl, hx, hy, same⟩ := l.leaf_or_list flat hv hw equal
    · exact l.symm v w hv hw equal
    · refine (l.equalTo_list_iff hy hx).2 (List.Forall₂.flip (forall₂_imp same ?_))
      exact fun x mem y mem' same => same.flip (l.symm x y (hx x mem) (hy y mem'))
  trans u v w hu hv hw first second := by
    obtain ⟨hu, hv'⟩ | ⟨xs, i, ys, j, rfl, rfl, hx, hy, same⟩ := l.leaf_or_list flat hu hv first
    · obtain ⟨-, hw⟩ | ⟨ys, j, zs, k, rfl, -⟩ := l.leaf_or_list flat hv hw second
      · exact l.trans u v w hu hv' hw first second
      · exact absurd hv' (flat ys j)
    · obtain ⟨hv', -⟩ | ⟨ys', j', zs, k, eq, rfl, -, hz, same'⟩ :=
        l.leaf_or_list flat hv hw second
      · exact absurd hv' (flat ys j)
      · cases eq
        refine (l.equalTo_list_iff hx hz).2 (forall₂_trans same same' ?_)
        exact fun x mem y mem' z mem'' same same' =>
          same.trans same' (l.trans x y z (hx x mem) (hy y mem') (hz z mem''))
  alike v w hv hw equal := by
    obtain ⟨hv, hw⟩ | ⟨xs, i, ys, j, rfl, rfl, -⟩ := l.leaf_or_list flat hv hw equal
    · exact l.alike v w hv hw equal
    · exact .inl ⟨unhashable_list xs i, unhashable_list ys j⟩

end Leaves

end Polyad.Machine
