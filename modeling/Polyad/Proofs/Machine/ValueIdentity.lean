import Mathlib.Logic.Relation
import Polyad.Proofs.Machine.Comparing
import Polyad.Proofs.Machine.Leaves

/-!
# Value identity

Tuples that hold leaves and other tuples, nested to any depth. If equality and hashes of the leaves
are well-behaved, then so are those of the tuples: equality is an equivalence that goes by class and
values, equal tuples have the same hash, and a tuple without a hash holds a value without one.
-/

namespace Polyad.Machine

open Code Generated

/-- A leaf, or a tuple of such values. -/
inductive IsValue (f : Family) (h : Heap) (leaf : Datum → Prop) : Datum → Prop
  | leaf {v : Datum} : leaf v → IsValue f h leaf v
  | tuple {id : Nat} {c : String} {vs : List Datum} : Stores f h id c vs →
      (∀ v ∈ vs, IsValue f h leaf v) → IsValue f h leaf (.object id)

/-- A tuple of a class, with the values it holds. -/
structure IsTuple (f : Family) (h : Heap) (leaf : Datum → Prop) (id : Nat) (c : String)
    (vs : List Datum) : Prop where
  stores : Stores f h id c vs
  values : ∀ v ∈ vs, IsValue f h leaf v

/-- What a tuple holds itself. -/
def Contains (f : Family) (h : Heap) (x v : Datum) : Prop :=
  ∃ id c vs, x = .object id ∧ Stores f h id c vs ∧ v ∈ vs

/-- What a tuple holds, itself or through tuples that it holds. -/
def Holding (f : Family) (h : Heap) : Datum → Datum → Prop := Relation.TransGen (Contains f h)

variable {p : Program} {f : Family} {h : Heap} {leaf : Datum → Prop} {x y z v : Datum}
variable {id other : Nat} {c d : String} {vs ws : List Datum}

theorem IsTuple.isValue (t : IsTuple f h leaf id c vs) : IsValue f h leaf (.object id) :=
  .tuple t.stores t.values

namespace Program.Hosts

variable (o : p.Hosts f) (l : Leaves p h leaf)

include o l

/-! ## Equality -/

/-- Comparing two values gives an answer. -/
theorem compared (hx : IsValue f h leaf x) (hy : IsValue f h leaf y) : Comparable p h x y := by
  induction hx generalizing y with
  | leaf hx =>
    cases hy with
    | leaf hy => exact l.compared _ _ hx hy
    | tuple s _ => exact .inr (o.differs_native s (l.native _ hx)).2
  | tuple s _ ih =>
    cases hy with
    | leaf hy => exact .inr (o.differs_native s (l.native _ hy)).1
    | tuple t values =>
      rcases o.equal_cases s t fun v hv w hw => ih v hv (values w hw) with ⟨-, equal⟩ | ⟨-, differs⟩
      · exact .inl equal
      · exact .inr differs

theorem equalTo_iff (s : IsTuple f h leaf id c vs) (t : IsTuple f h leaf other d ws) :
    EqualTo p h (.object id) (.object other) ↔ c = d ∧ List.Forall₂ (Same p h) vs ws := by
  have compared := fun v hv w hw => o.compared l (s.values v hv) (t.values w hw)
  obtain ⟨same, equal⟩ | ⟨ne, differs⟩ := o.equal_cases s.stores t.stores compared
  · exact ⟨fun _ => same, fun _ => equal⟩
  · exact ⟨fun equal => absurd differs equal.not_differs, fun same => absurd same ne⟩

/-- A leaf is equal to leaves only. -/
theorem leaf_of_equalTo (hx : leaf x) (hy : IsValue f h leaf y)
    (equal : EqualTo p h x y ∨ EqualTo p h y x) : leaf y := by
  cases hy with
  | leaf hy => exact hy
  | tuple s _ =>
    obtain ⟨right, left⟩ := o.differs_native s (l.native _ hx)
    rcases equal with equal | equal
    · exact absurd left equal.not_differs
    · exact absurd right equal.not_differs

theorem equalTo_symm (hx : IsValue f h leaf x) (hy : IsValue f h leaf y)
    (equal : EqualTo p h x y) : EqualTo p h y x := by
  induction hx generalizing y with
  | leaf hx => exact l.symm _ _ hx (o.leaf_of_equalTo l hx hy (.inl equal)) equal
  | tuple s values ih =>
    cases hy with
    | leaf hy => exact absurd (o.differs_native s (l.native _ hy)).1 equal.not_differs
    | tuple t values' =>
      obtain ⟨kind, same⟩ := (o.equalTo_iff l ⟨s, values⟩ ⟨t, values'⟩).1 equal
      refine (o.equalTo_iff l ⟨t, values'⟩ ⟨s, values⟩).2 ⟨kind.symm, List.Forall₂.flip ?_⟩
      exact forall₂_imp same fun v hv w hw same => same.flip (ih v hv (values' w hw))

theorem equalTo_trans (hx : IsValue f h leaf x) (hy : IsValue f h leaf y) (hz : IsValue f h leaf z)
    (first : EqualTo p h x y) (second : EqualTo p h y z) : EqualTo p h x z := by
  induction hx generalizing y z with
  | leaf hx =>
    have hy := o.leaf_of_equalTo l hx hy (.inl first)
    exact l.trans _ _ _ hx hy (o.leaf_of_equalTo l hy hz (.inl second)) first second
  | tuple s values ih =>
    cases hy with
    | leaf hy => exact absurd (o.differs_native s (l.native _ hy)).1 first.not_differs
    | tuple t values' =>
      cases hz with
      | leaf hz => exact absurd (o.differs_native t (l.native _ hz)).1 second.not_differs
      | tuple u values'' =>
        obtain ⟨kind, same⟩ := (o.equalTo_iff l ⟨s, values⟩ ⟨t, values'⟩).1 first
        obtain ⟨kind', same'⟩ := (o.equalTo_iff l ⟨t, values'⟩ ⟨u, values''⟩).1 second
        refine (o.equalTo_iff l ⟨s, values⟩ ⟨u, values''⟩).2
          ⟨kind.trans kind', forall₂_trans same same' ?_⟩
        exact fun v hv w hw u hu same same' =>
          same.trans same' (ih v hv (values' w hw) (values'' u hu))

/-! ## Hashes -/

/-- Hashing a value gives a hash or fails. -/
theorem hashed (hx : IsValue f h leaf x) : Hashed p h x := by
  induction hx with
  | leaf hx => exact l.hashed _ hx
  | tuple s _ ih =>
    rcases o.hash_cases s ih with hash | ⟨-, fails⟩
    · exact .inl hash
    · exact .inr fails

/-- Equal values hash alike. -/
theorem hashAlike (hx : IsValue f h leaf x) (hy : IsValue f h leaf y) (equal : EqualTo p h x y) :
    HashAlike p h x y := by
  induction hx generalizing y with
  | leaf hx => exact l.alike _ _ hx (o.leaf_of_equalTo l hx hy (.inl equal)) equal
  | tuple s values ih =>
    cases hy with
    | leaf hy => exact absurd (o.differs_native s (l.native _ hy)).1 equal.not_differs
    | tuple t values' =>
      obtain ⟨rfl, same⟩ := (o.equalTo_iff l ⟨s, values⟩ ⟨t, values'⟩).1 equal
      have alike : List.Forall₂ (HashAlike p h) _ _ := forall₂_imp same fun v hv w hw same =>
        same.hashAlike (o.hashed l (values v hv)) (ih v hv (values' w hw))
      exact o.hashAlike_of_values s t (fun v hv => o.hashed l (values v hv))
        (fun w hw => o.hashed l (values' w hw)) alike

/-- A tuple without a hash holds a value without one. -/
theorem exists_holding (t : IsTuple f h leaf id c vs) (fails : Unhashable p h (.object id)) :
    ∃ v, Holding f h (.object id) v ∧ Unhashable p h v := by
  have hashed := fun v hv => o.hashed l (t.values v hv)
  rcases o.hash_cases t.stores hashed with ⟨d, hash⟩ | ⟨⟨v, mem, unhashable⟩, -⟩
  · exact absurd fails hash.not_unhashable
  · exact ⟨v, .single ⟨id, c, vs, rfl, t.stores, mem⟩, unhashable⟩

/-- A tuple that holds a value without a hash, at any depth, has none. -/
theorem unhashable_of_holding (hx : IsValue f h leaf x) (holding : Holding f h x v)
    (fails : Unhashable p h v) : Unhashable p h x := by
  induction hx with
  | leaf hx =>
    obtain ⟨u, ⟨id, c, vs, eq, -⟩, -⟩ := Relation.TransGen.head'_iff.1 holding
    exact absurd eq (l.native _ hx id)
  | tuple s values ih =>
    obtain ⟨u, ⟨id, c, vs, eq, s', mem⟩, rest⟩ := Relation.TransGen.head'_iff.1 holding
    injection eq with eq
    subst eq
    obtain ⟨-, rfl⟩ := o.stores_unique s s'
    refine o.unhashable_object s (fun v hv => o.hashed l (values v hv)) ⟨u, mem, ?_⟩
    rcases Relation.reflTransGen_iff_eq_or_transGen.1 rest with rfl | rest
    · exact fails
    · exact ih u mem rest

end Program.Hosts

/-! ## Families -/

/-- Equality and hashes of the tuples of a family, of any classes and nested to any depth. -/
structure HasValueIdentity (p : Program) (f : Family) (h : Heap) (leaf : Datum → Prop) : Prop where
  answers : ∀ {i c vs j d ws}, IsTuple f h leaf i c vs → IsTuple f h leaf j d ws →
    Comparable p h (.object i) (.object j)
  refl : ∀ {i c vs}, IsTuple f h leaf i c vs → EqualTo p h (.object i) (.object i)
  symm : ∀ {i c vs j d ws}, IsTuple f h leaf i c vs → IsTuple f h leaf j d ws →
    (EqualTo p h (.object i) (.object j) ↔ EqualTo p h (.object j) (.object i))
  trans : ∀ {i c us j d vs k e ws}, IsTuple f h leaf i c us → IsTuple f h leaf j d vs →
    IsTuple f h leaf k e ws → EqualTo p h (.object i) (.object j) →
    EqualTo p h (.object j) (.object k) → EqualTo p h (.object i) (.object k)
  equal_iff : ∀ {i c vs j d ws}, IsTuple f h leaf i c vs → IsTuple f h leaf j d ws →
    (EqualTo p h (.object i) (.object j) ↔
      (IsNullClass f c ∧ IsNullClass f d) ∨
        (c = d ∧ vs.length = ws.length ∧ List.Forall₂ (Same p h) vs ws))
  /-- No tuple of a class of the family is equal to an open-ended one. -/
  openEnded : ∀ m ∈ f.members, ∀ {i vs j ws}, IsTuple f h leaf i m.className vs →
    IsTuple f h leaf j Support.openClass ws →
    Differs p h (.object i) (.object j) ∧ Differs p h (.object j) (.object i)
  /-- No tuple is equal to a native value, be it a native tuple or a list of its values. -/
  native : ∀ {i c vs}, IsTuple f h leaf i c vs → ∀ v : Datum, v.IsNative →
    Differs p h (.object i) v ∧ Differs p h v (.object i)
  hash : ∀ {i c vs j d ws}, IsTuple f h leaf i c vs → IsTuple f h leaf j d ws →
    EqualTo p h (.object i) (.object j) → ∀ digest, HashesTo p h (.object i) digest →
    HashesTo p h (.object j) digest
  hashed : ∀ {i c vs}, IsTuple f h leaf i c vs → Hashed p h (.object i)
  unhashable_iff : ∀ {i c vs}, IsTuple f h leaf i c vs →
    (Unhashable p h (.object i) ↔ ∃ v, Holding f h (.object i) v ∧ Unhashable p h v)

theorem Program.Hosts.hasValueIdentity (o : p.Hosts f) (l : Leaves p h leaf) :
    HasValueIdentity p f h leaf where
  answers s t := o.compared l s.isValue t.isValue
  refl s := o.equalTo_self s.stores
  symm s t := ⟨o.equalTo_symm l s.isValue t.isValue, o.equalTo_symm l t.isValue s.isValue⟩
  trans s t u := o.equalTo_trans l s.isValue t.isValue u.isValue
  equal_iff s t := by
    rw [o.equalTo_iff l s t]
    constructor
    · rintro ⟨kind, same⟩
      exact .inr ⟨kind, same.length_eq, same⟩
    · rintro (⟨null, null'⟩ | ⟨kind, -, same⟩)
      · rw [o.values_of_isNullClass s.stores null, o.values_of_isNullClass t.stores null']
        exact ⟨Option.some.inj (null.symm.trans null'), .nil⟩
      · exact ⟨kind, same⟩
  openEnded m mem _ _ _ _ s t :=
    ⟨o.differs_kinds s.stores t.stores (o.className_ne_open mem),
      o.differs_kinds t.stores s.stores (o.className_ne_open mem).symm⟩
  native s v hv := o.differs_native s.stores hv
  hash s t equal _ hash := (o.hashAlike l s.isValue t.isValue equal).hashesTo hash
  hashed s := o.hashed l s.isValue
  unhashable_iff s := by
    refine ⟨o.exists_holding l s, ?_⟩
    rintro ⟨v, holding, fails⟩
    exact o.unhashable_of_holding l s.isValue holding fails

/-- In every family that can be loaded, and whose class names mean nothing else in a comparison,
tuples have value identity over all leaves that are well-behaved, whatever is on the heap. The
families that the builder makes are such, by `loadable_built` and
`className_not_mem_comparisonNames`. -/
theorem tuples_have_value_identity (l : Loadable f)
    (own : ∀ m ∈ f.members, m.className ∉ comparisonNames) (package : String) :
    ∃ p h₀, Program.ofFamily package f = .ok (.ok p, h₀) ∧
      ∀ h leaf, Leaves p h leaf → HasValueIdentity p f h leaf := by
  obtain ⟨null, next, members, zero, succ⟩ := l.exists_null
  exact ⟨_, _, l.ofFamily_eq members zero succ, fun h leaf leaves =>
    (l.hosts members package zero succ own).hasValueIdentity leaves⟩

/-- A heap with two pairs that differ in the type of a number, a tuple around each of them, an
open-ended tuple of the same values, and a pair with a list in it. -/
def nestedPairs : Heap where
  instances := [
    ⟨"Duad", (slots (Family.builtMember 3 2)).zip [.int 1, .text "b"]⟩,
    ⟨"Duad", (slots (Family.builtMember 3 2)).zip [.bool true, .text "b"]⟩,
    ⟨"Single", (slots (Family.builtMember 3 1)).zip [.object 0]⟩,
    ⟨"Single", (slots (Family.builtMember 3 1)).zip [.object 1]⟩,
    ⟨Support.openClass, [(Support.valuesSlot, .tuple [.int 1, .text "b"] 1)]⟩,
    ⟨"Duad", (slots (Family.builtMember 3 2)).zip [.int 1, .list [] 2]⟩]

/-- Pairs of equal numbers of different types are equal, also inside others, and hash alike; the
open-ended tuple differs from them, and the pair with a list has no hash. -/
theorem nestedPairs_identity : ∃ p h₀,
    Program.ofFamily "shapes" (Family.built 3) = .ok (.ok p, h₀) ∧
      EqualTo p nestedPairs (.object 2) (.object 3) ∧
      (∀ digest, HashesTo p nestedPairs (.object 2) digest →
        HashesTo p nestedPairs (.object 3) digest) ∧
      Differs p nestedPairs (.object 0) (.object 4) ∧ Unhashable p nestedPairs (.object 5) := by
  obtain ⟨p, h₀, loaded, identity⟩ :=
    tuples_have_value_identity (f := .built 3) (loadable_built (by decide) (by decide))
      (className_not_mem_comparisonNames (by decide)) "shapes"
  have leaves := (leaves_atoms p nestedPairs).orList fun _ _ list => by cases list
  have v := identity nestedPairs _ leaves
  have proper (n : Nat) (pos : n ≠ 0) (le : n ≤ 3) :
      Family.builtMember 3 n ∈ (Family.built 3).proper :=
    Family.mem_proper_iff.2 ⟨Family.mem_built_iff.2 ⟨n, le, rfl⟩, by simpa [Family.builtMember]⟩
  have two := proper 2 (by decide) (by decide)
  have one := proper 1 (by decide) (by decide)
  let IsItem := IsValue (Family.built 3) nestedPairs (OrList Datum.IsAtom)
  have number : IsItem (.int 1) := .leaf (.leaf (.int 1))
  have truth : IsItem (.bool true) := .leaf (.leaf (.bool true))
  have text : IsItem (.text "b") := .leaf (.leaf (.text "b"))
  have list : IsItem (.list [] 2) := .leaf (.list 2 (by simp))
  have pair : IsTuple _ nestedPairs _ 0 "Duad" [.int 1, .text "b"] :=
    ⟨.proper two ⟨_, rfl, rfl, rfl⟩, by simpa using ⟨number, text⟩⟩
  have pair' : IsTuple _ nestedPairs _ 1 "Duad" [.bool true, .text "b"] :=
    ⟨.proper two ⟨_, rfl, rfl, rfl⟩, by simpa using ⟨truth, text⟩⟩
  have outer : IsTuple _ nestedPairs _ 2 "Single" [.object 0] :=
    ⟨.proper one ⟨_, rfl, rfl, rfl⟩, by simpa using pair.isValue⟩
  have outer' : IsTuple _ nestedPairs _ 3 "Single" [.object 1] :=
    ⟨.proper one ⟨_, rfl, rfl, rfl⟩, by simpa using pair'.isValue⟩
  have openEnded : IsTuple _ nestedPairs _ 4 Support.openClass [.int 1, .text "b"] :=
    ⟨.openEnded ⟨_, _, rfl, rfl, rfl⟩, pair.values⟩
  have holder : IsTuple _ nestedPairs _ 5 "Duad" [.int 1, .list [] 2] :=
    ⟨.proper two ⟨_, rfl, rfl, rfl⟩, by simpa using ⟨number, list⟩⟩
  have ones : EqualTo p nestedPairs (.int 1) (.bool true) :=
    (equalTo_atom (.int 1) (.bool true)).2 (by decide)
  have inner : EqualTo p nestedPairs (.object 0) (.object 1) :=
    (v.equal_iff pair pair').2 (.inr ⟨rfl, rfl, .cons (.inr ones) (.cons (.refl _) .nil)⟩)
  have equal : EqualTo p nestedPairs (.object 2) (.object 3) :=
    (v.equal_iff outer outer').2 (.inr ⟨rfl, rfl, .cons (.inr inner) .nil⟩)
  have held : Holding (Family.built 3) nestedPairs (.object 5) (.list [] 2) :=
    .single ⟨5, _, _, rfl, holder.stores, by simp⟩
  exact ⟨p, h₀, loaded, equal, v.hash outer outer' equal,
    (v.openEnded _ (Family.mem_proper_iff.1 two).1 pair openEnded).1,
    (v.unhashable_iff holder).2 ⟨_, held, Leaves.unhashable_list [] 2⟩⟩

end Polyad.Machine
