import Polyad.Family

/-!
# Members of a family

What consistency says about a member, and what the rules of a family say about its list of members:
the member at position `i` has arity `i`, the list ends at the bound, only the member at the bound
is terminal, and every other one has a successor. A family is *derived* if its members are
consistent and can do what their arities call for.
-/

namespace Polyad

/-! ## Consistent members -/

theorem allHashable_str (ls : List String) : Value.allHashable (ls.map .str) = true := by
  induction ls with
  | nil => rfl
  | cons l ls ih => simp [Value.allHashable, Value.hashable, ih]

theorem distinct_str_iff {ls : List String} : Value.distinct (ls.map .str) = true ↔ ls.Nodup := by
  induction ls with
  | nil => simp [Value.distinct]
  | cons l ls ih =>
    have apart : (∀ x ∈ ls, ¬l = x) ↔ l ∉ ls :=
      ⟨fun h mem => h l mem rfl, fun h x hx eq => h (eq ▸ hx)⟩
    simp [Value.distinct, ih, List.any_map, apart]

theorem Member.validate_eq_ok_iff {m : Member} :
    m.validate = .ok () ↔ m.typeParams.length = m.labels.length ∧
      m.labels.length = m.arity ∧ m.ordinals.length = m.arity ∧ m.labels.Nodup := by
  simp only [validate, Shape.validate, shape, List.length_map, Value.same_int, allHashable_str,
    ← distinct_str_iff]
  split
  · next h =>
    constructor
    · intro failed
      cases failed
    · exact fun ok => absurd ok.1 h
  · next h =>
    split
    · next h' =>
      constructor
      · intro failed
        cases failed
      · rintro ⟨-, labels, ordinals, -⟩
        simp [labels, ordinals] at h'
    · next h' =>
      obtain ⟨labels, ordinals⟩ : m.labels.length = m.arity ∧ m.ordinals.length = m.arity := by
        simpa using h'
      have params : m.typeParams.length = m.labels.length := by simpa using h
      by_cases distinct : Value.distinct (m.labels.map .str) = true <;>
        simp [distinct, params, labels, ordinals]

/-! ## Positions -/

theorem checkPositions_eq_ok_iff {n : Nat} {ms : List Member} :
    checkPositions n (ms.map Member.shape) = .ok () ↔
      ∀ i (h : i < ms.length), ms[i].arity = (n + i : Nat) := by
  induction ms generalizing n with
  | nil => simp [checkPositions]
  | cons m ms ih =>
    simp only [List.map_cons, checkPositions, Member.shape, Value.same_int, beq_iff_eq]
    constructor
    · intro h i hi
      split at h
      · next first =>
        cases i with
        | zero => simpa using first.symm
        | succ i =>
          have := ih.1 h i (by simpa using hi)
          simp only [List.getElem_cons_succ, this]
          omega
      · cases h
    · intro h
      have first := h 0 (by simp)
      rw [if_pos (by simpa using first.symm)]
      refine ih.2 fun i hi => ?_
      have := h (i + 1) (by simpa using hi)
      simp only [List.getElem_cons_succ] at this
      rw [this]
      omega

theorem checkExtensions_eq_ok_iff {bound : Int} {ms : List Member} :
    checkExtensions (.int bound) (ms.map Member.shape) = .ok () ↔
      ∀ m ∈ ms, m.isTerminal = (m.arity == bound) := by
  induction ms with
  | nil => simp [checkExtensions]
  | cons m ms ih =>
    simp only [List.map_cons, checkExtensions, Member.shape, Shape.isTerminal, Value.same_int,
      List.forall_mem_cons]
    rw [← ih]
    constructor
    · intro h
      split at h
      · next same => exact ⟨by simpa [Member.isTerminal] using same, h⟩
      · cases h
    · rintro ⟨same, rest⟩
      rw [if_pos (by simpa [Member.isTerminal] using same), rest]

/-- What the rules of a family ask of its members. -/
theorem checkFamily_eq_ok_iff {bound : Int} {ms : List Member} :
    checkFamily (.int bound) (ms.map Member.shape) = .ok () ↔
      ms ≠ [] ∧ (∀ i (hi : i < ms.length), ms[i].arity = i) ∧ (ms.length : Int) = bound + 1 ∧
        ∀ m ∈ ms, m.isTerminal = (m.arity == bound) := by
  unfold checkFamily
  cases hl : (ms.map Member.shape).getLast? with
  | none =>
    have nil : ms = [] := by simpa using hl
    simp [nil]
  | some last =>
    have ne : ms ≠ [] := by rintro rfl; simp at hl
    have lt : ms.length - 1 < ms.length := by
      have := List.length_pos_iff.2 ne
      omega
    have hlast : last.arity = .int ms[ms.length - 1].arity := by
      rw [List.getLast?_map, List.getLast?_eq_getElem?, List.getElem?_eq_getElem lt] at hl
      cases hl
      rfl
    have positions : checkPositions 0 (ms.map Member.shape) = .ok () ↔
        ∀ i (hi : i < ms.length), ms[i].arity = i := by
      simp [checkPositions_eq_ok_iff]
    simp only [hlast, Value.same_int, Error.bind_eq_ok_iff, positions]
    constructor
    · rintro ⟨-, arities, h⟩
      split at h
      · cases h
      · next bounded =>
        rw [arities _ lt] at bounded
        have : ((ms.length - 1 : Nat) : Int) = bound := by simpa using bounded
        exact ⟨ne, arities, by omega, checkExtensions_eq_ok_iff.1 h⟩
    · rintro ⟨-, arities, length, terminal⟩
      refine ⟨(), arities, ?_⟩
      have : ((ms.length - 1 : Nat) : Int) = bound := by omega
      rw [arities _ lt, if_neg (by simp [this])]
      exact checkExtensions_eq_ok_iff.2 terminal

namespace Family

variable {f : Family} {m : Member}

theorem ofMembers_eq_ok {bound : Int} {ms : List Member}
    (h : checkFamily (.int bound) (ms.map Member.shape) = .ok ()) :
    ofMembers bound ms = .ok ⟨bound, ms, h⟩ := by
  unfold ofMembers
  split
  · rfl
  · next eq =>
    rw [h] at eq
    cases eq

theorem arity_getElem (f : Family) {i : Nat} (h : i < f.members.length) :
    f.members[i].arity = i :=
  (checkFamily_eq_ok_iff.1 f.consistent).2.1 i h

theorem length_members (f : Family) : (f.members.length : Int) = f.maxArity + 1 :=
  (checkFamily_eq_ok_iff.1 f.consistent).2.2.1

theorem isTerminal_eq (mem : m ∈ f.members) : m.isTerminal = (m.arity == f.maxArity) :=
  (checkFamily_eq_ok_iff.1 f.consistent).2.2.2 m mem

theorem get?_natCast (f : Family) (i : Nat) : f.get? i = f.members[i]? := by
  simp [get?, Naming.at?]

theorem mem_of_get? {a : Int} (h : f.get? a = some m) : m ∈ f.members := by
  unfold get? Naming.at? at h
  split at h
  · exact List.mem_of_getElem? h
  · cases h

theorem arity_of_get? {a : Int} (h : f.get? a = some m) : m.arity = a := by
  unfold get? Naming.at? at h
  split at h
  · next nonneg =>
    obtain ⟨lt, rfl⟩ := List.getElem?_eq_some_iff.1 h
    rw [arity_getElem f lt]
    omega
  · cases h

/-- An arity within the bound has a member. -/
theorem exists_get? {a : Int} (pos : 0 ≤ a) (le : a ≤ f.maxArity) :
    ∃ m ∈ f.members, f.get? a = some m ∧ m.arity = a := by
  obtain ⟨i, rfl⟩ := Int.eq_ofNat_of_zero_le pos
  have hi : i < f.members.length := by
    have := length_members f
    omega
  exact ⟨f.members[i], List.getElem_mem hi, by rw [get?_natCast, List.getElem?_eq_getElem hi],
    arity_getElem f hi⟩

theorem arity_bounds (mem : m ∈ f.members) : 0 ≤ m.arity ∧ m.arity ≤ f.maxArity := by
  obtain ⟨i, hi, rfl⟩ := List.getElem_of_mem mem
  have := length_members f
  rw [arity_getElem f hi]
  omega

theorem get?_eq_none_of_lt {a : Int} (lt : f.maxArity < a) : f.get? a = none := by
  unfold get? Naming.at?
  have := length_members f
  split
  · exact List.getElem?_eq_none (by omega)
  · rfl

theorem get?_eq_none_of_neg {a : Int} (neg : a < 0) : f.get? a = none := by
  rw [get?, Naming.at?, if_neg (by omega)]

theorem get?_arity (mem : m ∈ f.members) : f.get? m.arity = some m := by
  obtain ⟨i, hi, rfl⟩ := List.getElem_of_mem mem
  rw [arity_getElem f hi, get?_natCast, List.getElem?_eq_getElem hi]

/-- The members that hold values are those of an arity other than 0. -/
theorem mem_proper_iff : m ∈ f.proper ↔ m ∈ f.members ∧ m.arity ≠ 0 := by
  constructor
  · intro mem
    obtain ⟨i, hi, rfl⟩ := List.getElem_of_mem mem
    simp only [proper, List.length_drop] at hi
    simp only [proper, List.getElem_drop]
    refine ⟨List.getElem_mem _, ?_⟩
    rw [arity_getElem]
    omega
  · rintro ⟨mem, ne⟩
    obtain ⟨i, hi, rfl⟩ := List.getElem_of_mem mem
    rw [arity_getElem] at ne
    have pos : 1 ≤ i := by omega
    rw [proper, List.mem_drop_iff_getElem]
    exact ⟨i - 1, by omega, by simp [Nat.add_sub_cancel' pos]⟩

/-- A member below the bound has a successor. -/
theorem exists_successor? (mem : m ∈ f.members) (lt : m.arity < f.maxArity) :
    ∃ next ∈ f.members, f.successor? m = some next ∧ next.arity = m.arity + 1 := by
  obtain ⟨next, hn, found, arity⟩ := exists_get? (f := f) (a := m.arity + 1)
    (by have := (arity_bounds mem).1; omega) (by omega)
  exact ⟨next, hn, found, arity⟩

theorem arity_of_successor? {next : Member} (succ : f.successor? m = some next) :
    next.arity = m.arity + 1 := arity_of_get? succ

/-- A successor holds values. -/
theorem mem_proper_of_successor? {next : Member} (mem : m ∈ f.members)
    (succ : f.successor? m = some next) : next ∈ f.proper := by
  have bounds := arity_bounds mem
  have arity := arity_of_successor? succ
  exact mem_proper_iff.2 ⟨mem_of_get? succ, by omega⟩

theorem successor?_eq_none (eq : m.arity = f.maxArity) : f.successor? m = none :=
  get?_eq_none_of_lt (by omega)

theorem exists_terminal? (pos : 0 ≤ f.maxArity) :
    ∃ m ∈ f.members, f.terminal? = some m ∧ m.arity = f.maxArity :=
  exists_get? pos (Int.le_refl _)

/-- The members of a family are consistent and can do what their arities call for. -/
structure Derived (f : Family) : Prop where
  consistent : ∀ m ∈ f.members, m.validate = .ok ()
  capable : ∀ m ∈ f.members, m.capabilities = capabilitiesFor m.arity f.maxArity

namespace Derived

variable (d : f.Derived) (mem : m ∈ f.members)

include d mem

theorem has_zip : m.has .zip = (decide (1 ≤ m.arity) && decide (2 ≤ f.maxArity)) := by
  rw [Member.has, d.capable m mem]
  rfl

theorem has_chainExtension : m.has .chainExtension = decide (m.arity < f.maxArity) := by
  rw [Member.has, d.capable m mem]
  rfl

/-- Only the terminal member does not extend within the family. -/
theorem has_chainExtension_eq_not : m.has .chainExtension = !m.isTerminal := by
  have le := (arity_bounds mem).2
  rw [d.has_chainExtension mem, isTerminal_eq mem]
  by_cases eq : m.arity = f.maxArity
  · simp [eq]
  · have lt : m.arity < f.maxArity := by omega
    simp [eq, lt]

end Derived

end Family
end Polyad
