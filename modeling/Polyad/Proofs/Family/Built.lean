import Polyad.Proofs.Family.Members

/-!
# Built families

Every bound from 1 to the number of letters has a family. It is derived, and its members are
written out here: named by the tables, with one letter for each position.
-/

namespace Polyad.Family

/-- The member of an arity in the family of a bound. -/
def builtMember (bound : Int) (n : Nat) : Member where
  arity := n
  interfaceName := "Tuple" ++ toString (n : Int)
  className := if n = 0 then "NullTuple" else Naming.familyNames.getD (n - 1) ""
  labels := (Naming.letters.take n).map String.singleton
  typeParams := (Naming.letters.take n).map fun c => String.singleton c.toUpper
  ordinals := (List.range n).map fun i => Naming.ordinalWords (i + 1)
  capabilities := capabilitiesFor n bound
  extension := if (n : Int) = bound then .overflow else .typed

theorem ordinals_natCast {n : Nat} (le : n ≤ 999) :
    Naming.ordinals n = .ok ((List.range n).map fun i => Naming.ordinalWords (i + 1)) := by
  refine Error.mapM_eq_ok fun i hi => ?_
  have lt := List.mem_range.1 hi
  have := Int.toNat_natCast n
  rw [Naming.ordinal, if_pos (by omega)]
  rfl

theorem familyName_succ {n : Nat} (lt : n < 100) :
    Naming.familyName (n + 1 : Nat) = .ok (Naming.familyNames.getD n "") := by
  have hlt : n < Naming.familyNames.length := lt
  simp [Naming.familyName, Naming.at?, List.getElem?_eq_getElem hlt]

theorem memberClassName_natCast {n : Nat} (le : n ≤ 100) :
    memberClassName n =
      .ok (if n = 0 then "NullTuple" else Naming.familyNames.getD (n - 1) "") := by
  cases n with
  | zero => rfl
  | succ n =>
    have ne : ¬(((n + 1 : Nat) : Int) == 0) = true := by simp; omega
    rw [memberClassName, if_neg ne, if_neg (by omega)]
    exact familyName_succ (by omega)

theorem firstLetters_natCast {n : Nat} (le : n ≤ Naming.letterBudget) (write : Char → String) :
    Naming.firstLetters n write = .ok ((Naming.letters.take n).map write) :=
  Naming.firstLetters_eq_ok_iff.2 ⟨by omega, by rw [Int.toNat_natCast]⟩

/-- The tables name every member within the number of letters. -/
theorem memberFor_natCast {n : Nat} (le : n ≤ Naming.letterBudget) (bound : Int) :
    memberFor n bound = .ok (builtMember bound n) := by
  have budget := Naming.letterBudget_eq
  unfold memberFor
  refine Error.bind_eq_ok_iff.2 ⟨(builtMember bound n).className, ?_, ?_⟩
  · exact memberClassName_natCast (by omega)
  · refine Error.bind_eq_ok_iff.2 ⟨_, firstLetters_natCast le _, ?_⟩
    refine Error.bind_eq_ok_iff.2 ⟨_, firstLetters_natCast le _, ?_⟩
    refine Error.bind_eq_ok_iff.2 ⟨_, ordinals_natCast (by omega), ?_⟩
    simp [builtMember, pure, Except.pure]

theorem validate_builtMember {bound : Int} {n : Nat} (le : n ≤ Naming.letterBudget) :
    (builtMember bound n).validate = .ok () := by
  have size : Naming.letters.length = Naming.letterBudget := rfl
  have nodup := Naming.nodup_of_positionLabels (firstLetters_natCast le String.singleton)
  rw [Member.validate_eq_ok_iff]
  refine ⟨by simp [builtMember], ?_, by simp [builtMember], nodup⟩
  simp only [builtMember, List.length_map, List.length_take]
  omega

theorem checkFamily_builtMembers (bound : Nat) :
    checkFamily (.int bound) (((List.range (bound + 1)).map (builtMember bound)).map Member.shape) =
      .ok () := by
  refine checkFamily_eq_ok_iff.2 ⟨by simp [List.range_succ], fun i hi => ?_, by simp, ?_⟩
  · simp [builtMember]
  · intro m mem
    obtain ⟨n, -, rfl⟩ := List.mem_map.1 mem
    by_cases eq : (n : Int) = bound
    · simp [builtMember, Member.isTerminal, eq]
    · have ne : ((n : Int) == bound) = false := beq_false_of_ne eq
      simp only [builtMember, Member.isTerminal, if_neg eq, ne]
      rfl

/-- The family of a bound. -/
def built (bound : Nat) : Family := ⟨bound, _, checkFamily_builtMembers bound⟩

/-- Every bound from 1 to the number of letters has a family. -/
theorem build_natCast {bound : Nat} (pos : 1 ≤ bound) (le : bound ≤ Naming.letterBudget) :
    build bound = .ok (built bound) := by
  unfold build
  rw [if_neg (by omega), if_neg (by omega)]
  refine Error.bind_eq_ok_iff.2 ⟨(List.range (bound + 1)).map (builtMember bound), ?_, ?_⟩
  · refine Error.mapM_eq_ok fun n hn => ?_
    have lt := List.mem_range.1 hn
    rw [memberFor_natCast (by omega)]
    rfl
  · rw [ofMembers_eq_ok (checkFamily_builtMembers bound)]
    refine Error.bind_eq_ok_iff.2 ⟨_, rfl, Error.bind_eq_ok_iff.2 ⟨(), ?_, rfl⟩⟩
    refine Error.forM_eq_ok fun m mem => ?_
    obtain ⟨n, hn, rfl⟩ := List.mem_map.1 mem
    have lt := List.mem_range.1 hn
    exact validate_builtMember (by omega)

/-- No other bound has one. -/
theorem exists_built {bound : Int} {f : Family} (accepted : build bound = .ok f) :
    ∃ n : Nat, bound = n ∧ 1 ≤ n ∧ n ≤ Naming.letterBudget ∧ f = built n := by
  by_cases small : bound < 1
  · rw [build, if_pos small] at accepted
    cases accepted
  · by_cases large : (Naming.letterBudget : Int) < bound
    · rw [build, if_neg small, if_pos large] at accepted
      cases accepted
    · obtain ⟨n, rfl⟩ := Int.eq_ofNat_of_zero_le (a := bound) (by omega)
      rw [build_natCast (by omega) (by omega)] at accepted
      cases accepted
      exact ⟨n, rfl, by omega, by omega, rfl⟩

theorem mem_built_iff {bound : Nat} {m : Member} :
    m ∈ (built bound).members ↔ ∃ n ≤ bound, builtMember bound n = m := by
  simp only [built, List.mem_map, List.mem_range, Nat.lt_succ_iff]

theorem get?_built {bound k : Nat} (le : k ≤ bound) :
    (built bound).get? k = some (builtMember bound k) := by
  have inside : k < bound + 1 := by omega
  rw [get?_natCast, built, List.getElem?_map, List.getElem?_range inside, Option.map_some]

theorem derived_built {bound : Nat} (le : bound ≤ Naming.letterBudget) :
    (built bound).Derived where
  consistent m mem := by
    obtain ⟨n, hn, rfl⟩ := mem_built_iff.1 mem
    exact validate_builtMember (by omega)
  capable m mem := by
    obtain ⟨n, -, rfl⟩ := mem_built_iff.1 mem
    rfl

/-- Below the bounds of two built families their members agree. The only capability of theirs that
asks for the size of the bound is `zip`, which asks for 2: a bound above a member that holds values
is as large. -/
theorem builtMember_eq {a b n : Nat} (left : n < a) (right : n < b) :
    builtMember a n = builtMember b n := by
  have zip : (decide (1 ≤ (n : Int)) && decide (2 ≤ (a : Int))) =
      (decide (1 ≤ (n : Int)) && decide (2 ≤ (b : Int))) := by
    rw [Bool.eq_iff_iff]
    simp only [Bool.and_eq_true, decide_eq_true_eq]
    omega
  have chain : (n : Int) < a ∧ (n : Int) < b := by omega
  have inner : (n : Int) ≠ a ∧ (n : Int) ≠ b := by omega
  simp only [builtMember, capabilitiesFor, zip, chain, inner, if_false]

/-- Smaller members have fewer type parameters, the same ones from the first on. -/
theorem typeParams_builtMember_subset {bound n k : Nat} (le : n ≤ k) :
    (builtMember bound n).typeParams ⊆ (builtMember bound k).typeParams :=
  List.map_subset _ (List.take_subset_take_left Naming.letters le)

theorem terminal?_built (bound : Nat) :
    (built bound).terminal? = some (builtMember bound bound) :=
  get?_built (Nat.le_refl bound)

/-- The labels of built members are letters. -/
theorem mem_letters_of_label {bound n : Nat} {label : String}
    (mem : label ∈ (builtMember bound n).labels) :
    ∃ c ∈ Naming.letters, String.singleton c = label := by
  obtain ⟨c, hc, rfl⟩ := List.mem_map.1 mem
  exact ⟨c, List.mem_of_mem_take hc, rfl⟩

end Polyad.Family
