import Polyad.Proofs.Family.Rules
import Polyad.Proofs.Generated.Files

/-!
# Families that are not emitted

Which families each of the two files is emitted for. The file of contracts takes no inconsistent
member. The file of concrete classes takes no inconsistent member that holds values; the null member
is not looked at there, so its file is emitted with it as if nothing were wrong.
-/

namespace Polyad

namespace Error

variable {α β : Type}

theorem not_exists_ok {e : Error} : ¬∃ a : α, (.error e : Except Error α) = .ok a := by
  rintro ⟨a, ⟨⟩⟩

theorem exists_bind_iff {x : Except Error α} {step : α → Except Error β} :
    (∃ b, (x >>= step) = .ok b) ↔ ∃ a, x = .ok a ∧ ∃ b, step a = .ok b := by
  simp only [bind_eq_ok_iff]
  exact ⟨fun ⟨b, a, run, last⟩ => ⟨a, run, b, last⟩, fun ⟨a, run, b, last⟩ => ⟨b, a, run, last⟩⟩

/-- A step succeeds for each of a list one after another if it does for each on its own. -/
theorem exists_mapM_iff {step : α → Except Error β} {xs : List α} :
    (∃ ys, xs.mapM step = .ok ys) ↔ ∀ x ∈ xs, ∃ y, step x = .ok y := by
  refine ⟨fun ⟨ys, run⟩ => exists_of_mapM_eq_ok run, fun each => ?_⟩
  induction xs with
  | nil => exact ⟨[], rfl⟩
  | cons x xs ih =>
    obtain ⟨own, rest⟩ := List.forall_mem_cons.1 each
    obtain ⟨y, own⟩ := own
    obtain ⟨ys, rest⟩ := ih rest
    rw [List.mapM_cons, own, exists_bind_iff]
    exact ⟨y, rfl, exists_bind_iff.2 ⟨ys, rest, y :: ys, rfl⟩⟩

theorem mem_mapM_iff {step : α → Except Error β} {xs : List α} {ys : List β}
    (run : xs.mapM step = .ok ys) {y : β} : y ∈ ys ↔ ∃ x ∈ xs, step x = .ok y := by
  induction xs generalizing ys with
  | nil =>
    cases run
    simp
  | cons x xs ih =>
    rw [List.mapM_cons] at run
    obtain ⟨z, own, run⟩ := bind_eq_ok_iff.1 run
    obtain ⟨zs, rest, run⟩ := bind_eq_ok_iff.1 run
    cases run
    have first : y = z ↔ step x = .ok y := by rw [own, Except.ok.injEq, eq_comm]
    rw [List.mem_cons, ih rest, first]
    simp

/-- A failure of steps one after another is that of the first that fails. -/
theorem exists_first_failure {step : α → Except Error β} {xs : List α} {e : Error}
    (run : xs.mapM step = .error e) : ∃ before x after, xs = before ++ x :: after ∧
      (∀ w ∈ before, ∃ y, step w = .ok y) ∧ step x = .error e := by
  induction xs with
  | nil => cases run
  | cons x xs ih =>
    rw [List.mapM_cons] at run
    cases own : step x with
    | error d =>
      rw [own] at run
      cases run
      exact ⟨[], x, xs, rfl, nofun, own⟩
    | ok y =>
      cases rest : xs.mapM step with
      | ok ys =>
        rw [own, rest] at run
        cases run
      | error d =>
        rw [own, rest] at run
        cases run
        obtain ⟨before, w, after, rfl, run, fails⟩ := ih rest
        exact ⟨x :: before, w, after, rfl, List.forall_mem_cons.2 ⟨⟨y, own⟩, run⟩, fails⟩

end Error

namespace Generated

open Code

variable {m : Member} {f : Family} {runtime : String}

/-- What looks something up only on a condition fails only where it is missing then. -/
theorem exists_present_iff {α β : Type} {asked : Bool} {x : Option α} {own : α → β} {other : β} :
    (∃ b, (if asked then do
        let a ← present x
        return own a
      else return other : Except Error β) = .ok b) ↔ (asked = true → x ≠ none) := by
  cases asked with
  | false => exact ⟨fun _ => nofun, fun _ => ⟨other, rfl⟩⟩
  | true =>
    cases x with
    | none => exact ⟨fun h => absurd h Error.not_exists_ok, fun found => absurd rfl (found rfl)⟩
    | some a => exact ⟨fun _ _ => Option.some_ne_none a, fun _ => ⟨own a, rfl⟩⟩

theorem get?_two_ne_none_iff : f.get? 2 ≠ none ↔ 2 ≤ f.maxArity := by
  rw [Ne, Family.get?_eq_none_iff]
  omega

theorem exists_withPair_iff {own : List Function} {paired : Member → Function} :
    (∃ fs, withPair m f own paired = .ok fs) ↔ (m.has .zip = true → 2 ≤ f.maxArity) := by
  rw [← get?_two_ne_none_iff]
  exact exists_present_iff

theorem successor?_ne_none_iff (mem : m ∈ f.members) :
    f.successor? m ≠ none ↔ m.isTerminal = false := by
  rw [Ne, Family.successor?_eq_none_iff mem, Bool.not_eq_true]

theorem exists_ownExtension_iff (mem : m ∈ f.members) :
    (∃ fs, ownExtension m f = .ok fs) ↔
      (m.has .chainExtension = true → m.isTerminal = false) := by
  rw [← successor?_ne_none_iff mem]
  exact exists_present_iff

/-- The documentation spells the number of values out, for which there are words up to 999. -/
theorem exists_concreteDocstring_iff (mem : m ∈ f.members) :
    (∃ doc, concreteDocstring m = .ok doc) ↔ m.arity ≤ 999 := by
  have pos := (Family.arity_bounds mem).1
  unfold concreteDocstring
  split
  · next one =>
    rw [beq_iff_eq] at one
    exact ⟨fun _ => by omega, fun _ => ⟨_, rfl⟩⟩
  · rw [Naming.cardinal]
    by_cases le : m.arity ≤ 999
    · rw [if_pos ⟨pos, le⟩]
      exact ⟨fun _ => le, fun _ => ⟨_, rfl⟩⟩
    · rw [if_neg (fun h => le h.2)]
      exact ⟨fun h => absurd h Error.not_exists_ok, fun h => absurd h le⟩

theorem exists_validate_iff : (∃ u, m.validate = .ok u) ↔ m.Consistent := by
  rw [← Member.validate_eq_ok]
  exact ⟨fun ⟨_, run⟩ => run, fun run => ⟨(), run⟩⟩

/-- The null contract needs no pair, since it has no transforms. -/
theorem exists_fullContract_iff :
    (∃ c, fullContract m f runtime = .ok c) ↔
      m.Consistent ∧ (m.arity ≠ 0 → m.has .zip = true → 2 ≤ f.maxArity) := by
  have proper : (∃ c, properContract m f runtime = .ok c) ↔
      (m.has .zip = true → 2 ≤ f.maxArity) := by
    rw [properContract, Error.exists_bind_iff, ← exists_withPair_iff]
    exact ⟨fun ⟨ts, run, _⟩ => ⟨ts, run⟩, fun ⟨ts, run⟩ => ⟨ts, run, _, rfl⟩⟩
  have body : (∃ c, (if m.isNull then return nullContract m f runtime
      else properContract m f runtime : Except Error ClassDef) = .ok c) ↔
        (m.arity ≠ 0 → m.has .zip = true → 2 ≤ f.maxArity) := by
    by_cases null : m.arity = 0
    · rw [if_pos (by simp [Member.isNull, null])]
      exact ⟨fun _ ne => absurd null ne, fun _ => ⟨_, rfl⟩⟩
    · rw [if_neg (by simp [Member.isNull, null]), proper]
      exact ⟨fun h _ => h, fun h => h null⟩
  rw [fullContract, Error.exists_bind_iff, ← exists_validate_iff, ← body]
  constructor
  · rintro ⟨c, run, -⟩
    obtain ⟨u, valid, run⟩ := Error.bind_eq_ok_iff.1 run
    exact ⟨⟨u, valid⟩, c, run⟩
  · rintro ⟨⟨u, valid⟩, c, run⟩
    exact ⟨c, Error.bind_eq_ok_iff.2 ⟨u, valid, run⟩, _, rfl⟩

/-- What a member that holds values is asked to have for its concrete class. -/
structure Classable (f : Family) (m : Member) : Prop where
  consistent : m.Consistent
  worded : m.arity ≤ 999
  extension : m.has .chainExtension = true → m.isTerminal = false
  pair : m.has .zip = true → 2 ≤ f.maxArity

theorem exists_concreteClass_iff (mem : m ∈ f.members) :
    (∃ c, concreteClass m f = .ok c) ↔ Classable f m := by
  unfold concreteClass
  constructor
  · rintro ⟨c, run⟩
    obtain ⟨u, valid, run⟩ := Error.bind_eq_ok_iff.1 run
    obtain ⟨doc, worded, run⟩ := Error.bind_eq_ok_iff.1 run
    obtain ⟨ext, extension, run⟩ := Error.bind_eq_ok_iff.1 run
    obtain ⟨ts, transforms, -⟩ := Error.bind_eq_ok_iff.1 run
    exact ⟨exists_validate_iff.1 ⟨u, valid⟩, (exists_concreteDocstring_iff mem).1 ⟨doc, worded⟩,
      (exists_ownExtension_iff mem).1 ⟨ext, extension⟩, exists_withPair_iff.1 ⟨ts, transforms⟩⟩
  · intro able
    obtain ⟨u, valid⟩ := exists_validate_iff.2 able.consistent
    obtain ⟨doc, worded⟩ := (exists_concreteDocstring_iff mem).2 able.worded
    obtain ⟨ext, extension⟩ := (exists_ownExtension_iff mem).2 able.extension
    obtain ⟨ts, transforms⟩ := exists_withPair_iff.2 able.pair
    refine Error.exists_bind_iff.2 ⟨u, valid, Error.exists_bind_iff.2 ⟨doc, worded, ?_⟩⟩
    refine Error.exists_bind_iff.2 ⟨ext, extension, Error.exists_bind_iff.2 ⟨ts, transforms, ?_⟩⟩
    exact ⟨_, rfl⟩

/-- Of the null member only a successor is asked. -/
theorem exists_concreteDefinitions_iff (mem : m ∈ f.members) :
    (∃ ds, concreteDefinitions m f = .ok ds) ↔
      if m.arity = 0 then 1 ≤ f.maxArity else Classable f m := by
  unfold concreteDefinitions
  by_cases null : m.arity = 0
  · have next : f.successor? m ≠ none ↔ 1 ≤ f.maxArity := by
      have bounds := Family.arity_bounds mem
      rw [successor?_ne_none_iff mem, Family.isTerminal_eq mem, beq_eq_false_iff_ne]
      omega
    rw [if_pos (by simp [Member.isNull, null]), if_pos null, nullClass, ← next]
    cases f.successor? m with
    | none => exact ⟨fun h => absurd h Error.not_exists_ok, fun found => absurd rfl found⟩
    | some next => exact ⟨fun _ => Option.some_ne_none next, fun _ => ⟨_, rfl⟩⟩
  · rw [if_neg (by simp [Member.isNull, null]), if_neg null, ← exists_concreteClass_iff mem]
    cases concreteClass m f <;> simp [Except.map]

/-! ## The files -/

theorem terminal_found (f : Family) : ∃ terminal, f.terminal? = some terminal := by
  have length := Family.length_members f
  have pos := List.length_pos_iff.2 f.members_ne_nil
  obtain ⟨terminal, -, found, -⟩ := Family.exists_terminal? (f := f) (by omega)
  exact ⟨terminal, found⟩

theorem exists_contractsFile_iff (f : Family) (runtime name : String) :
    (∃ file, contractsFile f runtime name = .ok file) ↔
      ∀ m ∈ f.members, m.Consistent ∧ (m.arity ≠ 0 → m.has .zip = true → 2 ≤ f.maxArity) := by
  have each : (∀ m ∈ f.members, ∃ c, fullContract m f runtime = .ok c) ↔
      ∀ m ∈ f.members, m.Consistent ∧ (m.arity ≠ 0 → m.has .zip = true → 2 ≤ f.maxArity) :=
    forall₂_congr fun _ _ => exists_fullContract_iff
  rw [← each, ← Error.exists_mapM_iff, contractsFile, Error.exists_bind_iff]
  constructor
  · rintro ⟨_, _, file, run⟩
    obtain ⟨cs, contracts, -⟩ := Error.bind_eq_ok_iff.1 run
    exact ⟨cs, contracts⟩
  · rintro ⟨cs, contracts⟩
    obtain ⟨terminal, found⟩ := terminal_found f
    exact ⟨_, typeVariables_eq found, _, Error.bind_eq_ok_iff.2 ⟨cs, contracts, rfl⟩⟩

theorem exists_concretesFile_iff (f : Family) (runtime contracts name : String) :
    (∃ file, concretesFile f runtime contracts name = .ok file) ↔
      1 ≤ f.maxArity ∧ ∀ m ∈ f.proper, Classable f m := by
  have each : (∀ m ∈ f.members, ∃ ds, concreteDefinitions m f = .ok ds) ↔
      1 ≤ f.maxArity ∧ ∀ m ∈ f.proper, Classable f m := by
    have own (m : Member) (mem : m ∈ f.members) := exists_concreteDefinitions_iff (f := f) mem
    rw [← Family.null_cons_proper f, List.forall_mem_cons, own f.null, if_pos f.indexed.null]
    · refine and_congr_right fun _ => forall₂_congr fun m mem => ?_
      obtain ⟨mem, ne⟩ := Family.mem_proper_iff.1 mem
      rw [own m mem, if_neg ne]
    · exact List.head_mem _
  rw [← each, ← Error.exists_mapM_iff, concretesFile, Error.exists_bind_iff]
  constructor
  · rintro ⟨_, _, file, run⟩
    obtain ⟨ds, classes, -⟩ := Error.bind_eq_ok_iff.1 run
    exact ⟨ds, classes⟩
  · rintro ⟨ds, classes⟩
    obtain ⟨terminal, found⟩ := terminal_found f
    exact ⟨_, concreteTypeVars_eq found, Error.exists_bind_iff.2 ⟨ds, classes, _, rfl⟩⟩

/-- The files that a family is emitted in. No file of contracts has an inconsistent member, and no
file of concrete classes one that holds values; but the null member may be anything there. -/
theorem files_of_consistent (f : Family) (runtime contracts name : String) :
    ((∃ file, contractsFile f runtime name = .ok file) ↔
      (∀ m ∈ f.members, m.Consistent) ∧ ∀ m ∈ f.proper, m.has .zip = true → 2 ≤ f.maxArity) ∧
    ((∃ file, concretesFile f runtime contracts name = .ok file) ↔
      1 ≤ f.maxArity ∧ f.maxArity ≤ 999 ∧ (∀ m ∈ f.proper, m.Consistent) ∧
        ∀ m ∈ f.proper, (m.has .zip = true → 2 ≤ f.maxArity) ∧
          (m.has .chainExtension = true → m.isTerminal = false)) := by
  constructor
  · rw [exists_contractsFile_iff]
    constructor
    · intro each
      refine ⟨fun m mem => (each m mem).1, fun m mem => ?_⟩
      obtain ⟨mem, ne⟩ := Family.mem_proper_iff.1 mem
      exact (each m mem).2 ne
    · rintro ⟨consistent, pair⟩ m mem
      exact ⟨consistent m mem, fun ne => pair m (Family.mem_proper_iff.2 ⟨mem, ne⟩)⟩
  · rw [exists_concretesFile_iff]
    constructor
    · rintro ⟨pos, each⟩
      obtain ⟨m, mem, -, arity⟩ := Family.exists_terminal? (f := f) (by omega)
      have worded := (each m (Family.mem_proper_iff.2 ⟨mem, by omega⟩)).worded
      exact ⟨pos, by omega, fun m mem => (each m mem).consistent,
        fun m mem => ⟨(each m mem).pair, (each m mem).extension⟩⟩
    · rintro ⟨pos, le, consistent, able⟩
      refine ⟨pos, fun m mem => ⟨consistent m mem, ?_, (able m mem).2, (able m mem).1⟩⟩
      have bounds := Family.arity_bounds (Family.mem_proper_iff.1 mem).1
      omega

/-- The family of bound 1, but for a label that its null member has too many. -/
def labelledNull : Family where
  maxArity := 1
  members := [
    { arity := 0, interfaceName := "Tuple0", className := "NullTuple", labels := ["a"] },
    { arity := 1, interfaceName := "Tuple1", className := "Single", labels := ["a"],
      typeParams := ["A"], ordinals := ["first"], extension := .overflow }]
  consistent := Family.ruled_iff.1 ⟨nofun, rfl, by decide⟩

/-- Its concrete classes are emitted, its contracts are not. -/
theorem labelledNull_files :
    ¬labelledNull.null.Consistent ∧
    (¬∃ file, contractsFile labelledNull "tuplegen.runtime" "tuples" = .ok file) ∧
    ∃ file, concretesFile labelledNull "tuplegen.runtime" "tuples" "tuples_impl" = .ok file := by
  have inconsistent : ¬labelledNull.null.Consistent := fun c => by cases c.labels
  refine ⟨inconsistent, fun emitted => ?_, ?_⟩
  · exact inconsistent (((files_of_consistent _ _ "tuples" _).1.1 emitted).1 _ (List.head_mem _))
  · refine (files_of_consistent _ _ _ _).2.2 ⟨by decide, by decide, ?_, ?_⟩
    all_goals
      intro m mem
      cases List.mem_singleton.1 mem
    · exact ⟨rfl, rfl, rfl, by decide⟩
    · exact ⟨nofun, nofun⟩

end Generated
end Polyad
