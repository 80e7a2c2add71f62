import Polyad.Proofs.Generated.Refusal

/-!
# How emission fails

A family whose files are not both emitted has a member that is not consistent, which is reported, or
more values than there are words for, which is reported too, or a part of its files refers to a
member that it does not have. Nothing reports the last.
-/

namespace Polyad

instance (m : Member) : Decidable m.Consistent :=
  decidable_of_iff ((m.labels.length : Int) = m.arity ∧ (m.typeParams.length : Int) = m.arity ∧
      (m.ordinals.length : Int) = m.arity ∧ m.labels.Nodup)
    ⟨fun ⟨labels, params, ordinals, distinct⟩ => ⟨labels, params, ordinals, distinct⟩,
      fun c => ⟨c.labels, c.typeParams, c.ordinals, c.distinct⟩⟩

instance (m : Member) : Decidable m.Untold :=
  decidable_of_iff (m.typeParams.length = m.labels.length ∧
      ¬((m.labels.length : Int) = m.arity ∧ (m.ordinals.length : Int) = m.arity) ∧
      (Value.int m.arity).hasText = false)
    ⟨fun ⟨params, counts, wide⟩ => ⟨params, counts, wide⟩, fun u => ⟨u.params, u.counts, u.wide⟩⟩

namespace Family

/-- The first member that is not consistent. -/
def broken? (f : Family) : Option Member := f.members.find? fun m => !decide m.Consistent

/-- A part of the files refers to a member that is not there: the null class to the next one, a
method that pairs tuples up to the pair, an extension of the last member to the one after it. -/
inductive Dangling (f : Family) : Prop
  | null (alone : f.maxArity = 0)
  | pair {m : Member} (mem : m ∈ f.proper) (zips : m.has .zip = true) (small : f.maxArity < 2)
  | extension {m : Member} (mem : m ∈ f.proper) (own : m.has .chainExtension = true)
      (last : m.isTerminal = true)

variable {f : Family} {m : Member}

theorem dangling_iff : f.Dangling ↔ f.maxArity = 0 ∨
    ∃ m ∈ f.proper, m.has .zip = true ∧ f.maxArity < 2 ∨
      m.has .chainExtension = true ∧ m.isTerminal = true := by
  constructor
  · rintro (alone | ⟨mem, zips, small⟩ | ⟨mem, own, last⟩)
    · exact .inl alone
    · exact .inr ⟨_, mem, .inl ⟨zips, small⟩⟩
    · exact .inr ⟨_, mem, .inr ⟨own, last⟩⟩
  · rintro (alone | ⟨m, mem, ⟨zips, small⟩ | ⟨own, last⟩⟩)
    · exact .null alone
    · exact .pair mem zips small
    · exact .extension mem own last

instance (f : Family) : Decidable f.Dangling := decidable_of_iff _ dangling_iff.symm

theorem broken?_eq_none_iff : f.broken? = none ↔ ∀ m ∈ f.members, m.Consistent := by
  simp [broken?]

/-- A member stands at the place of its arity. -/
theorem length_of_members_eq {before after : List Member} (split : f.members = before ++ m :: after) :
    (before.length : Int) = m.arity := by
  have lt : before.length < f.members.length := by simp [split]
  have own : f.members[before.length] = m := by simp [split]
  rw [← arity_getElem f lt, own]

end Family

namespace Error

variable {α β : Type}

theorem bind_eq_error_iff {x : Except Error α} {step : α → Except Error β} {e : Error} :
    (x >>= step) = .error e ↔ x = .error e ∨ ∃ a, x = .ok a ∧ step a = .error e := by
  cases x <;> simp [bind, Except.bind]

end Error

namespace Generated

open Code

variable {m : Member} {f : Family} {runtime contracts name : String} {e : Error}

theorem eq_absent_of_present {α : Type} {x : Option α} (fails : present x = .error e) :
    e = .absent := by
  cases x <;> cases fails
  rfl

/-- Looking something up fails because it is missing. -/
theorem eq_absent_of_asked {α β : Type} {asked : Bool} {x : Option α} {own : α → β} {other : β}
    (fails : (if asked then do
        let a ← present x
        return own a
      else return other : Except Error β) = .error e) : e = .absent := by
  cases asked with
  | false => cases fails
  | true =>
    rcases Error.bind_eq_error_iff.1 fails with absent | ⟨a, -, ⟨⟩⟩
    exact eq_absent_of_present absent

theorem eq_noCardinal (fails : concreteDocstring m = .error e) : e = .noCardinal (.int m.arity) := by
  unfold concreteDocstring at fails
  split at fails
  · cases fails
  · rcases Error.bind_eq_error_iff.1 fails with unworded | ⟨words, -, ⟨⟩⟩
    unfold Naming.cardinal at unworded
    split at unworded
    · cases unworded
    · cases unworded
      rfl

/-! ## Classes -/

/-- The contract of a consistent member lacks nothing but the pair. -/
theorem fullContract_failure (fails : fullContract m f runtime = .error e) :
    m.validate = .error e ∨ m.Consistent ∧ e = .absent := by
  rcases Error.bind_eq_error_iff.1 fails with fails | ⟨c, -, ⟨⟩⟩
  rcases Error.bind_eq_error_iff.1 fails with invalid | ⟨u, valid, fails⟩
  · exact .inl invalid
  · refine .inr ⟨Member.validate_eq_ok.1 valid, ?_⟩
    split at fails
    · cases fails
    · rcases Error.bind_eq_error_iff.1 fails with fails | ⟨ts, -, ⟨⟩⟩
      exact eq_absent_of_asked fails

/-- The classes of a consistent member lack nothing but a word for its arity or another member. -/
theorem concreteDefinitions_failure (mem : m ∈ f.members) (consistent : m.Consistent)
    (fails : concreteDefinitions m f = .error e) :
    999 < m.arity ∧ e = .noCardinal (.int m.arity) ∨ m.arity ≤ 999 ∧ e = .absent := by
  unfold concreteDefinitions at fails
  split at fails
  · next null =>
    rcases Error.bind_eq_error_iff.1 fails with absent | ⟨next, -, ⟨⟩⟩
    have null : m.arity = 0 := by simpa [Member.isNull] using null
    exact .inr ⟨by omega, eq_absent_of_present absent⟩
  · have fails : concreteClass m f = .error e := by
      revert fails
      cases concreteClass m f <;> simp [Except.map]
    rcases Error.bind_eq_error_iff.1 fails with invalid | ⟨u, -, fails⟩
    · rw [Member.validate_eq_ok.2 consistent] at invalid
      cases invalid
    have words := exists_concreteDocstring_iff mem
    rcases Error.bind_eq_error_iff.1 fails with unworded | ⟨doc, worded, fails⟩
    · rw [unworded] at words
      exact .inl ⟨Int.not_le.1 (mt words.2 Error.not_exists_ok), eq_noCardinal unworded⟩
    have worded := words.1 ⟨doc, worded⟩
    rcases Error.bind_eq_error_iff.1 fails with missing | ⟨ext, -, fails⟩
    · exact .inr ⟨worded, eq_absent_of_asked missing⟩
    rcases Error.bind_eq_error_iff.1 fails with missing | ⟨ts, -, ⟨⟩⟩
    exact .inr ⟨worded, eq_absent_of_asked missing⟩

/-- A consistent member whose classes lack another member, in a family that they make small. -/
theorem dangling_of_refused (mem : m ∈ f.members) (consistent : m.Consistent)
    (worded : m.arity ≤ 999) (refused : ¬∃ ds, concreteDefinitions m f = .ok ds) :
    f.maxArity ≤ 999 ∧ f.Dangling := by
  rw [exists_concreteDefinitions_iff mem] at refused
  have bounds := Family.arity_bounds mem
  split at refused
  · exact ⟨by omega, .null (by omega)⟩
  · next proper =>
    have proper := Family.mem_proper_iff.2 ⟨mem, proper⟩
    by_cases pair : m.has .zip = true ∧ f.maxArity < 2
    · exact ⟨by omega, .pair proper pair.1 pair.2⟩
    · by_cases own : m.has .chainExtension = true ∧ m.isTerminal = true
      · have last : m.arity = f.maxArity := by simpa [Family.isTerminal_eq mem] using own.2
        exact ⟨by omega, .extension proper own.1 own.2⟩
      · refine absurd ⟨consistent, worded, fun has => ?_, fun zips => ?_⟩ refused
        · exact Bool.eq_false_iff.2 fun last => own ⟨has, last⟩
        · by_contra small
          exact pair ⟨zips, by omega⟩

/-! ## Files -/

/-- The file of contracts fails on the first member that is not consistent. If there is none, a pair
is asked for that is not there. -/
theorem contractsFile_failure (fails : contractsFile f runtime name = .error e) :
    (∃ m, f.broken? = some m ∧ m.validate = .error e) ∨
      f.broken? = none ∧ f.maxArity < 2 ∧ f.Dangling ∧ e = .absent := by
  obtain ⟨terminal, found⟩ := terminal_found f
  rw [contractsFile, typeVariables_eq found] at fails
  rcases Error.bind_eq_error_iff.1 fails with ⟨⟨⟩⟩ | ⟨ds, -, fails⟩
  rcases Error.bind_eq_error_iff.1 fails with run | ⟨cs, -, ⟨⟩⟩
  obtain ⟨before, m, after, split, emitted, own⟩ := Error.exists_first_failure run
  have above : ∀ n ∈ before, n.Consistent :=
    fun n mem => (exists_fullContract_iff.1 (emitted n mem)).1
  rcases fullContract_failure own with invalid | ⟨consistent, absent⟩
  · left
    have broken : ¬m.Consistent := by
      intro consistent
      rw [Member.validate_eq_ok.2 consistent] at invalid
      cases invalid
    refine ⟨m, List.find?_eq_some_iff_append.2 ⟨by simpa using broken, before, after, split, ?_⟩,
      invalid⟩
    exact fun n mem => by simpa using above n mem
  · right
    have mem : m ∈ f.members := by simp [split]
    have refused : ¬∃ c, fullContract m f runtime = .ok c := by
      rw [own]
      exact Error.not_exists_ok
    obtain ⟨proper, zips, small⟩ : m.arity ≠ 0 ∧ m.has .zip = true ∧ f.maxArity < 2 := by
      rw [exists_fullContract_iff] at refused
      by_contra none
      refine refused ⟨consistent, fun proper zips => ?_⟩
      by_contra small
      exact none ⟨proper, zips, by omega⟩
    -- A member of a family this small that is not null is the last one.
    have last : after = [] := by
      have bounds := Family.arity_bounds mem
      have place := Family.length_of_members_eq split
      have size := Family.length_members f
      rw [split, List.length_append, List.length_cons] at size
      exact List.eq_nil_of_length_eq_zero (by omega)
    refine ⟨Family.broken?_eq_none_iff.2 fun n there => ?_, small,
      .pair (Family.mem_proper_iff.2 ⟨mem, proper⟩) zips small, absent⟩
    rw [split, last] at there
    rcases List.mem_append.1 there with there | there
    · exact above n there
    · rw [List.mem_singleton.1 there]
      exact consistent

/-- If all members are consistent, the file of concrete classes fails on an arity that there is no
word for, or something refers to a member that is not there. -/
theorem concretesFile_failure (consistent : f.broken? = none)
    (fails : concretesFile f runtime contracts name = .error e) :
    999 < f.maxArity ∧ (∃ n, e = .noCardinal n) ∨ f.maxArity ≤ 999 ∧ f.Dangling ∧ e = .absent := by
  obtain ⟨terminal, found⟩ := terminal_found f
  rw [concretesFile, concreteTypeVars_eq found] at fails
  rcases Error.bind_eq_error_iff.1 fails with ⟨⟨⟩⟩ | ⟨vars, -, fails⟩
  rcases Error.bind_eq_error_iff.1 fails with run | ⟨cs, -, ⟨⟩⟩
  obtain ⟨before, m, after, split, -, own⟩ := Error.exists_first_failure run
  have mem : m ∈ f.members := by simp [split]
  have valid := Family.broken?_eq_none_iff.1 consistent m mem
  rcases concreteDefinitions_failure mem valid own with ⟨wide, eq⟩ | ⟨worded, absent⟩
  · have bounds := Family.arity_bounds mem
    exact .inl ⟨by omega, _, eq⟩
  · right
    have refused : ¬∃ ds, concreteDefinitions m f = .ok ds := by
      rw [own]
      exact Error.not_exists_ok
    obtain ⟨small, dangling⟩ := dangling_of_refused mem valid worded refused
    exact ⟨small, dangling, absent⟩

/-- Both files are emitted only for families of consistent members with words for all arities and
nothing that refers to a member that is not there. -/
theorem sound_of_emitted {file file' : File} (emitted : contractsFile f runtime contracts = .ok file)
    (emitted' : concretesFile f runtime contracts name = .ok file') :
    f.broken? = none ∧ f.maxArity ≤ 999 ∧ ¬f.Dangling := by
  have each := (exists_contractsFile_iff f runtime contracts).1 ⟨file, emitted⟩
  obtain ⟨pos, able⟩ := (exists_concretesFile_iff f runtime contracts name).1 ⟨file', emitted'⟩
  obtain ⟨m, mem, -, arity⟩ := Family.exists_terminal? (f := f) (by omega)
  have worded := (able m (Family.mem_proper_iff.2 ⟨mem, by omega⟩)).worded
  refine ⟨Family.broken?_eq_none_iff.2 fun m mem => (each m mem).1, by omega, ?_⟩
  rintro (alone | ⟨mem, zips, small⟩ | ⟨mem, own, last⟩)
  · omega
  · have pair := (able _ mem).pair zips
    omega
  · rw [(able _ mem).extension own] at last
    cases last

end Generated
end Polyad
