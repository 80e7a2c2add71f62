import Polyad.Proofs.Config.Header
import Polyad.Proofs.Generated.Failures

/-!
# How rendering ends

Rendering a family fails exactly if its header cannot be read as lines, a member is not consistent,
it has more values than there are words for, its files refer to a member that is not there, or a line
of the header cannot be told. Only the second and the third are reported, and the second only if its
report can be told.
-/

namespace Polyad

/-- A step fails with a kind of error, or it succeeds if there is none. -/
structure Ends {α : Type} (x : Except Error α) (kind : Option ErrorKind) : Prop where
  fails : ∀ k, FailsWith k x ↔ kind = some k
  succeeds : (∃ a, x = .ok a) ↔ kind = none

namespace Ends

variable {α : Type} {x : Except Error α}

theorem of_ok {a : α} (run : x = .ok a) : Ends x none := by
  subst run
  refine ⟨fun k => ⟨?_, nofun⟩, fun _ => rfl, fun _ => ⟨a, rfl⟩⟩
  rintro ⟨e, run, -⟩
  cases run

theorem of_error {e : Error} (run : x = .error e) : Ends x (some e.kind) := by
  subst run
  refine ⟨fun k => ⟨?_, fun own => ⟨e, rfl, Option.some.inj own⟩⟩, ⟨nofun, nofun⟩⟩
  rintro ⟨d, run, kind⟩
  cases run
  rw [kind]

end Ends

namespace Config

open Generated

variable {s : Settings} {c : Config} {f : Family} {path : String} {e : Error}

/-- The kind of error that rendering a family fails with, if it does. -/
def failure? (c : Config) (f : Family) : Option ErrorKind :=
  match c.headerLines, f.broken? with
  | .error _, _ => some .wrongType
  | .ok _, some m => some (if m.Untold then .badValue else .report .inconsistentModel)
  | .ok _, none =>
    if 999 < f.maxArity then some (.report .unsupportedArity)
    else if f.Dangling then some .absent
    else
      match c.tellHeader with
      | .error _ => some .badValue
      | .ok _ => none

theorem headerLines_failure (fails : c.headerLines = .error e) : e = .wrongType := by
  unfold headerLines at fails
  repeat' split at fails
  all_goals cases fails
  rfl

theorem tellHeader_failure (fails : c.tellHeader = .error e) : e = .unwritable := by
  unfold tellHeader at fails
  split at fails
  all_goals cases fails
  rfl

/-- The files fail like the contracts, or else like the concrete classes. -/
theorem files_failure (fails : c.files f = .error e) :
    (∃ m, f.broken? = some m ∧ m.validate = .error e) ∨
      f.broken? = none ∧ 999 < f.maxArity ∧ (∃ n, e = .noCardinal n) ∨
      f.broken? = none ∧ f.maxArity ≤ 999 ∧ f.Dangling ∧ e = .absent := by
  rcases Error.bind_eq_error_iff.1 fails with fails | ⟨contracts, emitted, fails⟩
  · rcases contractsFile_failure fails with broken | ⟨consistent, small, dangling, absent⟩
    · exact .inl broken
    · exact .inr (.inr ⟨consistent, by omega, dangling, absent⟩)
  · rcases Error.bind_eq_error_iff.1 fails with fails | ⟨concretes, -, ⟨⟩⟩
    have each := (exists_contractsFile_iff f _ _).1 ⟨contracts, emitted⟩
    have consistent := Family.broken?_eq_none_iff.2 fun m mem => (each m mem).1
    rcases concretesFile_failure consistent fails with ⟨wide, noWord⟩ | ⟨worded, rest⟩
    · exact .inr (.inl ⟨consistent, wide, noWord⟩)
    · exact .inr (.inr ⟨consistent, worded, rest⟩)

/-- A member that is not consistent is reported, unless the report cannot be told. -/
theorem kind_of_validate {m : Member} (fails : m.validate = .error e) :
    e.kind = if m.Untold then .badValue else .report .inconsistentModel := by
  have judged := m.judges_validate
  split
  · next untold =>
    rw [judged.speechless.2 untold] at fails
    cases fails
    rfl
  · next told =>
    have broken : ¬m.Consistent := by
      rw [← judged.accepts, fails]
      exact Error.not_exists_ok
    obtain ⟨d, run, kind⟩ := judged.reports.2 ⟨broken, told⟩
    rw [fails] at run
    cases run
    exact kind

/-- Rendering a family by a configuration that is in order ends as it says. -/
theorem renderFamily_ends (passed : s.check = .ok c) (plain : c.formatter = .plain)
    (runtime : c.runtimeModule = .str path) (reformat : Code.Reformatter) (f : Family) :
    Ends (c.renderFamily reformat f) (c.failure? f) := by
  cases header : c.headerLines with
  | error e =>
    have kind : c.failure? f = some e.kind := by
      rw [headerLines_failure header, failure?, header]
      rfl
    rw [kind]
    refine .of_error ?_
    rw [renderFamily, header]
    rfl
  | ok ls =>
    cases emitted : c.files f with
    | error e =>
      have kind : c.failure? f = some e.kind := by
        rw [failure?, header]
        rcases files_failure emitted with ⟨m, broken, invalid⟩ | ⟨none, wide, n, rfl⟩ |
          ⟨none, worded, dangling, rfl⟩
        · rw [broken, kind_of_validate invalid]
        · rw [none]
          exact if_pos wide
        · rw [none]
          exact (if_neg (by omega)).trans (if_pos dangling)
      rw [kind]
      refine .of_error ?_
      rw [renderFamily, header, emitted]
      rfl
    | ok files =>
      obtain ⟨contracts, concretes⟩ := files
      obtain ⟨-, dotted⟩ := Settings.header_of_check passed
      obtain ⟨own, first, rest⟩ := Error.bind_eq_ok_iff.1 emitted
      obtain ⟨own', second, eq⟩ := Error.bind_eq_ok_iff.1 rest
      cases eq
      obtain ⟨consistent, worded, sound⟩ := sound_of_emitted first second
      obtain ⟨text, lies⟩ := contractsFile_starts first dotted ls
      obtain ⟨text', lies'⟩ := concretesFile_starts second dotted ls
      have kind : c.failure? f =
          match c.tellHeader with
          | .error _ => some .badValue
          | .ok _ => none := by
        rw [failure?, header, consistent]
        exact (if_neg (by omega)).trans (if_neg sound)
      have rendered : c.renderFamily reformat f =
          c.tellHeader >>= fun _ => .ok ⟨f, text, text'⟩ := by
        rw [renderFamily, header, emitted]
        change (c.runtimePath >>= fun _ => _) = _
        rw [runtimePath, runtime, finish_plain plain, lies.written, lies'.written]
        rfl
      rw [kind, rendered]
      cases told : c.tellHeader with
      | error e =>
        rw [tellHeader_failure told]
        exact .of_error rfl
      | ok _ => exact .of_ok rfl

/-- The null member alone, which is then the last one too. -/
def loneFamily : Family where
  maxArity := 0
  members := [Family.loneNull]
  consistent := Family.ruled_iff.1 ⟨nofun, rfl, by decide⟩

/-- The configuration of a run that is told nothing but the formatter. -/
def plainly : Config := { Config.default with formatter := .plain }

/-- The class of the null member would have to name the one after it. -/
theorem loneFamily_fails :
    plainly.toSettings.check = .ok plainly ∧
      FailsWith .absent (plainly.renderFamily Code.reformat loneFamily) := by
  have passed : plainly.toSettings.check = .ok plainly := rfl
  have ends := renderFamily_ends passed rfl rfl Code.reformat loneFamily
  exact ⟨passed, (ends.fails .absent).2 (by decide)⟩

end Config
end Polyad
