import Polyad.Config

/-!
# Checking settings

What passes the check of settings, and what becomes of the rest. The two modules are looked at
first, then the runtime module, the line length and the formatter. What has passed passes again.
-/

namespace Polyad

/-- Two modules with different names. -/
def DifferentModules (v w : Value) : Prop :=
  ∃ a b, v = .str a ∧ w = .str b ∧ Text.isIdentifier a ∧ Text.isIdentifier b ∧ a ≠ b

/-- No limit, or one that leaves room. -/
def IsLineLength (v : Value) : Prop := v = .null ∨ ∃ n, 1 ≤ n ∧ v = .int n

/-- Something is reported about the configuration. -/
def Refused {α : Type} (x : Except Error α) : Prop :=
  ∃ e, x = .error e ∧ e.kind = .report .badConfig

theorem Refused.bind {α β : Type} {x : Except Error α} (h : Refused x) (f : α → Except Error β) :
    Refused (x >>= f) := by
  obtain ⟨e, rfl, kind⟩ := h
  exact ⟨e, rfl, kind⟩

theorem Refused.ne_ok {α : Type} {x : Except Error α} (h : Refused x) (a : α) : x ≠ .ok a := by
  obtain ⟨e, rfl, -⟩ := h
  nofun

theorem Refused.kind_eq {α : Type} {x : Except Error α} (h : Refused x) {e : Error}
    (run : x = .error e) : e.kind = .report .badConfig := by
  obtain ⟨e', rfl, kind⟩ := h
  cases run
  exact kind

namespace Settings

variable {s : Settings}

theorem checkModule_cases (k : Key) (v : Value) :
    (∃ a, v = .str a ∧ Text.isIdentifier a ∧ checkModule k v = .ok a) ∨
      (∀ a, v = .str a → ¬Text.isIdentifier a) ∧ Refused (checkModule k v) := by
  cases v with
  | str a =>
    by_cases name : Text.isIdentifier a
    · exact .inl ⟨a, rfl, name, if_pos name⟩
    · refine .inr ⟨?_, _, if_neg name, rfl⟩
      rintro _ ⟨⟩
      exact name
  | _ => exact .inr ⟨nofun, _, rfl, rfl⟩

theorem checkLineLength_cases (v : Value) :
    IsLineLength v ∧ (∃ n, checkLineLength v = .ok n) ∨
      ¬IsLineLength v ∧ Refused (checkLineLength v) := by
  cases v with
  | null => exact .inl ⟨.inl rfl, _, rfl⟩
  | int n =>
    by_cases room : 1 ≤ n
    · exact .inl ⟨.inr ⟨n, room, rfl⟩, _, if_pos room⟩
    · refine .inr ⟨?_, _, if_neg room, rfl⟩
      rintro (⟨⟨⟩⟩ | ⟨_, room', ⟨⟩⟩)
      exact room room'
  | _ => exact .inr ⟨by rintro (⟨⟨⟩⟩ | ⟨_, _, ⟨⟩⟩), _, rfl, rfl⟩

/-- What is checked after the two modules. -/
def checkRest (s : Settings) (interfaces implementations : String) : Except Error Config := do
  if !s.runtimeModule.hasText then throw .unwritable
  if !Text.isDottedPath s.runtimeModule.text then throw (.badRuntimeModule s.runtimeModule)
  let lineLength ← checkLineLength s.lineLength
  let formatter ← checkFormatter s.formatter
  return {
    outputDir := s.outputDir
    maxArity := s.maxArity
    interfacesModule := interfaces
    implementationsModule := implementations
    runtimeModule := s.runtimeModule
    formatter, lineLength
    header := s.header }

theorem check_cases (s : Settings) :
    (∃ a b, s.interfacesModule = .str a ∧ s.implementationsModule = .str b ∧
      Text.isIdentifier a ∧ Text.isIdentifier b ∧ a ≠ b ∧ s.check = s.checkRest a b) ∨
    ¬DifferentModules s.interfacesModule s.implementationsModule ∧ Refused s.check := by
  rw [check]
  rcases checkModule_cases .interfacesModule s.interfacesModule with ⟨a, va, na, own⟩ | ⟨no, bad⟩
  · rcases checkModule_cases .implementationsModule s.implementationsModule with
      ⟨b, vb, nb, other⟩ | ⟨no, bad⟩
    · rw [own, other]
      by_cases same : a = b
      · refine .inr ⟨?_, .sameModule (.str a), if_pos (by simpa using same), rfl⟩
        rintro ⟨a', b', va', vb', -, -, ne⟩
        rw [va] at va'
        rw [vb] at vb'
        cases va'
        cases vb'
        exact ne same
      · exact .inl ⟨a, b, va, vb, na, nb, same, if_neg (by simpa using same)⟩
    · rw [own]
      exact .inr ⟨fun ⟨_, b, _, vb, _, nb, _⟩ => no b vb nb, bad.bind _⟩
  · exact .inr ⟨fun ⟨a, _, va, _, na, _⟩ => no a va na, bad.bind _⟩

/-- The rest of the check with a runtime that has no text. -/
theorem checkRest_wide (wide : s.runtimeModule.hasText = false) (a b : String) :
    s.checkRest a b = .error .unwritable := by
  rw [checkRest, wide]
  rfl

theorem checkRest_ok {n : Option Int} {f : Code.Formatter}
    (narrow : s.runtimeModule.hasText) (path : Text.isDottedPath s.runtimeModule.text)
    (length : checkLineLength s.lineLength = .ok n) (known : s.formatter = .formatter f)
    (a b : String) :
    s.checkRest a b = .ok {
      outputDir := s.outputDir
      maxArity := s.maxArity
      interfacesModule := a
      implementationsModule := b
      runtimeModule := s.runtimeModule
      formatter := f
      lineLength := n
      header := s.header } := by
  rw [checkRest, narrow, path, length, known]
  rfl

theorem checkRest_cases (narrow : s.runtimeModule.hasText) {f : Code.Formatter}
    (known : s.formatter = .formatter f) (a b : String) :
    (Text.isDottedPath s.runtimeModule.text ∧ IsLineLength s.lineLength) ∧
        (∃ c, s.checkRest a b = .ok c) ∨
      ¬(Text.isDottedPath s.runtimeModule.text ∧ IsLineLength s.lineLength) ∧
        Refused (s.checkRest a b) := by
  by_cases path : Text.isDottedPath s.runtimeModule.text
  · rcases checkLineLength_cases s.lineLength with ⟨fits, n, own⟩ | ⟨no, bad⟩
    · exact .inl ⟨⟨path, fits⟩, _, checkRest_ok narrow path own known a b⟩
    · rw [checkRest, narrow, path]
      exact .inr ⟨fun h => no h.2, bad.bind _⟩
  · rw [checkRest, narrow, Bool.eq_false_iff.2 path]
    exact .inr ⟨nofun, _, rfl, rfl⟩

theorem checkRest_eq_ok {a b : String} {c : Config} (h : s.checkRest a b = .ok c) :
    s.runtimeModule.hasText ∧ Text.isDottedPath s.runtimeModule.text ∧
      ∃ n f, checkLineLength s.lineLength = .ok n ∧ s.formatter = .formatter f := by
  rw [checkRest] at h
  split at h
  · cases h
  · next narrow =>
    split at h
    · cases h
    · next path =>
      obtain ⟨n, length, h⟩ := Error.bind_eq_ok_iff.1 h
      obtain ⟨f, known, -⟩ := Error.bind_eq_ok_iff.1 h
      refine ⟨by simpa using narrow, by simpa using path, n, f, length, ?_⟩
      cases given : s.formatter with
      | formatter g =>
        rw [given] at known
        cases known
        rfl
      | value v =>
        rw [given] at known
        cases known

theorem eq_of_checkLineLength {v : Value} {n : Option Int} (h : checkLineLength v = .ok n) :
    (n.map Value.int).getD .null = v := by
  cases v with
  | null =>
    cases h
    rfl
  | int m =>
    rw [checkLineLength] at h
    split at h
    · cases h
      rfl
    · cases h
  | _ => cases h

/-- A configuration that comes out of the check holds the settings that went in. -/
theorem toSettings_of_check {c : Config} (h : s.check = .ok c) : c.toSettings = s := by
  rcases check_cases s with ⟨a, b, va, vb, -, -, -, run⟩ | ⟨-, bad⟩
  · rw [run] at h
    obtain ⟨narrow, path, n, f, length, known⟩ := checkRest_eq_ok h
    rw [checkRest_ok narrow path length known] at h
    cases h
    rw [Config.toSettings, ← va, ← vb, ← known, eq_of_checkLineLength length]
  · exact absurd h (bad.ne_ok c)

/-- It passes the check again. -/
theorem check_toSettings {c : Config} (h : s.check = .ok c) : c.toSettings.check = .ok c := by
  rw [toSettings_of_check h, h]

/-- Its modules are identifiers. -/
theorem isIdentifier_of_check {c : Config} (h : s.check = .ok c) :
    Text.isIdentifier c.interfacesModule ∧ Text.isIdentifier c.implementationsModule := by
  have own := toSettings_of_check h
  rcases check_cases s with ⟨a, b, va, vb, na, nb, -, -⟩ | ⟨-, bad⟩
  · cases (congrArg interfacesModule own).trans va
    cases (congrArg implementationsModule own).trans vb
    exact ⟨na, nb⟩
  · exact absurd h (bad.ne_ok c)

/-- It has two modules of different names. -/
theorem modules_ne_of_check {c : Config} (h : s.check = .ok c) :
    c.interfacesModule ≠ c.implementationsModule := by
  have own := toSettings_of_check h
  rcases check_cases s with ⟨a, b, va, vb, -, -, ne, -⟩ | ⟨-, bad⟩
  · cases (congrArg interfacesModule own).trans va
    cases (congrArg implementationsModule own).trans vb
    exact ne
  · exact absurd h (bad.ne_ok c)

/-- It has the header it was given, and a runtime that is a dotted path. -/
theorem header_of_check {c : Config} (h : s.check = .ok c) :
    c.header = s.header ∧ Text.isDottedPath c.runtimeModule.text := by
  have own := toSettings_of_check h
  refine ⟨congrArg Settings.header own, ?_⟩
  rcases check_cases s with ⟨a, b, -, -, -, -, -, run⟩ | ⟨-, bad⟩
  · rw [run] at h
    rw [show c.runtimeModule = s.runtimeModule from congrArg Settings.runtimeModule own]
    exact (checkRest_eq_ok h).2.1
  · exact absurd h (bad.ne_ok c)

/-- The directory is not looked at. -/
theorem check_outputDir (s : Settings) (v : Value) :
    ({ s with outputDir := v } : Settings).check = s.check.map fun c => { c with outputDir := v } := by
  rw [check, check]
  dsimp only
  cases checkModule .interfacesModule s.interfacesModule with
  | error e => rfl
  | ok a =>
  cases checkModule .implementationsModule s.implementationsModule with
  | error e => rfl
  | ok b =>
  by_cases same : a == b
  · simp only [same, bind, Except.bind]
    rfl
  simp only [same, bind, Except.bind]
  by_cases narrow : s.runtimeModule.hasText
  · by_cases path : Text.isDottedPath s.runtimeModule.text
    · simp only [narrow, path]
      cases checkLineLength s.lineLength with
      | error e => rfl
      | ok n => cases checkFormatter s.formatter <;> rfl
    · simp only [narrow, path]
      rfl
  · simp only [narrow]
    rfl

end Settings

end Polyad
