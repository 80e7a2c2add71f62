import Polyad.Proofs.Config.Settings
import Polyad.Proofs.Run.Outcome
import Polyad.Proofs.Text.Stream

/-!
# Loading configurations

How loading a file ends that can be read, by what its bytes are. A mapping is taken or refused as
the document it is, and a document of nothing gives the default configuration. So does every other
document that counts as nothing, such as an empty list. Bytes that are no text are refused, but as
such and not as a bad configuration, unless there is a mistake in the document before them.
-/

namespace Polyad

namespace Value

/-- A mapping counts as nothing exactly if it is empty. -/
theorem truthy_of_bare {v : Value} {es : List (Value × Value)} (mapping : v.bare = .dict es) :
    v.truthy = !es.isEmpty := by
  cases v with
  | named l inner =>
    rw [bare] at mapping
    cases inner with
    | dict entries =>
      rw [plug, dict.injEq] at mapping
      subst mapping
      have same : ∀ fs : List (Value × Value),
          (plugEntries l (.named l (.dict entries)) fs).isEmpty = fs.isEmpty := by
        intro fs
        cases fs <;> rfl
      rw [same]
      rfl
    | within k =>
      rw [plug] at mapping
      split at mapping <;> cases mapping
    | named k v =>
      rw [plug] at mapping
      split at mapping <;> cases mapping
    | _ => cases mapping
  | dict entries =>
    cases mapping
    rfl
  | _ => cases mapping

end Value

namespace Config

theorem ofValue_nothing : ofValue (.dict []) = .ok default := rfl

end Config

namespace RunM

variable {F : DocumentFormat} {path : Path} {w : World} {bytes : ByteArray}

/-- What the file of a text says as a document. -/
def documentOf (F : DocumentFormat) (s : String) : Except Error Value := F.read (.ofText s)

/-- A file of `bytes` has a text that is the document `v`. -/
def Carries (F : DocumentFormat) (bytes : ByteArray) (v : Value) : Prop :=
  ∃ s : String, s.toUTF8 = bytes ∧ documentOf F s = .ok v

def IsMapping (v : Value) : Prop := ∃ es, v.bare = .dict es

/-- What can be read of bytes that are no text: pieces from the start of a text that the bytes start
with, and then they are refused. -/
structure BreaksOff (bytes : ByteArray) (t : TextStream) (complaint : String) : Prop where
  failure : t.failure = some complaint
  pieces : ∃ (s : String) (left : List UInt8), bytes.data.toList = s.toUTF8.data.toList ++ left ∧
    t.pieces.flatten <+: Text.unifyBreaks s.toList

/-- How loading a file of `bytes` ends. -/
structure Loads (F : DocumentFormat) (path : Path) (bytes : ByteArray) (r : Except Error Config) :
    Prop where
  empty : ∀ v, Carries F bytes v → v.content = .null → r = .ok .default
  mapping : ∀ v, Carries F bytes v → IsMapping v → r = Config.ofValue v
  /-- This is so although they are no mappings, and not empty documents either. -/
  nothing : ∀ v, Carries F bytes v → ¬IsMapping v → v.truthy = false → r = .ok .default
  other : ∀ v, Carries F bytes v → ¬IsMapping v → v.truthy = true →
    r = .error (.notMapping v.typeName)
  malformed : ∀ s : String, s.toUTF8 = bytes → documentOf F s = .error .malformedYaml →
    r = .error (.malformedConfig path.text)
  unmade : ∀ (s : String) e, s.toUTF8 = bytes → documentOf F s = .error e →
    e.kind ≠ .malformedYaml → r = .error e
  /-- The reader asks for more than there is, and is told what is wrong with the bytes, or it fails
  before. -/
  noText : (∀ s : String, s.toUTF8 ≠ bytes) →
    ∃ complaint e, BreaksOff bytes (.ofBytes bytes) complaint ∧
      F.read (.ofBytes bytes) = .error e ∧
      (e = .undecodable complaint → FailsWith .undecodable r) ∧
      (e.kind = .malformedYaml → r = .error (.malformedConfig path.text)) ∧
      (e.kind ≠ .malformedYaml → r = .error e)

/-! ## Reading -/

theorem inFile_of_ne {e : Error} (other : e.kind ≠ .malformedYaml) : inFile path e = e := by
  cases e <;> first | rfl | exact absurd rfl other

theorem inFile_of_eq {e : Error} (own : e.kind = .malformedYaml) :
    inFile path e = .malformedConfig path.text := by
  cases e <;> first | rfl | cases own

theorem readConfig_eq (readable : w.disk.read path = .ok bytes) :
    readConfig F path w = ((F.read (.ofBytes bytes)).mapError (inFile path), w) := by
  rw [readConfig, Steps.get_bind, readable]
  dsimp only
  rw [pure_bind]
  cases F.read (.ofBytes bytes) <;> rfl

theorem loadConfigWith_of_ok {v : Value} (readable : w.disk.read path = .ok bytes)
    (document : F.read (.ofBytes bytes) = .ok v) :
    (loadConfigWith F path w).1 = Config.ofValue (if v.truthy then v else .dict []) := by
  have run : readConfig F path w = (.ok v, w) := by rw [readConfig_eq readable, document]; rfl
  rw [loadConfigWith, Steps.bind_ok run, Steps.bind_ok (log_apply _ _ _ _)]
  cases Config.ofValue (if v.truthy then v else .dict []) <;> rfl

theorem loadConfigWith_of_error {e : Error} (readable : w.disk.read path = .ok bytes)
    (document : F.read (.ofBytes bytes) = .error e) :
    (loadConfigWith F path w).1 = .error (inFile path e) := by
  have run : readConfig F path w = (.error (inFile path e), w) := by
    rw [readConfig_eq readable, document]
    rfl
  rw [loadConfigWith, Steps.bind_error run]

/-- How the loading of a file ends that can be read, in any format. -/
theorem loadConfig_loads (F : DocumentFormat) (readable : w.disk.read path = .ok bytes) :
    Loads F path bytes (loadConfigWith F path w).1 := by
  have said {v : Value} (carried : Carries F bytes v) :
      (loadConfigWith F path w).1 = Config.ofValue (if v.truthy then v else .dict []) := by
    obtain ⟨s, text, document⟩ := carried
    rw [documentOf, ← TextStream.ofBytes_of_text text] at document
    exact loadConfigWith_of_ok readable document
  have unsaid {s : String} {e : Error} (text : s.toUTF8 = bytes)
      (document : documentOf F s = .error e) :
      (loadConfigWith F path w).1 = .error (inFile path e) := by
    rw [documentOf, ← TextStream.ofBytes_of_text text] at document
    exact loadConfigWith_of_error readable document
  refine ⟨?_, ?_, ?_, ?_, ?_, ?_, ?_⟩
  · intro v carried null
    rw [said carried, Value.truthy, null]
    exact Config.ofValue_nothing
  · rintro v carried ⟨es, mapping⟩
    rw [said carried, Value.truthy_of_bare mapping]
    cases es with
    | nil => exact Config.ofValue_eq_of_bare mapping.symm ⟨_, mapping⟩
    | cons => rfl
  · intro v carried _ nothing
    rw [said carried, nothing]
    exact Config.ofValue_nothing
  · intro v carried other something
    rw [said carried, something, if_pos rfl, Config.ofValue]
    split
    · next es mapping => exact absurd ⟨es, mapping⟩ other
    · rfl
  · intro s text document
    exact unsaid text document
  · intro s e text document other
    rw [unsaid text document, inFile_of_ne other]
  · intro noText
    obtain ⟨⟨complaint, failure⟩, pieces⟩ := TextStream.ofBytes_of_noText noText
    obtain ⟨e, document⟩ : ∃ e, F.read (.ofBytes bytes) = .error e := by
      cases document : F.read (.ofBytes bytes) with
      | error e => exact ⟨e, rfl⟩
      | ok v =>
        have whole := F.unbroken _ v document
        rw [failure] at whole
        cases whole
    have refused := loadConfigWith_of_error readable document
    refine ⟨complaint, e, ⟨failure, pieces⟩, document, fun asked => ?_, fun own => ?_,
      fun other => ?_⟩
    · rw [refused, asked]
      exact ⟨_, rfl, rfl⟩
    · rw [refused, inFile_of_eq own]
    · rw [refused, inFile_of_ne other]

/-- A world of one file. -/
def oneFile (bytes : ByteArray) : World where
  disk := { entries := [(["config.yaml"], .file bytes Sink.defaultMode)] }

/-- As a document an empty list is refused, but a file of one gives the default configuration; and a
byte that is no text is not a bad configuration. -/
theorem emptyList_loaded :
    FailsWith (.report .badConfig) (Config.ofValue (.list [])) ∧
    (loadConfig (.ofString "config.yaml") (oneFile "[]".toUTF8)).1 = .ok .default ∧
    FailsWith .undecodable (loadConfig (.ofString "config.yaml") (oneFile ⟨#[0xff]⟩)).1 := by
  refine ⟨⟨_, rfl, rfl⟩, ?_, ?_⟩
  · have readable :
        (oneFile "[]".toUTF8).disk.read (.ofString "config.yaml") = .ok "[]".toUTF8 := rfl
    have document : documentOf Yaml.format "[]" = .ok (.list []) :=
      Json.eq_ok_of_agree (by decide +kernel)
    refine (loadConfig_loads Yaml.format readable).nothing _ ⟨"[]", rfl, document⟩ ?_ rfl
    rintro ⟨_, mapping⟩
    cases mapping
  · have readable : (oneFile ⟨#[0xff]⟩).disk.read (.ofString "config.yaml") = .ok ⟨#[0xff]⟩ := rfl
    have noText (s : String) : s.toUTF8 ≠ ⟨#[0xff]⟩ := by
      intro text
      have pieces := TextStream.ofBytes_of_text text
      have broken : (TextStream.ofBytes ⟨#[0xff]⟩).failure.isSome := by decide +kernel
      rw [pieces] at broken
      cases broken
    have asked : FailsWith .undecodable (Yaml.format.read (.ofBytes ⟨#[0xff]⟩)) := by
      decide +kernel
    obtain ⟨e, document, undecodable⟩ := asked
    obtain ⟨complaint, e', -, document', -, -, refused⟩ :=
      (loadConfig_loads Yaml.format readable).noText noText
    obtain rfl : e = e' := Except.error.inj (document.symm.trans document')
    refine ⟨e, refused ?_, undecodable⟩
    rw [undecodable]
    decide

end RunM
end Polyad
