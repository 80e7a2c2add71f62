import Polyad.Value

/-!
# Failures

Every way an operation can fail is a cause. `Error.kind` sorts the causes, `Error.report?` gives the
message and details of the ones this library words itself, and `Error.message?` is the text shown
for any of them. The text of a report is its message, followed by its details in parentheses.
-/

namespace Polyad

/-- The kinds of report a generation run can end with. `unsupportedArity` is a special
`invalidArity`, and all are special cases of `generator`. -/
inductive ReportKind where
  | generator
  | invalidArity
  | unsupportedArity
  | inconsistentModel
  | missingAnchor
  | rejectedSource
  | badConfig
  | failedWrite
  deriving DecidableEq, Repr

/-- A kind and the more general ones above it. -/
def ReportKind.lineage : ReportKind → List ReportKind
  | .generator => [.generator]
  | .unsupportedArity => [.unsupportedArity, .invalidArity, .generator]
  | k => [k, .generator]

structure Report where
  kind : ReportKind
  message : String
  details : List (String × Value) := []

namespace Report

def detailText (d : String × Value) : String := d.1 ++ "=" ++ d.2.text

def text (r : Report) : String :=
  if r.details.isEmpty then r.message
  else r.message ++ " (" ++ ", ".intercalate (r.details.map detailText) ++ ")"

/-- A report about an arity; an absent arity is no detail. -/
def ofArity (kind : ReportKind) (message : String) (arity : Value) : Report where
  kind := kind
  message := message
  details := match arity with
    | .null => []
    | v => [("arity", v)]

/-- A report about a file; an empty name is no detail. -/
def ofFile (kind : ReportKind) (message : String) (filename : Value) : Report where
  kind := kind
  message := message
  details := if filename.truthy then [("file", filename)] else []

/-- A report about a rendered text of `size` characters; an empty text is no detail. -/
def ofSource (message : String) (filename : Value) (size : Nat) : Report :=
  let r := ofFile .rejectedSource message filename
  { r with details := r.details ++ if size == 0 then [] else [("source_length", .int size)] }

end Report

/-- What the operating system refuses, and what cannot even be asked of it. -/
inductive SystemError where
  | noEntry
  | accessDenied
  | occupied
  | notDirectory
  | isDirectory
  | nameTooLong
  /-- A path that its first null byte would end. -/
  | nullByte
  deriving DecidableEq, Repr

namespace SystemError

/-- Whether it is the system that refuses. -/
def isRefusal (e : SystemError) : Bool := e != nullByte

def code : SystemError → Nat
  | nullByte => 0
  | noEntry => 2
  | accessDenied => 13
  | occupied => 17
  | notDirectory => 20
  | isDirectory => 21
  | nameTooLong => 36

def wording : SystemError → String
  | nullByte => "embedded null byte"
  | noEntry => "No such file or directory"
  | accessDenied => "Permission denied"
  | occupied => "File exists"
  | notDirectory => "Not a directory"
  | isDirectory => "Is a directory"
  | nameTooLong => "File name too long"

/-- What is said about an operation on a path; a refusal has a number and names the path. -/
def text (e : SystemError) (path : String) : String :=
  if e.isRefusal then
    "[Errno " ++ toString e.code ++ "] " ++ e.wording ++ ": " ++ Text.quoted path
  else e.wording

end SystemError

inductive Error where
  /-- Names exist for the arities 1 to 100. -/
  | noFamilyName (arity : Value)
  | noCardinal (number : Value)
  | noOrdinal (position : Value)
  /-- A position past the last letter; `next` is the arity it belongs to. -/
  | noLetter (index next : Value)
  | arityNotWhole (bound : Value)
  | arityTooSmall (bound : Int)
  | arityTooLarge (bound : Int)
  | arityUnnamed (arity : Int) (reason : String)
  | paramCount (name : Value) (params labels : Nat) (arity : Value)
  | positionCount (name : Value) (arity : Value) (labels ordinals : Nat)
  | duplicateLabels (name : Value) (arity : Value)
  | noMembers
  | misplacedMember (position : Nat) (arity : Value)
  | boundMismatch (last bound : Value)
  | misplacedExtension (name : Value) (policy : String) (arity : Value)
  | noImportBlock (filename : String)
  | rejectedSource (filename : String) (size : Nat)
  | noOutputDir
  | badModuleName (field : String) (value : Value)
  | sameModule (name : Value)
  | badRuntimeModule (value : Value)
  | badLineLength (value : Value)
  | badFormatter (value : Value)
  | unknownFormatter (value : Value)
  | notMapping (typeName : String)
  | unknownKeys (keys : List String)
  | unreadableConfig (cause : SystemError) (path : String)
  | malformedConfig (path : String)
  | cannotEncode (encoding reason path : String)
  | cannotWrite (path : String)
  /-- An operation met a value of a type it has no meaning for. -/
  | wrongType
  /-- Something was asked of an absent value. -/
  | absent
  | missingKey (key : Value)
  | notAMember (enumeration : String) (value : Value)
  | badValue (message : String)
  | badIndex (message : String)
  /-- A text that is no whole number of a base. -/
  | notWhole (base : Nat) (text : String)
  /-- More digits than a whole number is read with. -/
  | wholeTooLong (digits : Nat)
  /-- More digits than a whole number is written with. -/
  | unwritable
  /-- A text that is no floating point number. -/
  | notPointed (text : String)
  /-- A number past the range of what it is put into. -/
  | outOfRange (message : String)
  /-- A text that leads back into itself without end. -/
  | endless
  /-- Two values that hold themselves and differ nowhere. -/
  | endlessComparison
  | unknownEncoding (name : String)
  /-- An encoding that does not take texts. -/
  | notOfTexts (encoding : String)
  | undecodable (message : String)
  | malformedJson
  | malformedYaml
  | system (cause : SystemError) (path : String)
  /-- Something from outside ended the operation. -/
  | interrupted

/-- What a failure is called. -/
inductive ErrorKind where
  | report (kind : ReportKind)
  | wrongType
  | absent
  | missingKey
  | badValue
  | badIndex
  | outOfRange
  | endless
  | unknownEncoding
  | undecodable
  | malformedJson
  | malformedYaml
  | system (cause : SystemError)
  | interrupted
  deriving DecidableEq, Repr

namespace Error

/-- The report of a cause that this library words itself. -/
def report? : Error → Option Report
  | noFamilyName a => some <| .ofArity .unsupportedArity
      ("No family name for arity " ++ a.text ++ ", supported range is 1..100") a
  | noCardinal n => some <| .ofArity .unsupportedArity
      ("Cannot spell out " ++ n.text ++ ", supported range is 0..999") n
  | noOrdinal p => some <| .ofArity .unsupportedArity
      ("No ordinal for " ++ p.text ++ ", supported range is 1..999") p
  | noLetter i next => some <| .ofArity .unsupportedArity
      ("Position " ++ i.text ++ " exceeds the letter budget of 25") next
  | arityNotWhole b => some <| .ofArity .invalidArity
      ("Maximum arity must be an integer, got " ++ b.shown) .null
  | arityTooSmall n => some <| .ofArity .invalidArity "Maximum arity must be at least 1" (.int n)
  | arityTooLarge n => some <| .ofArity .invalidArity
      "Maximum arity exceeds the letter budget of 25" (.int n)
  | arityUnnamed n reason => some <| .ofArity .invalidArity
      ("Cannot name arity " ++ toString n ++ ": " ++ reason) (.int n)
  | paramCount name params labels a => some <| .ofArity .inconsistentModel
      (name.text ++ " has " ++ toString params ++ " type parameters but " ++ toString labels ++
        " accessor labels") a
  | positionCount name a labels ordinals => some <| .ofArity .inconsistentModel
      (name.text ++ " declares arity " ++ a.text ++ " but has " ++ toString labels ++
        " labels and " ++ toString ordinals ++ " ordinals") a
  | duplicateLabels name a => some <| .ofArity .inconsistentModel
      (name.text ++ " has duplicate labels") a
  | noMembers => some <| .ofArity .inconsistentModel "Family has no members" .null
  | misplacedMember p a => some <| .ofArity .inconsistentModel
      ("Family member at position " ++ toString p ++ " has arity " ++ a.text) a
  | boundMismatch last bound => some <| .ofArity .inconsistentModel
      ("Family ends at arity " ++ last.text ++ ", expected " ++ bound.text) last
  | misplacedExtension name policy a => some <| .ofArity .inconsistentModel
      (name.text ++ " has extension policy " ++ policy) a
  | noImportBlock f => some <| .ofFile .missingAnchor "rendered source has no import block" (.str f)
  | rejectedSource f size => some <| .ofSource "black rejected the rendered source"
      (.str f) size
  | noOutputDir => some ⟨.badConfig,
      "No output directory configured, pass OUTPUT_DIR or set output_dir", []⟩
  | badModuleName field v => some ⟨.badConfig,
      field ++ " must be a valid module name", [(field, v)]⟩
  | sameModule v => some ⟨.badConfig,
      "interfaces_module and implementations_module must differ", [("module", v)]⟩
  | badRuntimeModule v => some ⟨.badConfig,
      "runtime_module must be a dotted module path", [("runtime_module", v)]⟩
  | badLineLength v => some ⟨.badConfig,
      "line_length must be a positive integer or null", [("line_length", v)]⟩
  | badFormatter v => some ⟨.badConfig, "formatter must be a Formatter", [("formatter", v)]⟩
  | unknownFormatter v => some ⟨.badConfig, "Unknown formatter", [("formatter", v)]⟩
  | notMapping t => some ⟨.badConfig, "Configuration must be a mapping, got " ++ t, []⟩
  | unknownKeys ks => some ⟨.badConfig, "Unknown configuration keys",
      [("keys", .str (", ".intercalate ks))]⟩
  | unreadableConfig cause path => some ⟨.badConfig,
      "Cannot read configuration file: " ++ cause.text path, [("file", .str path)]⟩
  | malformedConfig path => some ⟨.badConfig, "Invalid YAML", [("file", .str path)]⟩
  | cannotEncode enc reason path => some <| .ofFile .failedWrite
      ("Generated text cannot be encoded as " ++ enc ++ ": " ++ reason) (.str path)
  | cannotWrite path => some <| .ofFile .failedWrite "Cannot write generated file"
      (.str path)
  | _ => none

def kind (e : Error) : ErrorKind :=
  match e.report?, e with
  | some r, _ => .report r.kind
  | none, absent => .absent
  | none, missingKey _ => .missingKey
  | none, notAMember .. => .badValue
  | none, badValue _ => .badValue
  | none, notWhole .. => .badValue
  | none, wholeTooLong _ => .badValue
  | none, unwritable => .badValue
  | none, notPointed _ => .badValue
  | none, badIndex _ => .badIndex
  | none, outOfRange _ => .outOfRange
  | none, endless => .endless
  | none, endlessComparison => .endless
  | none, unknownEncoding _ => .unknownEncoding
  | none, notOfTexts _ => .unknownEncoding
  | none, undecodable _ => .undecodable
  | none, malformedJson => .malformedJson
  | none, malformedYaml => .malformedYaml
  | none, system cause _ => .system cause
  | none, interrupted => .interrupted
  | none, _ => .wrongType

/-- The text of a failure; some have none. -/
def message? (e : Error) : Option String :=
  match e.report?, e with
  | some r, _ => some r.text
  | none, missingKey k => some k.shown
  | none, notAMember enumeration v => some (v.shown ++ " is not a valid " ++ enumeration)
  | none, badValue m => some m
  | none, badIndex m => some m
  | none, notWhole base t => some <| "invalid literal for int() with base " ++ toString base ++
      ": " ++ String.ofList ((Text.quoted t).toList.take 200)
  | none, wholeTooLong n => some <| "Exceeds the limit (4300 digits) for integer string " ++
      "conversion: value has " ++ toString n ++
      " digits; use sys.set_int_max_str_digits() to increase the limit"
  | none, unwritable => some <| "Exceeds the limit (4300 digits) for integer string conversion; " ++
      "use sys.set_int_max_str_digits() to increase the limit"
  | none, notPointed t => some ("could not convert string to float: " ++ Text.quoted t)
  | none, outOfRange m => some m
  | none, endless => some "maximum recursion depth exceeded"
  | none, endlessComparison => some "maximum recursion depth exceeded in comparison"
  | none, unknownEncoding n => some ("unknown encoding: " ++ n)
  | none, notOfTexts n => some ("'" ++ n ++
      "' is not a text encoding; use codecs.encode() to handle arbitrary codecs")
  | none, undecodable m => some m
  | none, system cause path => some (cause.text path)
  | none, _ => none

/-- A failure whose message tells of some values; if one of them has no text, this is what fails. -/
def telling (values : List Value) (e : Error) : Error :=
  if Value.allHaveText values then e else .unwritable

/-- Steps in a row succeed if each of them does. -/
theorem bind_eq_ok_iff {α β : Type} {x : Except Error α} {f : α → Except Error β} {b : β} :
    (x >>= f) = .ok b ↔ ∃ a, x = .ok a ∧ f a = .ok b := by
  cases x <;> simp [bind, Except.bind]

theorem mapM_eq_ok {α β : Type} {f : α → Except Error β} {g : α → β} {xs : List α}
    (h : ∀ x ∈ xs, f x = .ok (g x)) : xs.mapM f = .ok (xs.map g) := by
  induction xs with
  | nil => rfl
  | cons x xs ih =>
    rw [List.mapM_cons, h x List.mem_cons_self, ih fun y hy => h y (List.mem_cons_of_mem _ hy)]
    rfl

theorem exists_of_mapM_eq_ok {α β : Type} {step : α → Except Error β} {xs : List α}
    {ys : List β} (run : xs.mapM step = .ok ys) : ∀ x ∈ xs, ∃ y, step x = .ok y := by
  induction xs generalizing ys with
  | nil => simp
  | cons x xs ih =>
    rw [List.mapM_cons] at run
    obtain ⟨y, own, run⟩ := bind_eq_ok_iff.1 run
    obtain ⟨zs, rest, -⟩ := bind_eq_ok_iff.1 run
    exact List.forall_mem_cons.2 ⟨⟨y, own⟩, ih rest⟩

theorem forM_eq_ok {α : Type} {f : α → Except Error Unit} {xs : List α}
    (h : ∀ x ∈ xs, f x = .ok ()) : xs.forM f = .ok () := by
  induction xs with
  | nil => rfl
  | cons x xs ih =>
    refine bind_eq_ok_iff.2 ⟨(), h x List.mem_cons_self, ?_⟩
    exact ih fun y hy => h y (List.mem_cons_of_mem _ hy)

/-- What a step gives that succeeds. -/
def got {α : Type} [Inhabited α] : Except Error α → α
  | .ok a => a
  | .error _ => default

theorem eq_ok_got {α : Type} [Inhabited α] {x : Except Error α} (h : ∃ a, x = .ok a) :
    x = .ok (got x) := by
  obtain ⟨a, rfl⟩ := h
  rfl

end Error

/-- A failure of some kind. -/
def FailsWith {α : Type} (kind : ErrorKind) (x : Except Error α) : Prop :=
  ∃ e, x = .error e ∧ e.kind = kind

instance {α : Type} (kind : ErrorKind) : (x : Except Error α) → Decidable (FailsWith kind x)
  | .ok _ => isFalse (by simp [FailsWith])
  | .error e => decidable_of_iff (e.kind = kind) (by simp [FailsWith])

end Polyad
