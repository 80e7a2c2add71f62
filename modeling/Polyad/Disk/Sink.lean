import Polyad.Disk.Tree
import Polyad.Text.Encoding

/-!
# Writing generated files

A file is either written as a whole or left as it was: the text goes to a temporary file beside the
destination, which then takes its place. Each step may fail, by itself or by a fault from outside; a
temporary file never stays behind. An old file keeps its permissions.
-/

namespace Polyad.Sink

inductive Step where
  | encode
  | makeParents
  | readMode
  | createTemporary
  | writeData
  | setMode
  | replace
  deriving DecidableEq, Repr

/-- What a step can raise. -/
inductive Fault where
  | system (cause : SystemError)
  | encoding (cause : Text.EncodeFailure)
  | interrupt
  deriving DecidableEq, Repr

/-- What goes wrong from outside. A step that is done bit by bit may have begun by then. -/
structure Faults where
  /-- The fault that comes at each step, if any. -/
  at? : Step → Option Fault
  /-- How many components of the parent are settled when a fault stops the making of it. -/
  settled : Nat := 0
  /-- How many bytes are in the temporary file when a fault stops the writing. -/
  written : Nat := 0

def noFaults : Faults where
  at? _ := none

/-- The mode of a new file. -/
def defaultMode : Nat := 0o644

/-- The mode of a temporary file. -/
def privateMode : Nat := 0o600

/-- The part of a mode that says who may do what. -/
def permissions (mode : Nat) : Nat := mode % 0o1000

/-- The step that failed and what it raised. -/
structure Failure where
  step : Step
  fault : Fault
  deriving DecidableEq, Repr

/-- Whether a fault is a refusal of the system. -/
def Fault.isRefusal : Fault → Bool
  | .system cause => cause.isRefusal
  | _ => false

/-- Whether a fault is a character that the encoding has no bytes for. -/
def Fault.isUnencodable : Fault → Bool
  | .encoding (.unencodable _) => true
  | _ => false

/-- A fault as it is, for a text on its way to `path`. -/
def Fault.error (encoding path : String) : Fault → Error
  | .system cause => .system cause path
  | .encoding .unknown => .unknownEncoding encoding
  | .encoding .nullInName => .badValue "embedded null character"
  | .encoding .notOfTexts => .notOfTexts encoding
  | .encoding (.unencodable reason) => .badValue reason
  | .interrupt => .interrupted

/-- What a failure is reported as: a text that cannot be encoded and refusals on the disk are
failures to write, anything else is passed on. -/
def Failure.error (encoding path : String) (f : Failure) : Error :=
  match f.step, f.fault with
  | .encode, .encoding (.unencodable reason) => .cannotEncode encoding reason path
  | .encode, fault => fault.error encoding path
  | _, fault => if fault.isRefusal then .cannotWrite path else fault.error encoding path

/-- Steps, each of which may fail; what was done before stays done. -/
abbrev StepM (α : Type) := ExceptT Failure (StateM Disk) α

abbrev SinkM (α : Type) := ExceptT Error (StateM Disk) α

/-- A step on the disk. A fault from outside stops it when `begun` is done. -/
def step {α : Type} (faults : Faults) (s : Step) (begun : DiskM Unit) (act : DiskM α) :
    StepM α := fun d =>
  match faults.at? s with
  | some f => (.error ⟨s, f⟩, (begun d).2)
  | none =>
    match act d with
    | (.ok x, d) => (.ok x, d)
    | (.error cause, d) => (.error ⟨s, .system cause⟩, d)

/-- Runs `act`; if it fails, undoes `l` first. -/
def removingOnFailure {α : Type} (l : Location) (act : StepM α) : StepM α := fun d =>
  match act d with
  | (.ok x, d) => (.ok x, d)
  | (.error f, d) => (.error f, d.erase l)

/-- The permissions of a file that is there, the default for a new one. -/
def modeFor (path : Path) : DiskM Nat := do
  match (← get).lookAt path with
  | .ok (some (.file _ mode)) => return permissions mode
  | .ok _ => return defaultMode
  | .error .nameTooLong => throw .nameTooLong
  | .error _ => return defaultMode

/-- Names for a temporary file: `number` tells them apart, and is as wide as eight characters. -/
def temporaryName (name : String) (number : Nat) : String :=
  "." ++ name ++ "." ++ padded 8 number ++ ".tmp"

/-- The first number from `n` on, of at most `fuel`, that no entry of a directory is named by. -/
def freeNumber (d : Disk) (directory : Location) (name : String) : Nat → Nat → Nat
  | 0, n => n
  | fuel + 1, n =>
    if (d.find? (directory ++ [temporaryName name n])).isSome
    then freeNumber d directory name fuel (n + 1) else n

/-- Creates an empty file beside the destination. -/
def createTemporary (path : Path) : DiskM Location := do
  let directory ← DiskM.locate path.parent
  let d ← get
  let name := temporaryName path.name (freeNumber d directory path.name d.entries.length 0)
  let (l, _, _) ← DiskM.openFile (path.parent.child name) privateMode
  return l

/-- The bytes of a text. -/
def encode (faults : Faults) (encoding text : String) : StepM ByteArray :=
  match faults.at? .encode, Text.encode encoding text with
  | some f, _ => throw ⟨.encode, f⟩
  | none, .ok bytes => pure bytes
  | none, .error cause => throw ⟨.encode, .encoding cause⟩

/-- Makes the directory of a file and every missing one above it. -/
def makeParents (faults : Faults) (path : Path) : StepM Unit :=
  let parent := path.parent
  step faults .makeParents
    (DiskM.ensureDirectory { parent with parts := parent.parts.take faults.settled })
    (DiskM.ensureDirectory parent)

/-- Fills the temporary file at `l` and moves it to `path`. -/
def fillAndReplace (faults : Faults) (l : Location) (path : Path) (bytes : ByteArray)
    (mode : Nat) : StepM Unit := do
  step faults .writeData
    (modify (·.put l (.file (bytes.extract 0 faults.written) privateMode)))
    (modify (·.put l (.file bytes privateMode)))
  step faults .setMode (pure ()) (modify (·.put l (.file bytes mode)))
  step faults .replace (pure ()) (DiskM.replace l path)

/-- Replaces the file at `path` by bytes. -/
def writeBytes (faults : Faults) (path : Path) (bytes : ByteArray) : StepM Unit := do
  makeParents faults path
  let mode ← step faults .readMode (pure ()) (modeFor path)
  let temporary ← step faults .createTemporary (pure ()) (createTemporary path)
  removingOnFailure temporary (fillAndReplace faults temporary path bytes mode)

/-- Replaces the file at `path` by a text and gives the number of its bytes. -/
def perform (faults : Faults) (encoding : String) (path : Path) (text : String) : StepM Nat := do
  let bytes ← encode faults encoding text
  writeBytes faults path bytes
  return bytes.size

/-- Replaces the file at `path` by a text, with failures as they are reported. -/
def write (faults : Faults) (encoding : String) (path : Path) (text : String) : SinkM Nat :=
  fun d =>
    match perform faults encoding path text d with
    | (.ok size, d) => (.ok size, d)
    | (.error f, d) => (.error (f.error encoding path.text), d)

/-- Some lines as a text, each ended by a line feed. -/
def textOfLines (lines : List String) : String := "\n".intercalate lines ++ "\n"

end Polyad.Sink
