import Polyad.Config
import Polyad.Disk.Sink
import Polyad.Run.Log
import Polyad.Yaml.Format

/-!
# Runs

What a run reads and changes: the disk, the log, and the texts it has written to its two outputs. A
run that fails leaves the world as it was at that moment.
-/

namespace Polyad

structure World where
  disk : Disk := {}
  log : Log := {}
  /-- What has been written to the two outputs. -/
  output : String := ""
  errors : String := ""
  /-- The level asked for by the environment. -/
  environment : Option String := none
  /-- What the clock writes in front of a record. -/
  stamp : String := ""

abbrev RunM (α : Type) := ExceptT Error (StateM World) α

namespace World

/-- A text added to a file that is open already. -/
def append (w : World) (l : Location) (text : String) : World :=
  match w.disk.find? l with
  | some (.file bytes mode) => { w with disk := w.disk.put l (.file (bytes ++ text.toUTF8) mode) }
  | _ => w

def writeRecord (r : Record) (w : World) (h : Handler) : World :=
  let text := w.stamp ++ r.text ++ "\n"
  match h with
  | .console _ => { w with errors := w.errors ++ text }
  | .file (some l) _ => w.append l text
  | .file none _ => w

/-- The world after a record. -/
def logged (w : World) (r : Record) : World :=
  if w.log.showsBare r then { w with errors := w.errors ++ r.message ++ "\n" }
  else (w.log.handlersFor r).foldl (writeRecord r) w

end World

namespace RunM

def log (logger : String) (level : Level) (message : String) : RunM Unit :=
  modify (·.logged ⟨loggerName logger, level, message⟩)

def ofExcept {α : Type} : Except Error α → RunM α
  | .ok x => pure x
  | .error e => throw e

/-- An operation on the disk; what it changed before a failure stays changed. -/
def onDisk {α : Type} (act : Sink.SinkM α) : RunM α := fun w =>
  let (r, d) := act w.disk
  (r, { w with disk := d })

/-- Opens the file of a log, making it if it is not there. -/
def openLog (name : String) : RunM Location := fun w =>
  let path := (Path.ofString name).absolute w.disk.working
  match DiskM.openFile path Sink.defaultMode w.disk with
  | (.ok (l, _), d) => (.ok l, { w with disk := d })
  | (.error e, d) => (.error (.system e path.text), { w with disk := d })

/-- The file handler of a log file; an empty name asks for none. -/
def fileHandlers (logFile : Option String) (level : Nat) : RunM (List Handler) := do
  match logFile with
  | none => return []
  | some "" => return []
  | some name => return [.file (some (← openLog name)) level]

/-- Sets the log up. The old handlers are gone even if that fails. -/
def setUpLog (level : Except Error Nat) (logFile : Option String) : RunM Unit := do
  modify fun w => { w with log := { w.log with handlers := [] } }
  let n ← ofExcept level
  let files ← fileHandlers logFile n
  modify fun w => { w with log := ⟨n, .console n :: files, false⟩ }

/-- A failure to read a document, as one to read its file. -/
def inFile (path : Path) : Error → Error
  | .malformedYaml => .malformedConfig path.text
  | e => e

/-- The value of a configuration file. The file is decoded as far as the reader of the format asks
for its text. -/
def readConfig (F : DocumentFormat) (path : Path) : RunM Value := do
  let bytes ← match (← get).disk.read path with
    | .ok bytes => pure bytes
    | .error e =>
      throw (if e.isRefusal then .unreadableConfig e path.text else .system e path.text)
  ofExcept ((F.read (.ofBytes bytes)).mapError (inFile path))

/-- The configuration of a file; a file without anything in it gives the default one. -/
def loadConfigWith (F : DocumentFormat) (path : Path) : RunM Config := do
  let v ← readConfig F path
  log "config" .info ("Loaded configuration from " ++ path.text)
  ofExcept (Config.ofValue (if v.truthy then v else .dict []))

def loadConfig (path : Path) : RunM Config := loadConfigWith Yaml.format path

end RunM
end Polyad
