import Polyad.Run.Call
import Std.Time

/-!
# The program

The command line. What a call may touch is read from the disk first: the configuration file, the log
file and the two output files, with the directories above them. The call itself runs on that picture
of the disk, and what it changed there is then written back, each file under another name first and
moved into place.
-/

namespace Polyad.Shell

/-- The components of a path of the operating system. -/
def componentsOf (s : String) : Location := (Path.ofString s).parts

/-- The text of a location for the operating system. -/
def osPath (l : Location) : String := Run.locationText l

/-- The picture of the disk with one more location in it. -/
def look (d : Disk) (l : Location) : IO Disk := do
  let path := (← IO.currentDir) / osPath l
  if ← path.isDir then return d.put l .directory
  if ← path.pathExists then
    return d.put l (.file (← IO.FS.readBinFile path) Sink.defaultMode)
  return d

/-- The picture of the disk with a path and all directories above it. -/
def capture (d : Disk) (path : Path) : IO Disk :=
  let parts := (path.absolute d.working).parts
  (List.range (parts.length + 1)).foldlM (fun d n => look d (parts.take n)) d

/-- Captures a path that may not be given. -/
def captureText (d : Disk) (path : Option String) : IO Disk :=
  match path with
  | some s => capture d (Path.ofString s)
  | none => return d

/-- The paths a request writes to, as far as its configuration can be read. -/
def outputsOf (q : Command.Request) (w : World) : List Path :=
  match (Run.configFor q w).1 with
  | .ok c => [c.interfacesPath, c.implementationsPath].filterMap Except.toOption
  | .error _ => []

/-- The world that a call with these arguments runs in. -/
def worldFor (arguments : List String) : IO World := do
  let working := componentsOf (← IO.currentDir).toString
  let now ← Std.Time.PlainDateTime.now
  let w : World := {
    disk := ← capture { working } (Path.ofString ".")
    environment := ← IO.getEnv "TUPLEGEN_LOG_LEVEL"
    stamp := now.format "uuuu-MM-dd HH:mm:ss,SSS" ++ " - " }
  match Command.Request.read arguments with
  | .error _ => return w
  | .ok q => do
    let disk ← captureText (← captureText w.disk q.config) q.logFile
    let disk ← (outputsOf q { w with disk }).foldlM capture disk
    return { w with disk }

/-- Puts a changed entry of the picture on the disk. -/
def store (l : Location) (e : Entry) : IO Unit := do
  match e with
  | .directory => IO.FS.createDirAll (osPath l)
  | .file bytes _ => do
    let aside := osPath l ++ ".tmp"
    IO.FS.writeBinFile aside bytes
    IO.FS.rename aside (osPath l)

/-- Puts on the disk what differs between two pictures of it, directories first. -/
def storeChanges (before after : Disk) : IO Unit := do
  let changed := after.entries.filter fun (l, e) => !((before.find? l).any (e.same ·))
  let ordered := changed.mergeSort fun a b => a.1.length ≤ b.1.length
  ordered.forM fun (l, e) => store l e

end Polyad.Shell

open Polyad in
/-- Runs a call and ends with its exit code. -/
def main (arguments : List String) : IO UInt32 := do
  let before ← Shell.worldFor arguments
  let (result, after) := Run.call arguments before
  Shell.storeChanges before.disk after.disk
  IO.eprint after.errors
  IO.print after.output
  match result with
  | .ok code => return UInt32.ofNat code
  | .error e => do
    IO.eprintln (e.message?.getD "unexpected failure")
    return 1
