import Polyad.Code.Reformat
import Polyad.Generated.StandIn
import Polyad.Run.World

/-!
# Generation

One run: the family of a configuration is built, its two files are put together and rendered, and
only then are they written, the contracts first. So nothing is written unless both texts are there.
What the reformatter does to a text is left open up to `Config.renderDraft` and `Run.generate`.
-/

namespace Polyad

/-- The texts of a family. -/
structure Rendered where
  family : Family
  contracts : String
  concretes : String

/-- What a run has written, by the locations of the files. -/
structure Generated where
  family : Family
  contracts : Location
  concretes : Location

namespace Config

/-- The path of the module that supports the generated code; only a text is one. -/
def runtimePath (c : Config) : Except Error String :=
  match c.runtimeModule with
  | .str s => .ok s
  | _ => .error .wrongType

/-- The two files of a family. -/
def files (c : Config) (f : Family) : Except Error (Code.File × Code.File) := do
  let runtime := c.runtimeModule.text
  let contracts ← Generated.contractsFile f runtime c.interfacesModule
  let concretes ← Generated.concretesFile f runtime c.interfacesModule c.implementationsModule
  return (contracts, concretes)

/-- How the texts of a run are finished. -/
def finish (c : Config) (reformat : Code.Reformatter) : Code.Finish :=
  match c.formatter with
  | .plain => .plain
  | .black => reformat (c.lineLength.getD Code.unboundedLineLength)

theorem finish_plain {c : Config} (plain : c.formatter = .plain) (reformat : Code.Reformatter) :
    c.finish reformat = .plain := by
  rw [finish, plain]

/-- The final texts of a family. -/
def renderFamily (c : Config) (reformat : Code.Reformatter) (f : Family) :
    Except Error Rendered := do
  let header ← c.headerLines
  let (contracts, concretes) ← c.files f
  let _ ← c.runtimePath
  let first ← contracts.document (c.finish reformat) header
  c.tellHeader
  let second ← concretes.document (c.finish reformat) header
  return { family := f, contracts := first, concretes := second }

/-- The final texts of the family of a draft, that of the contracts first. -/
def renderDraft (c : Config) (f : FamilyDraft) : Except Error (String × String) := do
  let header ← c.headerLines
  let cast := Generated.Cast.ofDrafts none (some f)
  let runtime := c.runtimeModule.text
  let contracts ← cast.contractsFile runtime c.interfacesModule
  let concretes ← cast.concretesFile runtime c.interfacesModule c.implementationsModule
  let _ ← c.runtimePath
  let finish := c.finish Code.reformat
  let final (f : Code.File) : Except Error String := do
    return cast.standIns.fill (← (← cast.standIns.settle f).document finish header)
  let first ← final contracts
  c.tellHeader
  return (first, ← final concretes)

/-- The final texts of the family that the configuration bounds. -/
def render (c : Config) (reformat : Code.Reformatter) : Except Error Rendered := do
  c.renderFamily reformat (← Family.buildFrom c.maxArity)

end Config

namespace Run

/-- The bound of a family as it is told; only numbers can be. -/
def boundText? (v : Value) : Option String :=
  match v.content with
  | .float x =>
    match Decimal.classify x with
    | .finite b => some (toString ((if b.negative then -1 else 1 : Int) *
        (b.mantissa * Decimal.twoTo b.exponent.toNat / Decimal.twoTo (-b.exponent).toNat : Nat)))
    | _ => none
  | v => v.toInt?.map toString

def logMembers (logger : String) (f : Family) (message : Member → String) : RunM Unit :=
  f.members.forM fun m => RunM.log logger .debug (message m)

def buildFamily (bound : Value) : RunM Family := do
  let f ← RunM.ofExcept (Family.buildFrom bound)
  logMembers "builder" f fun m =>
    "Built model for arity " ++ toString m.arity ++ " (" ++ m.className ++ ")"
  return f

/-- Builds and renders the family of a configuration. -/
def render (reformat : Code.Reformatter) (c : Config) : RunM Rendered := do
  let f ← buildFamily c.maxArity
  let _ ← RunM.ofExcept c.headerLines
  logMembers "emitters.interfaces" f ("Emitting interface " ++ ·.interfaceName)
  logMembers "emitters.implementations" f ("Emitting implementation " ++ ·.className)
  RunM.ofExcept (c.renderFamily reformat f)

/-- Writes one file and gives its location. -/
def write (faults : Sink.Faults) (encoding : String) (path : Path) (text : String) :
    RunM Location := do
  let size ← RunM.onDisk (Sink.write faults encoding path text)
  match (← get).disk.locate path with
  | .ok l =>
    modify fun w => { w with log := w.log.detach l }
    RunM.log "writer" .info ("Wrote " ++ path.text ++ " (" ++ toString size ++ " bytes)")
    return l
  | .error e => throw (.system e path.text)

/-- Tells what is about to be generated, if the bound can be told. -/
def announce (c : Config) (out : Path) : RunM Unit := do
  if let some bound := boundText? c.maxArity then
    RunM.log "pipeline" .info
      ("Generating tuple family up to arity " ++ bound ++ " into " ++ out.text)

/-- A whole run; `first` and `second` are the faults of the two writes. -/
def generateWith (reformat : Code.Reformatter) (first second : Sink.Faults) (encoding : String)
    (c : Config) : RunM Generated := do
  let out ← RunM.ofExcept c.requireOutputDir
  announce c out
  let rendered ← render reformat c
  let contracts ← write first encoding (← RunM.ofExcept c.interfacesPath) rendered.contracts
  let concretes ← write second encoding (← RunM.ofExcept c.implementationsPath) rendered.concretes
  RunM.log "pipeline" .info
    ("Generated " ++ toString rendered.family.members.length ++ " tuple types")
  return { family := rendered.family, contracts, concretes }

def generate (encoding : String) (c : Config) : RunM Generated :=
  generateWith Code.reformat Sink.noFaults Sink.noFaults encoding c

/-- The text of a location. -/
def locationText (l : Location) : String := "/" ++ "/".intercalate l

end Run
end Polyad
