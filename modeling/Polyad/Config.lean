import Polyad.Code.Layout
import Polyad.Disk.Path

/-!
# Configurations

What one run generates and where. `Settings` are the fields as they are given, of any type; `check`
turns them into a `Config` or says what is wrong with the first bad one. The bound of the family is
not checked here, since the family has rules of its own for it. `ofValue` reads a document,
`override` puts single fields over a configuration that is there already.
-/

namespace Polyad

def defaultHeader : List String :=
  ["Generated by tuplegen.", "Regenerate this file instead of editing it."]

/-- A field as it is given: a value, or a formatter that is known already. -/
inductive Setting where
  | value (v : Value)
  | formatter (f : Code.Formatter)

/-- The fields of a configuration. -/
inductive Key where
  | outputDir
  | maxArity
  | interfacesModule
  | implementationsModule
  | runtimeModule
  | formatter
  | lineLength
  | header
  deriving DecidableEq, Repr

namespace Key

def name : Key → String
  | outputDir => "output_dir"
  | maxArity => "max_arity"
  | interfacesModule => "interfaces_module"
  | implementationsModule => "implementations_module"
  | runtimeModule => "runtime_module"
  | formatter => "formatter"
  | lineLength => "line_length"
  | header => "header"

def all : List Key :=
  [outputDir, maxArity, interfacesModule, implementationsModule, runtimeModule, formatter,
    lineLength, header]

def ofName? (s : String) : Option Key := all.find? (·.name == s)

theorem ofName?_name (k : Key) : ofName? k.name = some k := by cases k <;> decide

end Key

/-- The fields of a configuration before they are checked. -/
structure Settings where
  outputDir : Value := .null
  maxArity : Value := .int 24
  interfacesModule : Value := .str "tuples"
  implementationsModule : Value := .str "tuples_impl"
  runtimeModule : Value := .str "tuplegen.runtime"
  formatter : Setting := .formatter .black
  lineLength : Value := .null
  header : Value := .list (defaultHeader.map .str)

structure Config where
  /-- The text of a path, null if there is none. -/
  outputDir : Value
  /-- The bound of the family, of any type until the family is built. -/
  maxArity : Value
  interfacesModule : String
  implementationsModule : String
  /-- A value whose text is a dotted path. -/
  runtimeModule : Value
  formatter : Code.Formatter
  /-- The longest line; none if lines may have any length. -/
  lineLength : Option Int
  /-- The lines of the header, of any type until it is written. -/
  header : Value

namespace Settings

def set (s : Settings) (k : Key) (x : Setting) : Settings :=
  match k, x with
  | .formatter, x => { s with formatter := x }
  | .outputDir, .value v => { s with outputDir := v }
  | .maxArity, .value v => { s with maxArity := v }
  | .interfacesModule, .value v => { s with interfacesModule := v }
  | .implementationsModule, .value v => { s with implementationsModule := v }
  | .runtimeModule, .value v => { s with runtimeModule := v }
  | .lineLength, .value v => { s with lineLength := v }
  | .header, .value v => { s with header := v }
  | _, .formatter _ => s

def setAll (s : Settings) (fields : List (Key × Setting)) : Settings :=
  fields.foldl (fun s (k, x) => s.set k x) s

def checkModule (k : Key) (v : Value) : Except Error String :=
  match v with
  | .str s => if Text.isIdentifier s then .ok s else .error (.badModuleName k.name v)
  | v => .error (.badModuleName k.name v)

/-- Whether a line may be this long; a truth value is no length. -/
def checkLineLength (v : Value) : Except Error (Option Int) :=
  match v with
  | .null => .ok none
  | .int n => if 1 ≤ n then .ok (some n) else .error (.badLineLength v)
  | v => .error (.badLineLength v)

def checkFormatter : Setting → Except Error Code.Formatter
  | .formatter f => .ok f
  | .value v => .error (.badFormatter v)

def check (s : Settings) : Except Error Config := do
  let interfaces ← checkModule .interfacesModule s.interfacesModule
  let implementations ← checkModule .implementationsModule s.implementationsModule
  if interfaces == implementations then throw (.sameModule (.str interfaces))
  if !s.runtimeModule.hasText then throw .unwritable
  if !Text.isDottedPath s.runtimeModule.text then throw (.badRuntimeModule s.runtimeModule)
  let lineLength ← checkLineLength s.lineLength
  let formatter ← checkFormatter s.formatter
  return {
    outputDir := s.outputDir
    maxArity := s.maxArity
    interfacesModule := interfaces
    implementationsModule := implementations
    runtimeModule := s.runtimeModule
    formatter, lineLength
    header := s.header }

end Settings

namespace Config

def toSettings (c : Config) : Settings where
  outputDir := c.outputDir
  maxArity := c.maxArity
  interfacesModule := .str c.interfacesModule
  implementationsModule := .str c.implementationsModule
  runtimeModule := c.runtimeModule
  formatter := .formatter c.formatter
  lineLength := (c.lineLength.map .int).getD .null
  header := c.header

/-- The configuration of a run that is told nothing. -/
def default : Config where
  outputDir := .null
  maxArity := .int 24
  interfacesModule := "tuples"
  implementationsModule := "tuples_impl"
  runtimeModule := .str "tuplegen.runtime"
  formatter := .black
  lineLength := none
  header := .list (defaultHeader.map .str)

/-! ## Fields by name -/

/-- The keys of a document that are no fields, in order; only texts can be put in order and shown.
-/
def unknownKeys (keys : List Value) : Except Error Unit := do
  let unknown := keys.filter fun
    | .str s => (Key.ofName? s).isNone
    | _ => true
  if unknown.isEmpty then return
  let names ← unknown.mapM fun
    | .str s => .ok s
    | _ => .error .wrongType
  throw (.unknownKeys (names.mergeSort (· ≤ ·)))

/-- The entries of a document whose keys are fields. -/
def knownFields (entries : List (Value × Value)) : List (Key × Value) :=
  entries.filterMap fun
    | (.str s, v) => (Key.ofName? s).map (·, v)
    | _ => none

/-- A path in a document is put into its plain form. -/
def readOutputDir : Value → Except Error Value
  | .null => .ok .null
  | .str s => .ok (.str (Path.ofString s).text)
  | _ => .error .wrongType

def readFormatter (v : Value) : Except Error Setting :=
  match v with
  | .str s => match Code.Formatter.ofName? s with
    | some f => .ok (.formatter f)
    | none => .error (.unknownFormatter v)
  | v => .error (.unknownFormatter v)

/-- The text of an item of a header. -/
def readLine (v : Value) : Except Error Value :=
  if v.hasText then .ok (.str v.text) else .error .unwritable

/-- A header in a document: the lines of a text, or the texts of the items of a collection. -/
def readHeader : Value → Except Error Value
  | .null => .ok (.list [])
  | .str s => .ok (.list ((Text.paragraphs s).map .str))
  | v => match v.items? with
    | some items => (items.mapM readLine).map .list
    | none => .error .wrongType

/-- The value of a field of a document, if the document has it. -/
def given? (fields : List (Key × Value)) (k : Key) : Option Value := fields.lookup k

/-- A field as a setting; reading it may fail. -/
def readField (fields : List (Key × Value)) (k : Key) (read : Value → Except Error Setting) :
    Except Error (List (Key × Setting)) :=
  match given? fields k with
  | none => .ok []
  | some v => (read v).map fun x => [(k, x)]

/-- The settings of a document; the fields that need reading are read in this order. -/
def readFields (fields : List (Key × Value)) : Except Error (List (Key × Setting)) := do
  let outputDir ← readField fields .outputDir fun v => (readOutputDir v).map .value
  let formatter ← readField fields .formatter readFormatter
  let header ← readField fields .header fun v => (readHeader v).map .value
  let others := fields.filter fun (k, _) => ! [Key.outputDir, .formatter, .header].contains k
  return outputDir ++ formatter ++ header ++ others.map fun (k, v) => (k, .value v)

/-- The configuration a document describes. -/
def ofValue (v : Value) : Except Error Config :=
  match v.bare with
  | .dict entries => do
    unknownKeys (entries.map Prod.fst)
    let fields ← readFields (knownFields entries)
    (({} : Settings).setAll fields).check
  | _ => .error (.notMapping v.typeName)

/-- A setting that says something. -/
def isGiven : Setting → Bool
  | .value .null => false
  | _ => true

/-- The configuration with the given fields put over its own. -/
def override (c : Config) (fields : List (Key × Setting)) : Except Error Config :=
  (c.toSettings.setAll (fields.filter fun (_, x) => isGiven x)).check

/-- The fields that can be given with a call. -/
structure Flags where
  outputDir : Option String := none
  maxArity : Option Int := none
  formatter : Option Code.Formatter := none
  lineLength : Option Int := none

/-- What a call puts over a configuration; fields that are not given say nothing. -/
def Flags.settings (g : Flags) : List (Key × Setting) := [
  (.outputDir, .value ((g.outputDir.map Value.str).getD .null)),
  (.maxArity, .value ((g.maxArity.map Value.int).getD .null)),
  (.formatter, (g.formatter.map Setting.formatter).getD (.value .null)),
  (.lineLength, .value ((g.lineLength.map Value.int).getD .null))]

/-- Fields by name, all of which must be known. -/
def namedFields (fields : List (String × Setting)) : Except Error (List (Key × Setting)) := do
  unknownKeys (fields.map fun (name, _) => .str name)
  return fields.filterMap fun (name, x) => (Key.ofName? name).map (·, x)

/-! ## What a run takes from it -/

def requireOutputDir (c : Config) : Except Error Path :=
  match c.outputDir with
  | .null => .error .noOutputDir
  | .str s => .ok (Path.ofString s)
  | _ => .error .wrongType

def interfacesPath (c : Config) : Except Error Path := do
  return (← c.requireOutputDir).child (c.interfacesModule ++ ".py")

def implementationsPath (c : Config) : Except Error Path := do
  return (← c.requireOutputDir).child (c.implementationsModule ++ ".py")

/-- A line of the header: nothing stands for an empty line. -/
def headerLine (v : Value) : String := if v.truthy then v.text else ""

/-- The lines of the header. -/
def headerLines (c : Config) : Except Error (List String) :=
  if c.header.truthy then
    match c.header.items? with
    | some items => .ok (items.map headerLine)
    | none => .error .wrongType
  else .ok []

/-- The lines of the header are put into words when a text is finished, which can fail then. -/
def tellHeader (c : Config) : Except Error Unit :=
  if Value.allHaveText (c.header.items?.getD []) then .ok () else .error .unwritable

end Config
end Polyad
