import Polyad.Code.Layout
import Polyad.Command.Flag
import Polyad.Decimal.Reader

/-!
# Requests

What a call asks for, read from its arguments. Each argument is sorted into a word first: a flag, a
plain word, or the separator after which all words are plain. Flags may be shortened as long as one
fits, and may carry their value behind an equals sign. Then the words are gone through in order: a
flag takes the plain word after it, the first other plain word is the output directory, and a word
nobody takes is a complaint at the end.
-/

namespace Polyad.Command

structure Request where
  outputDir : Option String := none
  maxArity : Option Int := none
  config : Option String := none
  formatter : Option Code.Formatter := none
  lineLength : Option Int := none
  dumpModel : Bool := false
  logLevel : Option String := none
  logFile : Option String := none

/-- Why reading the arguments ends early. -/
inductive Stop where
  | help
  | version
  | refused (r : Refusal)

inductive Word where
  | plain (s : String)
  | separator
  /-- A flag with the value behind its equals sign, if there is one. -/
  | flag (f : Flag) (value : Option String)
  /-- The short form of a request for help with what is joined to it. -/
  | shortHelp (joined : List Char)
  /-- What looks like a flag but is none. -/
  | unknown (s : String)
  deriving DecidableEq, Repr

namespace Word

def text : Word → String
  | plain s => s
  | separator => "--"
  | flag f value => f.long ++ (value.map ("=" ++ ·)).getD ""
  | shortHelp joined => "-h" ++ String.ofList joined
  | unknown s => s

/-- The parts before and after the first equals sign. -/
def splitValue (cs : List Char) : List Char × Option String :=
  match cs.span (· != '=') with
  | (name, _ :: value) => (name, some (String.ofList value))
  | (name, []) => (name, none)

def allDigits (cs : List Char) : Bool := cs.all fun c => (Text.digitValue? c).isSome

/-- Whether what follows a minus sign makes a number: digits, of which the last ones may stand
behind a point. A line feed at the end does not matter. -/
def isMagnitude (cs : List Char) : Bool :=
  let cs := if cs.getLast? = some '\n' then cs.dropLast else cs
  match cs.span (· != '.') with
  | (whole, []) => !whole.isEmpty && allDigits whole
  | (whole, _ :: fraction) => allDigits whole && !fraction.isEmpty && allDigits fraction

/-- A word with a minus sign in front that is no flag. -/
def notFlag (s : String) : Word :=
  if isMagnitude (s.toList.drop 1) || s.toList.contains ' ' then plain s else unknown s

/-- Sorts an argument that begins with two minus signs. -/
def ofLong (s : String) : Except Refusal Word :=
  let (name, value) := splitValue s.toList
  match Flag.ofLong? (String.ofList name) with
  | some f => .ok (flag f value)
  | none =>
    match Flag.beginning name with
    | [] => .ok (notFlag s)
    | [f] => .ok (flag f value)
    | fs => .error (.ambiguous s fs)

/-- Sorts an argument that is not the separator. -/
def ofString (s : String) : Except Refusal Word :=
  match s.toList with
  | '-' :: '-' :: _ => ofLong s
  | '-' :: 'h' :: joined => .ok (shortHelp joined)
  | ['-'] => .ok (plain s)
  | '-' :: _ => .ok (notFlag s)
  | _ => .ok (plain s)

/-- Sorts the arguments of a call. -/
def sort : List String → Except Refusal (List Word)
  | [] => .ok []
  | s :: rest =>
    if s == "--" then .ok (separator :: rest.map plain)
    else do
      let w ← ofString s
      return w :: (← sort rest)

end Word

/-- How far a call has been read. -/
structure Progress where
  request : Request := {}
  /-- Whether the output directory has been settled. -/
  placed : Bool := false
  /-- The words nobody takes, latest last. -/
  unused : List String := []

namespace Progress

def change (p : Progress) (f : Request → Request) : Progress := { p with request := f p.request }

def skip (p : Progress) (w : Word) : Progress := { p with unused := p.unused ++ [w.text] }

/-- Settles the output directory. -/
def place (p : Progress) (s : Option String) : Progress :=
  { p with request := { p.request with outputDir := s }, placed := true }

end Progress

def readWhole (f : Flag) (s : String) : Except Stop Int :=
  match Decimal.readInt 10 s with
  | .ok n => .ok n
  | .error _ => .error (.refused (.notWhole f s))

def readFormatter (f : Flag) (s : String) : Except Stop Code.Formatter :=
  match Code.Formatter.ofName? s with
  | some x => .ok x
  | none => .error (.refused (.noChoice f s (Code.Formatter.all.map (·.name))))

/-- A request with the value of a flag. -/
def setValue (q : Request) (f : Flag) (s : String) : Except Stop Request := do
  match f with
  | .maxArity => return { q with maxArity := some (← readWhole f s) }
  | .config => return { q with config := some s }
  | .formatter => return { q with formatter := some (← readFormatter f s) }
  | .lineLength => return { q with lineLength := some (← readWhole f s) }
  | .logLevel => return { q with logLevel := some s }
  | .logFile => return { q with logFile := some s }
  | .help | .dumpModel | .version => throw (.refused (.unusedValue f s))

/-- A request with a flag that takes no value. -/
def setFlag (q : Request) (f : Flag) : Except Stop Request :=
  match f with
  | .help => .error .help
  | .version => .error .version
  | .dumpModel => .ok { q with dumpModel := true }
  | f => .error (.refused (.noValue f))

/-- What a request for help with something joined to it comes to. Further short flags may be joined,
but no value. -/
def shortHelp : List Char → Stop
  | [] => .help
  | '-' :: rest => .refused (.unusedValue .help (String.ofList ('-' :: rest)))
  | '=' :: rest => .refused (.unusedValue .help (String.ofList rest))
  | 'h' :: rest => shortHelp rest
  | _ => .help

/-- Reads the words from here on. -/
def readWords (p : Progress) : List Word → Except Stop Progress
  | [] => .ok p
  | .flag f (some v) :: rest => do
    let q ← setValue p.request f v
    readWords { p with request := q } rest
  | .flag f none :: .plain s :: rest => do
    if f.takesValue then
      let q ← setValue p.request f s
      readWords { p with request := q } rest
    else
      let q ← setFlag p.request f
      readWords { p with request := q } (.plain s :: rest)
  | .flag f none :: rest => do
    let q ← setFlag p.request f
    readWords { p with request := q } rest
  | .shortHelp joined :: _ => .error (shortHelp joined)
  | .unknown s :: rest => readWords (p.skip (.unknown s)) rest
  | w@.separator :: .plain s :: rest =>
    if p.placed then readWords (p.skip w) (.plain s :: rest) else readWords (p.place s) rest
  | w@.separator :: rest => readWords (if p.placed then p.skip w else p.place none) rest
  | w@(.plain s) :: .separator :: rest =>
    if p.placed then readWords (p.skip w) (.separator :: rest) else readWords (p.place s) rest
  | w@(.plain s) :: rest => readWords (if p.placed then p.skip w else p.place s) rest
  termination_by ws => ws.length

/-- The request that the arguments of a call make. -/
def Request.read (arguments : List String) : Except Stop Request := do
  let words ← match Word.sort arguments with
    | .ok ws => pure ws
    | .error r => throw (.refused r)
  let p ← readWords {} words
  if p.unused.isEmpty then return p.request else throw (.refused (.unknownWords p.unused))

end Polyad.Command
