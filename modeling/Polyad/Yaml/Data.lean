import Polyad.Text.Case
import Polyad.Yaml.Node
import Polyad.Yaml.SetOrder

/-!
# YAML data

The value of a YAML document: scalars by their tags, sequences, mappings, sets and lists of pairs. A
collection is there before its contents are, which come in the order in which the collections were
met; so it can hold itself, and of two failures the one nearer to the root is found. Merge keys are
resolved when the contents of their mapping come: their entries stand before the other ones, so that
those win. `Yaml.readStream` is the value of a text that may come in pieces, null for an empty one;
`Yaml.read` has the text as a whole.
-/

namespace Polyad.Yaml

/-! ## Scalars -/

def withoutMarks (s : String) : String := String.ofList (s.toList.filter (· != '_'))

/-- A whole number in a base; something that is none is reported with its text. -/
def inBase (base : Nat) (cs : List Char) : Except Error Int :=
  let s := String.ofList cs
  (Decimal.readInt base s).mapError fun
    | .malformed => .notWhole base s
    | .tooLong n => .wholeTooLong n

/-- The first character decides between signs and bases, so there must be one. -/
def nonEmpty (cs : List Char) : Except Error Unit :=
  if cs.isEmpty then .error (.badIndex "string index out of range") else .ok ()

def wholeNumber (text : String) : Except Error Value := do
  let cs := (withoutMarks text).toList
  nonEmpty cs
  let (negative, cs) := Decimal.splitSign cs
  let n : Int ← match cs with
    | ['0'] => pure 0
    | '0' :: 'b' :: rest => inBase 2 rest
    | '0' :: 'x' :: rest => inBase 16 rest
    | '0' :: rest => inBase 8 ('0' :: rest)
    | cs => do
      nonEmpty cs
      if cs.contains ':' then
        let places ← (cs.splitOn ':').mapM (inBase 10)
        pure (places.foldl (fun n d => n * 60 + d) 0)
      else inBase 10 cs
  return .int (if negative then -n else n)

def pointPlace (cs : List Char) : Except Error Float :=
  match Decimal.readFloat? (String.ofList cs) with
  | some x => .ok x
  | none => .error (.notPointed (String.ofList cs))

/-- The value of places that count sixty of the next, the last one first. -/
def inSixties (places : List Float) : Except Error Float :=
  places.zipIdx.foldlM (fun total (d, i) =>
    let weight := Decimal.toFloat (Nat.pow 60 i) 0
    if weight.isFinite then .ok (total + d * weight)
    else .error (.outOfRange "int too large to convert to float")) 0.0

/-- A number with a point; one that is not-a-number is the one of the given label. -/
def pointNumber (label : Nat) (text : String) : Except Error Value := do
  let cs := (Text.lowered (withoutMarks text)).toList
  nonEmpty cs
  let (negative, cs) := Decimal.splitSign cs
  let word := String.ofList cs
  if word == ".nan" then return .named yamlNan (.float (0.0 / 0.0))
  let x : Float ←
    if word == ".inf" then pure (1.0 / 0.0)
    else if cs.contains ':' then do
      let places ← (cs.splitOn ':').mapM pointPlace
      inSixties places.reverse
    else pointPlace cs
  let x := if negative then -x else x
  return if x.isNaN then .named label (.float x) else .float x

def digits (cs : List Char) : Nat := Decimal.ofDigits (cs.map fun c => c.toNat - 48)

def dateOf (y m d : Nat) : Except Error Date :=
  if y < 1 then .error (.badValue ("year " ++ toString y ++ " is out of range"))
  else if m < 1 || 12 < m then .error (.badValue "month must be in 1..12")
  else if d < 1 || Date.daysInMonth y m < d then
    .error (.badValue "day is out of range for month")
  else .ok ⟨y, m, d⟩

/-- The distance from universal time in minutes, less than a day. -/
def offsetOf (negative : Bool) (hours minutes : List Char) : Except Error Int :=
  let n : Int := (digits hours * 60 + digits minutes : Nat)
  let n := if negative then -n else n
  if n.natAbs < 1440 then .ok n
  else
    let days := "days=" ++ toString (Int.fdiv n 1440)
    let seconds := Int.fmod n 1440 * 60
    .error <| .badValue
      ("offset must be a timedelta strictly between -timedelta(hours=24) and " ++
        "timedelta(hours=24), not datetime.timedelta(" ++ days ++
        (if seconds == 0 then "" else ", seconds=" ++ toString seconds) ++ ").")

def timestamp (text : String) : Except Error Value := do
  match stampLine? false text.toList with
  | none => throw .absent
  | some s =>
    let y := digits s.year
    let m := digits s.month
    let d := digits s.day
    match s.clock with
    | none => return .date (← dateOf y m d)
    | some (hour, minute, second) =>
      let offset ← match s.zone with
        | none => pure none
        | some none => pure (some 0)
        | some (some (negative, hours, minutes)) => some <$> offsetOf negative hours minutes
      let date ← dateOf y m d
      let h := digits hour
      let mi := digits minute
      let se := digits second
      if 23 < h then throw (.badValue "hour must be in 0..23")
      if 59 < mi then throw (.badValue "minute must be in 0..59")
      if 59 < se then throw (.badValue "second must be in 0..59")
      let micros := digits ((s.fraction ++ List.replicate 6 '0').take 6)
      return .moment { date, hour := h, minute := mi, second := se, micros, offset }

/-- The value of a letter of the base 64 alphabet. -/
def sextet? (c : Char) : Option Nat :=
  if c.isUpper then some (c.toNat - 65)
  else if c.isLower then some (c.toNat - 71)
  else if c.isDigit then some (c.toNat + 4)
  else if c == '+' then some 62
  else if c == '/' then some 63
  else none

/-- A reader of base 64: how many letters of a group of four it has met, the equal signs since the
last letter, what is left of that letter, and the bytes so far, last first. -/
structure Base64 where
  met : Nat := 0
  padding : Nat := 0
  left : Nat := 0
  done : Bool := false
  bytes : List UInt8 := []

namespace Base64

/-- Equal signs end the text once they complete a group; any other ones are skipped. -/
def step (b : Base64) (c : Char) : Base64 :=
  if b.done then b
  else if c == '=' then
    if b.met < 2 then b
    else { b with padding := b.padding + 1, done := 4 ≤ b.met + b.padding + 1 }
  else
    match sextet? c with
    | none => b
    | some n =>
      let bytes := match b.met with
        | 0 => b.bytes
        | 1 => (b.left % 64 * 4 + n / 16).toUInt8 :: b.bytes
        | 2 => (b.left % 16 * 16 + n / 4).toUInt8 :: b.bytes
        | _ => (b.left % 4 * 64 + n).toUInt8 :: b.bytes
      { met := (b.met + 1) % 4, padding := 0, left := n, bytes }

end Base64

/-- Bytes in base 64; characters outside its alphabet are skipped, the last group must be complete.
-/
def binary (text : String) : Except Error Value :=
  let cs := text.toList
  let b := cs.foldl Base64.step {}
  if cs.any (fun c => 127 < c.toNat) || (!b.done && b.met != 0) then .error .malformedYaml
  else .ok (.bytes b.bytes.reverse)

def truth (text : String) : Except Error Value :=
  let word := Text.lowered text
  match truthWords.find? fun (w, _) => w == word with
  | some (_, b) => .ok (.bool b)
  | none => .error (.missingKey (.str word))

/-- How the text of a scalar is read by its tag; unknown tags have no way. A number that is none
gets the label. -/
def scalarReader? (label : Nat) (tag : String) : Option (String → Except Error Value) :=
  if tag == core "str" then some fun s => .ok (.str s)
  else if tag == core "null" then some fun _ => .ok .null
  else if tag == core "bool" then some truth
  else if tag == core "int" then some wholeNumber
  else if tag == core "float" then some (pointNumber label)
  else if tag == core "timestamp" then some timestamp
  else if tag == core "binary" then some binary
  else none

/-! ## Collections -/

/-- What a node has become: a value, or a collection of what other nodes have become. -/
inductive Part where
  | whole (v : Value)
  | list (items : List Nat)
  | set (items : List Nat)
  | dict (entries : List (Nat × Nat))
  /-- Key and value of each pair, with the label of the pair. -/
  | pairs (entries : List (Nat × Nat × Nat))

/-- The parts made so far, the collections that wait for their contents, last first, and the next
label that no part has. -/
structure Build where
  nodes : Array Node
  parts : Array (Option Part)
  waiting : List Nat := []
  shared : Bool
  next : Nat

abbrev BuildM := StateT Build (Except Error)

/-- The label of a node, past those of numbers that are none. -/
def labelOf (id : Nat) : Nat := id + yamlNan + 1

namespace Build

def bad {α : Type} : BuildM α := throw .malformedYaml

def nodeAt (b : Build) (id : Nat) : Node := b.nodes.getD id (.scalar "" "")

def partAt? (b : Build) (id : Nat) : Option Part := (b.parts[id]?).join

def setPart (id : Nat) (p : Part) : BuildM Unit :=
  modify fun b => { b with parts := b.parts.set! id (some p) }

def setNode (id : Nat) (n : Node) : BuildM Unit :=
  modify fun b => { b with nodes := b.nodes.set! id n }

/-- The entries of a mapping; nothing else has any. -/
def entries (b : Build) (id : Nat) : List (Nat × Nat) :=
  match b.nodeAt id with
  | .mapping _ es => es
  | _ => []

/-! ### Merge keys -/

def hasTag (b : Build) (name : String) (id : Nat) : Bool := (b.nodeAt id).tag == core name

/-- The entries of a mapping in place of those it has. -/
def setEntries (id : Nat) (es : List (Nat × Nat)) : BuildM Unit := do
  setNode id (.mapping ((← get).nodeAt id).tag es)

/-- A key that is an equal sign is a text in a mapping. -/
def plainKey (id : Nat) : BuildM Unit := do
  let b ← get
  if b.hasTag "value" id then setNode id ((b.nodeAt id).withTag (core "str"))

/-- Resolves the merge keys of a mapping, in front of what was merged before. Each call takes a
merge key away, and none adds one, so the number of entries is fuel enough. -/
def flatten : Nat → Nat → List (Nat × Nat) → BuildM Unit
  | 0, _, _ => bad
  | fuel + 1, id, merged => do
    let b ← get
    let es := b.entries id
    match es.span fun (k, _) => !b.hasTag "merge" k with
    | (_, []) =>
      es.forM fun (k, _) => plainKey k
      setEntries id (merged ++ es)
    | (before, (_, source) :: after) =>
      setEntries id (before ++ after)
      let from_ (part : Nat) : BuildM (List (Nat × Nat)) := do
        match (← get).nodeAt part with
        | .mapping .. =>
          flatten fuel part []
          return (← get).entries part
        | _ => bad
      let more ← match b.nodeAt source with
        | .sequence _ items => pure (← items.mapM from_).reverse.flatten
        | _ => from_ source
      flatten fuel id (merged ++ more)

def entryCount (b : Build) : Nat :=
  (List.range b.nodes.size).foldl (fun n i => n + (b.entries i).length) 0

/-! ### Parts -/

/-- The text of a scalar; that of a mapping is the one under its key `=`. -/
def scalarText : Nat → Nat → BuildM String
  | 0, _ => throw .endless
  | fuel + 1, id => do
    let b ← get
    match b.nodeAt id with
    | .scalar _ text => return text
    | .mapping _ es => match es.find? fun (k, _) => b.hasTag "value" k with
      | some (_, v) => scalarText fuel v
      | none => bad
    | .sequence .. => bad

/-- A collection before its contents, by its tag. -/
def shell? (tag : String) : Option Part :=
  if tag == core "seq" then some (.list [])
  else if tag == core "map" then some (.dict [])
  else if tag == core "set" then some (.set [])
  else if tag == core "omap" || tag == core "pairs" then some (.pairs [])
  else none

/-- A date of a document with aliases is one thing, like a collection. -/
def labelled (b : Build) (id : Nat) (v : Value) : Value :=
  match v with
  | .date _ => if b.shared then .named (labelOf id) v else v
  | .moment _ => if b.shared then .named (labelOf id) v else v
  | v => v

/-- Makes the part of a node, if it is not there: all of a scalar, and a collection without
contents. -/
def make (id : Nat) : BuildM Unit := do
  let b ← get
  if (b.partAt? id).isSome then return
  let tag := (b.nodeAt id).tag
  match shell? tag, scalarReader? (labelOf id) tag with
  | some shell, _ =>
    setPart id shell
    modify fun b => { b with waiting := id :: b.waiting }
  | none, some reader =>
    let text ← scalarText (b.nodes.size + 1) id
    if tag == core "timestamp" && !((b.nodeAt id) matches .scalar ..) then throw .wrongType
    setPart id (.whole (b.labelled id (← reader text)))
  | none, none => bad

/-- The value of a key; collections cannot be keys. -/
def keyValue (id : Nat) : BuildM Value := do
  match (← get).partAt? id with
  | some (.whole v) => return v
  | _ => bad

/-- An entry put among others: the first key and the last value stay. -/
def insert (key : Value × Nat) (v : Nat) :
    List ((Value × Nat) × Nat) → List ((Value × Nat) × Nat)
  | [] => [(key, v)]
  | (k, w) :: rest =>
    if k.1.same key.1 then (k, v) :: rest else (k, w) :: insert key v rest

/-- The entries of a mapping, merge keys resolved, each key once. -/
def mappingEntries (id : Nat) : BuildM (List (Nat × Nat)) := do
  if !(((← get).nodeAt id) matches .mapping ..) then bad
  flatten ((← get).entryCount + 1) id []
  let entries ← ((← get).entries id).foldlM (fun done (k, v) => do
    make k
    let key ← keyValue k
    make v
    return insert (key, k) v done) []
  return entries.map fun ((_, k), v) => (k, v)

/-- The one entry of an item of a list of pairs. -/
def pairOf (id : Nat) : BuildM (Nat × Nat × Nat) := do
  match (← get).nodeAt id with
  | .mapping _ [(k, v)] =>
    make k
    make v
    let label := (← get).next
    modify fun b => { b with next := label + 1 }
    return (label, k, v)
  | _ => bad

def sequenceItems (id : Nat) : BuildM (List Nat) := do
  match (← get).nodeAt id with
  | .sequence _ items => return items
  | _ => bad

/-- Gives a collection its contents. -/
def fill (id : Nat) : BuildM Unit := do
  match (← get).partAt? id with
  | some (.list _) =>
    let items ← sequenceItems id
    items.forM make
    setPart id (.list items)
  | some (.dict _) => setPart id (.dict (← mappingEntries id))
  | some (.set _) =>
    let keys := (← mappingEntries id).map Prod.fst
    setPart id (.set (setOrder ((← keys.mapM keyValue).zip keys)))
  | some (.pairs _) => setPart id (.pairs (← (← sequenceItems id).mapM pairOf))
  | _ => return

/-- Fills the collections that wait, then those met on the way. Each pass fills a new one, so the
number of nodes is fuel enough. -/
def fillAll : Nat → BuildM Unit
  | 0 => return
  | fuel + 1 => do
    let waiting := (← get).waiting.reverse
    if waiting.isEmpty then return
    modify fun b => { b with waiting := [] }
    waiting.forM fill
    fillAll fuel

/-! ### Values -/

/-- The value a part stands for, inside the collections `around`. No way down meets a node twice, so
the number of nodes is fuel enough. -/
def valueAt (b : Build) : Nat → List Nat → Nat → Value
  | 0, _, _ => .null
  | fuel + 1, around, id =>
    let inner := b.valueAt fuel (id :: around)
    let name (label : Nat) (v : Value) : Value := if b.shared then .named label v else v
    if around.contains id then .within (labelOf id)
    else
      match b.partAt? id with
      | none => .null
      | some (.whole v) => v
      | some (.list items) => name (labelOf id) (.list (items.map inner))
      | some (.set items) => name (labelOf id) (.set (items.map inner))
      | some (.dict es) => name (labelOf id) (.dict (es.map fun (k, v) => (inner k, inner v)))
      | some (.pairs es) => name (labelOf id) <|
        .list (es.map fun (label, k, v) => name label (.tuple [inner k, inner v]))

/-- The value of the root after everything is made. -/
def run (root : Nat) : BuildM Value := do
  let size := (← get).nodes.size
  make root
  fillAll (size + 1)
  return (← get).valueAt (size + 1) [] root

end Build

/-- The value of a document. -/
def Document.value (d : Document) : Except Error Value :=
  let size := d.nodes.size
  (Build.run d.root).run' {
    nodes := d.nodes, parts := Array.replicate size none, shared := d.shared
    next := labelOf size }

/-- The value of the document in a text. -/
def readStream (t : TextStream) : Except Error Value := do
  match ← Document.ofTokens (Token.scan t) with
  | none => return .null
  | some d => d.value

def read (s : String) : Except Error Value := readStream (.whole s)

/-- Only a text that does not break off has a value. -/
theorem failure_of_readStream {t : TextStream} {v : Value} (run : readStream t = .ok v) :
    t.failure = none := by
  obtain ⟨d, document, -⟩ := Error.bind_eq_ok_iff.1 run
  exact Token.eq_none_of_scan (Document.eq_none_of_ofTokens document)

end Polyad.Yaml
