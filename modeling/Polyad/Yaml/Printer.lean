import Polyad.Yaml.Anchor
import Polyad.Yaml.Tag

/-!
# YAML texts

The block text of a value: one entry to a line, mappings indented by two, the items of a sequence
below a key indented with it. A text is written without quotes if it reads back as itself, between
single quotes if only its spelling forbids that, and between double quotes, ASCII only, otherwise.
Long texts are broken at blanks past column 80; keys never are. A value that stands in several
places is written in the first one, behind an anchor.
-/

namespace Polyad.Yaml

/-- A text under construction and what the place of the pen allows. -/
structure Pen where
  written : String := ""
  column : Nat := 0
  /-- The last character separates already. -/
  spaced : Bool := true
  /-- Nothing but indentation and indicators stands on the line. -/
  opening : Bool := true
  /-- The labels that have anchors, in order, and those whose values are written already. -/
  anchors : List Nat := []
  known : List Nat := []

namespace Pen

def put (p : Pen) (cs : List Char) : Pen :=
  { p with written := p.written ++ String.ofList cs, column := p.column + cs.length }

/-- An indicator; `inside` says that the line is still one of indicators only. -/
def mark (p : Pen) (s : String) (apart spaced inside : Bool) : Pen :=
  let cs := s.toList
  let p := p.put (if p.spaced || !apart then cs else ' ' :: cs)
  { p with spaced, opening := p.opening && inside }

def newline (p : Pen) : Pen :=
  { p with written := p.written.push '\n', column := 0, spaced := true, opening := true }

/-- Moves to column `indent`, of a fresh line where needed. -/
def indentTo (p : Pen) (indent : Nat) : Pen :=
  let p :=
    if !p.opening || indent < p.column || (p.column == indent && !p.spaced) then p.newline else p
  if p.column < indent then
    { p.put (List.replicate (indent - p.column) ' ') with spaced := true }
  else p

end Pen

def width : Nat := 80

/-! ## Styles -/

inductive Style where
  | plain
  | single
  | double
  deriving DecidableEq, Repr

/-- Whether a character, or the end of the text, separates what stands before it. -/
def separates : Option Char → Bool
  | none => true
  | some c => c ∈ ['\x00', ' ', '\t', '\r', '\n', '\x85', '\u2028', '\u2029']

/-- Whether a first character and the next one mean something other than text. -/
def leadsIndicator (c : Char) (next : Option Char) : Bool :=
  c ∈ "#,[]\x7b\x7d&*!|>'\"%@\x60".toList || ((c == '?' || c == ':' || c == '-') && separates next)

/-- Whether a comment or the end of a key begins after `last`. -/
def hasIndicator : Char → List Char → Bool
  | _, [] => false
  | last, c :: rest =>
    (c == ':' && separates rest.head?) || (c == '#' && separates (some last)) ||
      hasIndicator c rest

def indicates : List Char → Bool
  | [] => false
  | c :: rest =>
    "---".toList.isPrefixOf (c :: rest) || "...".toList.isPrefixOf (c :: rest) ||
      leadsIndicator c rest.head? || hasIndicator c rest

/-- Whether two neighbours of the given kinds occur. -/
def adjacent (a b : Char) : List Char → Bool
  | c :: d :: rest => (c == a && d == b) || adjacent a b (d :: rest)
  | _ => false

def isOrdinary (c : Char) : Bool := c == '\n' || (' ' ≤ c && c ≤ '~')

def isEdge (c : Option Char) : Bool := c == some ' ' || c == some '\n'

/-- The style of a text; `key` says that it stands before a colon. -/
def styleOf (s : String) (key : Bool) : Style :=
  let cs := s.toList
  let multiline := cs.contains '\n'
  let special := adjacent ' ' '\n' cs || !cs.all isOrdinary
  let breakSpace := adjacent '\n' ' ' cs
  if implicitTag s == core "str" && !special && !multiline && !isEdge cs.head? &&
      !isEdge cs.getLast? && !indicates cs then .plain
  else if !special && !breakSpace && !(key && multiline) then .single
  else .double

/-! ## Scalars -/

/-- The runs of equal class in a text. -/
def runs (cs : List Char) : List (List Char) :=
  cs.splitBy fun a b => (a == ' ') == (b == ' ') && (a == '\n') == (b == '\n')

/-- A text without quotes; a lone blank past the width becomes a line break. -/
def Pen.plain (p : Pen) (indent : Nat) (split : Bool) (cs : List Char) : Pen :=
  let p := if p.spaced || cs.isEmpty then p else p.put [' ']
  let p := { p with spaced := false, opening := false }
  (runs cs).foldl (fun p run =>
    if run == [' '] && width < p.column && split then
      { p.indentTo indent with spaced := false, opening := false }
    else p.put run) p

/-- The runs of a text that stands between single quotes, from `start` on. -/
def Pen.singleRuns (p : Pen) (indent : Nat) (split : Bool) (start : Bool) : List (List Char) → Pen
  | [] => p
  | run :: rest =>
    let p :=
      if run.head? == some '\n' then
        ((run.foldl (fun p _ => p.newline) p.newline).indentTo indent)
      else if run == [' '] && width < p.column && split && !start && !rest.isEmpty then
        p.indentTo indent
      else p.put (run.flatMap fun c => if c == '\'' then ['\'', '\''] else [c])
    p.singleRuns indent split false rest

def Pen.single (p : Pen) (indent : Nat) (split : Bool) (cs : List Char) : Pen :=
  ((p.mark "'" true false false).singleRuns indent split true (runs cs)).mark "'" false false false

def shortEscapes : List (Char × Char) := [
  ('\x00', '0'), ('\x07', 'a'), ('\x08', 'b'), ('\t', 't'), ('\n', 'n'), ('\x0b', 'v'),
  ('\x0c', 'f'), ('\r', 'r'), ('\x1b', 'e'), ('"', '"'), ('\\', '\\'), ('\x85', 'N'),
  ('\xa0', '_'), ('\u2028', 'L'), ('\u2029', 'P')]

/-- The escape a character needs between double quotes. -/
def escape? (c : Char) : Option (List Char) :=
  let hex (mark : Char) (n : Nat) := '\\' :: mark :: (Text.hexDigits n c.toNat).map Char.toUpper
  match shortEscapes.lookup c with
  | some e => some ['\\', e]
  | none =>
    if ' ' ≤ c && c ≤ '~' then none
    else if c.toNat < 0x100 then some (hex 'x' 2)
    else if c.toNat < 0x10000 then some (hex 'u' 4)
    else some (hex 'U' 8)

/-- A line break between double quotes; a blank after it is escaped, to be kept. -/
def Pen.breakBefore (p : Pen) (indent : Nat) (next : Option Char) : Pen :=
  let p := { (p.put ['\\']).indentTo indent with spaced := false, opening := false }
  if next == some ' ' then p.put ['\\'] else p

/-- The characters of a text between double quotes: `index` counts those before, `pending` are the
last of them, not yet written, latest first. -/
def Pen.doubleRest (p : Pen) (indent : Nat) (split : Bool) (size : Nat) :
    Nat → List Char → List Char → Pen
  | _, pending, [] => p.put pending.reverse
  | index, pending, c :: rest =>
    let inner := 0 < index && index + 1 < size && split
    match escape? c with
    | some e =>
      let p := (p.put pending.reverse).put e
      let p := if inner && width + 1 < p.column then p.breakBefore indent rest.head? else p
      p.doubleRest indent split size (index + 1) [] rest
    | none =>
      if inner && (c == ' ' || pending.isEmpty) && width < p.column + pending.length then
        let p := (p.put pending.reverse).breakBefore indent (some c)
        p.doubleRest indent split size (index + 1) [c] rest
      else p.doubleRest indent split size (index + 1) (c :: pending) rest

def Pen.double (p : Pen) (indent : Nat) (split : Bool) (cs : List Char) : Pen :=
  ((p.mark "\"" true false false).doubleRest indent split cs.length 0 [] cs).mark "\"" false false
    false

def Pen.text (p : Pen) (indent : Nat) (key : Bool) (s : String) : Pen :=
  match styleOf s key with
  | .plain => p.plain indent (!key) s.toList
  | .single => p.single indent (!key) s.toList
  | .double => p.double indent (!key) s.toList

/-- A number with a power of ten always has a point. -/
def withPoint (s : String) : String :=
  let cs := s.toList
  if cs.contains '.' then s
  else
    let (digits, power) := cs.span (· != 'e')
    if power.isEmpty then s else String.ofList (digits ++ ['.', '0'] ++ power)

def floatText (x : Float) : String :=
  match Decimal.classify x with
  | .nan => ".nan"
  | .infinite negative => if negative then "-.inf" else ".inf"
  | .finite _ => withPoint (Decimal.format x)

/-- The spelling of a value that is not a text and has no parts. -/
def spelling? : Value → Option String
  | .null => some "null"
  | .bool b => some (if b then "true" else "false")
  | .int n => some (toString n)
  | .float x => some (floatText x)
  | .date d => some d.text
  | .moment m => some m.text
  | _ => none

/-! ## Bytes -/

def sixBits (n : Nat) : Char :=
  "ABCDEFGHIJKLMNOPQRSTUVWXYZabcdefghijklmnopqrstuvwxyz0123456789+/".toList.getD n '='

/-- Three bytes as four characters; missing bytes as equal signs. -/
def base64 : List UInt8 → List Char
  | a :: b :: c :: rest =>
    let n := a.toNat * 65536 + b.toNat * 256 + c.toNat
    sixBits (n / 262144) :: sixBits (n / 4096 % 64) :: sixBits (n / 64 % 64) :: sixBits (n % 64) ::
      base64 rest
  | [a, b] =>
    let n := a.toNat * 65536 + b.toNat * 256
    [sixBits (n / 262144), sixBits (n / 4096 % 64), sixBits (n / 64 % 64), '=']
  | [a] =>
    let n := a.toNat * 65536
    [sixBits (n / 262144), sixBits (n / 4096 % 64), '=', '=']
  | [] => []

/-- The bytes of each line, 57 of them but in the last. -/
def threesByLine (bs : List UInt8) : List (List UInt8) :=
  (List.range ((bs.length + 56) / 57)).map fun i => (bs.drop (57 * i)).take 57

/-- Bytes as lines of 76 characters below their tag. -/
def Pen.bytes (p : Pen) (indent : Nat) (key : Bool) (bs : List UInt8) : Pen :=
  let p := p.mark "!!binary" true false false
  match bs with
  | [] => p.double indent (!key) []
  | bs =>
    let p := (p.mark "|" true false false).newline
    (threesByLine bs).foldl (fun p line => ((p.indentTo indent).put (base64 line)).newline) p

/-! ## Collections -/

/-- Whether a character ends a line of a written text. -/
def endsLine (c : Char) : Bool := c ∈ ['\n', '\x85', '\u2028', '\u2029']

/-- Whether a value fits before a colon on one line. -/
def isSimpleKey (v : Value) : Bool :=
  match v.content with
  | .str s => s.length + 5 < 128 && s != "" && !s.toList.any endsLine
  | .int n => (toString n).length + 5 < 128
  | .list items => items.isEmpty
  | .tuple items => items.isEmpty
  | .dict entries => entries.isEmpty
  | .set _ => false
  | .bytes _ => false
  | _ => true

/-- Where a value stands: the indentation around it, none at the top. -/
structure Place where
  indent : Option Nat
  inMapping : Bool
  key : Bool

namespace Place

def deeper (at_ : Place) : Nat := at_.indent.elim 0 (· + 2)

/-- The indentation of the items of a sequence. -/
def items (at_ : Place) (p : Pen) : Nat :=
  if at_.inMapping && !p.opening then at_.indent.getD 0 else at_.deeper

/-- The indentation of the further lines of a scalar. -/
def scalar (at_ : Place) : Nat := at_.indent.elim 2 (· + 2)

end Place

mutual

def Pen.value (p : Pen) (at_ : Place) : Value → Pen
  | .list [] => (p.mark "[" true true false).mark "]" false false false
  | .tuple [] => (p.mark "[" true true false).mark "]" false false false
  | .dict [] => (p.mark "\x7b" true true false).mark "\x7d" false false false
  | .list items => p.items (at_.items p) items
  | .tuple items => p.items (at_.items p) items
  | .dict entries => p.entries at_.deeper entries
  | .set [] =>
    ((p.mark "!!set" true false false).mark "\x7b" true true false).mark "\x7d" false false false
  | .set items => (p.mark "!!set" true false false).setItems at_.deeper items
  | .str s => p.text at_.scalar at_.key s
  | .bytes bs => p.bytes at_.scalar at_.key bs
  | .named l v =>
    match anchorName? p.anchors l with
    | none => p.value at_ v
    | some name =>
      if p.known.contains l then p.mark ("*" ++ name) true false false
      else
        let p := { p with known := l :: p.known }
        (p.mark ("&" ++ name) true false false).value at_ v
  | .within l => p.mark ("*" ++ (anchorName? p.anchors l).getD "") true false false
  | v => p.plain at_.scalar (!at_.key) ((spelling? v).getD "").toList

def Pen.items (p : Pen) (indent : Nat) : List Value → Pen
  | [] => p
  | v :: rest =>
    let p := (p.indentTo indent).mark "-" true false true
    (p.value ⟨some indent, false, false⟩ v).items indent rest

def Pen.entries (p : Pen) (indent : Nat) : List (Value × Value) → Pen
  | [] => p
  | (k, v) :: rest =>
    let p := p.indentTo indent
    let p :=
      if isSimpleKey k then
        (p.value ⟨some indent, true, true⟩ k).mark ":" false false false
      else
        let p := (p.mark "?" true false true).value ⟨some indent, true, false⟩ k
        (p.indentTo indent).mark ":" true false true
    (p.value ⟨some indent, true, false⟩ v).entries indent rest

def Pen.setItems (p : Pen) (indent : Nat) : List Value → Pen
  | [] => p
  | k :: rest =>
    let p := p.indentTo indent
    let p :=
      if isSimpleKey k then
        (p.value ⟨some indent, true, true⟩ k).mark ":" false false false
      else
        let p := (p.mark "?" true false true).value ⟨some indent, true, false⟩ k
        (p.indentTo indent).mark ":" true false true
    (p.plain (indent + 2) true "null".toList).setItems indent rest

end

/-- The text of a value as a document of its own. -/
def render (v : Value) : String :=
  let p := { anchors := anchored v : Pen }.value ⟨none, false, false⟩ v
  (if p.column == 0 then p else p.newline).written

/-- The document of a value whose numbers can all be written. -/
def write (v : Value) : Except Error String :=
  if v.hasText then .ok (render v) else .error .unwritable

end Polyad.Yaml
