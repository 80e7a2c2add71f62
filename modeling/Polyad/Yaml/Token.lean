import Polyad.Text.Stream
import Polyad.Yaml.Tag

/-!
# YAML tokens

The tokens of a YAML text. `Token.scan` reads all of them: indentation becomes the opening and
closing of blocks, and a scalar that turns out to be a key gets a `key` token in front of it once
its colon is seen. A text may come in pieces, of which a later one may fail; the scanner asks for
characters with `need`, and fails so once it asks for one of that piece. Where a failure stops the
reading, the tokens before it are there, but none that could still have been a key.
-/

namespace Polyad.Yaml

inductive Token where
  | version (major : Nat)
  | tagHandle (handle meaning : String)
  | directive
  | documentStart
  | documentEnd
  | blockSequenceStart
  | blockMappingStart
  | blockEnd
  | flowSequenceStart
  | flowSequenceEnd
  | flowMappingStart
  | flowMappingEnd
  | blockEntry
  | flowEntry
  | key
  | value
  | aliasOf (name : String)
  | anchor (name : String)
  | tag (handle : Option String) (suffix : String)
  | scalar (text : String) (plain : Bool)
  deriving DecidableEq, Repr

/-- A place where a key may have started: its token number and position. -/
structure KeyPlace where
  token : Nat
  required : Bool
  index : Nat
  line : Nat
  column : Nat

/-- A reader's place in a text and what it knows of the blocks and keys around it. -/
structure Scan where
  rest : List Char
  index : Nat := 0
  line : Nat := 0
  column : Nat := 0
  flowLevel : Nat := 0
  indent : Int := -1
  indents : List Int := []
  allowKey : Bool := true
  keys : List (Nat × KeyPlace) := []
  tokens : Array Token := #[]

/-- Scanning knows what happens if more characters are asked for than there are; at the end of the
text nothing does. -/
abbrev ScanM := ReaderT (Option Error) (ExceptT Error (StateM Scan))

def isBreak (c : Char) : Bool :=
  c == '\n' || c == '\r' || c == '\x85' || c == '\u2028' || c == '\u2029'

/-- The end of the text counts as a character of its own. -/
def isEnd (c : Char) : Bool := c == '\x00'

def isBreakOrEnd (c : Char) : Bool := isEnd c || isBreak c

def isGapOrEnd (c : Char) : Bool := c == ' ' || c == '\t' || isBreakOrEnd c

/-- The characters a YAML text may hold. -/
def isAllowed (c : Char) : Bool :=
  let n := c.toNat
  n == 9 || n == 10 || n == 13 || (0x20 ≤ n && n ≤ 0x7e) || n == 0x85 ||
    (0xa0 ≤ n && n ≤ 0xd7ff) || (0xe000 ≤ n && n ≤ 0xfffd) || 0x10000 ≤ n

/-- What a name of an anchor or handle is made of. -/
def isWordChar (c : Char) : Bool := c.isAlphanum || c == '-' || c == '_'

def isUriChar (c : Char) : Bool := c.isAlphanum || "-;/?:@&=+$,_.!~*'()[]%".toList.contains c

namespace Scan

def peek (s : Scan) (k : Nat) : Char := s.rest.getD k '\x00'

/-- One character further. -/
def step (s : Scan) : Scan :=
  match s.rest with
  | [] => s
  | c :: rest =>
    let breaks := (isBreak c && c != '\r') || (c == '\r' && rest.head? != some '\n')
    { s with
      rest
      index := s.index + 1
      line := if breaks then s.line + 1 else s.line
      column := if breaks then 0 else if c == '\ufeff' then s.column else s.column + 1 }

def steps : Nat → Scan → Scan
  | 0, s => s
  | n + 1, s => steps n s.step

end Scan

namespace Token

def bad {α : Type} : ScanM α := throw .malformedYaml

/-- Asks for so many characters. -/
def need (n : Nat) : ScanM Unit := do
  if let some beyond ← read then
    if ((← get).rest.drop (n - 1)).isEmpty then throw beyond

def peek (k : Nat := 0) : ScanM Char := do
  need (k + 1)
  return (← get).peek k

/-- Goes on by some characters, which asks for the one after them. -/
def forward (n : Nat := 1) : ScanM Unit := do
  need (n + 1)
  modify (·.steps n)

/-- The characters in front that satisfy `p`. -/
def takeRun (p : Char → Bool) : ScanM (List Char) := do
  let run := (← get).rest.takeWhile p
  forward run.length
  return run

def push (t : Token) : ScanM Unit := modify fun s => { s with tokens := s.tokens.push t }

def allowKey (b : Bool) : ScanM Unit := modify fun s => { s with allowKey := b }

def inFlow : ScanM Bool := return (← get).flowLevel != 0

/-- One line break, a carriage return and line feed counting as one. -/
def lineBreak : ScanM (List Char) := do
  let c ← peek
  if c == '\r' || c == '\n' || c == '\x85' then
    let next ← peek 1
    forward (if c == '\r' && next == '\n' then 2 else 1)
    return ['\n']
  else if c == '\u2028' || c == '\u2029' then
    forward
    return [c]
  else return []

/-- Forgets the key that may have started at this level; a required one must have been completed. -/
def dropKey : ScanM Unit := do
  let s ← get
  match s.keys.lookup s.flowLevel with
  | some k => if k.required then bad else set { s with keys := s.keys.filter (·.1 != s.flowLevel) }
  | none => return

/-- Keys stay on one line and are at most 1024 characters long. -/
def dropStaleKeys : ScanM Unit := do
  let s ← get
  let stale (k : KeyPlace) := k.line != s.line || s.index - k.index > 1024
  if s.keys.any fun (_, k) => stale k && k.required then bad
  set { s with keys := s.keys.filter fun (_, k) => !stale k }

/-- Notes that a key may start here. -/
def noteKey : ScanM Unit := do
  let s ← get
  if s.allowKey then
    dropKey
    let s ← get
    let place : KeyPlace := {
      token := s.tokens.size
      required := s.flowLevel == 0 && s.indent == s.column
      index := s.index, line := s.line, column := s.column }
    set { s with keys := (s.flowLevel, place) :: s.keys.filter (·.1 != s.flowLevel) }

/-- Closes the blocks indented deeper than `column`. -/
def closeBlocks (column : Int) : ScanM Unit := do
  let s ← get
  if s.flowLevel == 0 then
    let rec close : List Int → Int → Array Token → List Int × Int × Array Token
      | outer :: more, indent, ts =>
        if column < indent then close more outer (ts.push .blockEnd)
        else (outer :: more, indent, ts)
      | [], indent, ts => ([], indent, ts)
    let (indents, indent, tokens) := close s.indents s.indent s.tokens
    set { s with indents, indent, tokens }

/-- Opens a block at `column` if that is deeper than the current one. -/
def openBlock (column : Nat) : ScanM Bool := do
  let s ← get
  if s.indent < column then
    set { s with indents := s.indent :: s.indents, indent := (column : Int) }
    return true
  else return false

/-- Blanks, comments and line breaks before the next token. -/
def skipToToken : Nat → ScanM Unit
  | 0 => return
  | fuel + 1 => do
    if (← get).index == 0 && (← peek) == '\ufeff' then forward
    let _ ← takeRun (· == ' ')
    if (← peek) == '#' then
      let _ ← takeRun fun c => !isBreak c
    if (← lineBreak).isEmpty then return
    if !(← inFlow) then allowKey true
    skipToToken fuel

/-- Blanks and a comment up to the end of the line. -/
def ignoredLine : ScanM Unit := do
  let _ ← takeRun (· == ' ')
  if (← peek) == '#' then
    let _ ← takeRun fun c => !isBreak c
  if !isBreakOrEnd (← peek) then bad
  let _ ← lineBreak

/-- A number with one more hexadecimal digit. -/
def hexStep (n : Nat) (c : Char) : Nat :=
  n * 16 + (if c.isDigit then c.toNat - 48 else c.toLower.toNat - 87)

/-- So many hexadecimal digits, asked for one after the other. -/
def hexDigits (length : Nat) : ScanM (List Char) := do
  let ds := ((← get).rest.take length).takeWhile isHex
  need (min length (ds.length + 1))
  if ds.length < length then bad
  return ds

def escapedByte : ScanM UInt8 := do
  forward
  let ds ← hexDigits 2
  forward 2
  return (ds.foldl hexStep 0).toUInt8

/-- Consecutive percent escapes as the characters they encode. -/
def uriEscapes : Nat → List UInt8 → ScanM (List Char)
  | 0, _ => bad
  | fuel + 1, bytes => do
    if (← peek) == '%' then
      let b ← escapedByte
      uriEscapes fuel (b :: bytes)
    else
      match String.fromUTF8? ⟨bytes.reverse.toArray⟩ with
      | some s => return s.toList
      | none => bad

def uri : Nat → List Char → ScanM String
  | 0, _ => bad
  | fuel + 1, done => do
    let run ← takeRun fun c => isUriChar c && c != '%'
    if (← peek) == '%' then
      let cs ← uriEscapes ((← get).rest.length + 1) []
      uri fuel (done ++ run ++ cs)
    else if (done ++ run).isEmpty then bad
    else return String.ofList (done ++ run)

/-- A tag handle: `!`, `!!` or `!name!`. -/
def handle : ScanM String := do
  if (← peek) != '!' then bad
  forward
  let name ← takeRun isWordChar
  if (← peek) == '!' then
    forward
    return String.ofList ('!' :: name ++ ['!'])
  else if name.isEmpty && (← peek) == ' ' then return "!"
  else bad

def number : ScanM Nat := do
  let ds ← takeRun Char.isDigit
  if ds.isEmpty then bad
  return Decimal.ofDigits (ds.map fun c => c.toNat - 48)

def scanDirective : ScanM Token := do
  forward
  let name ← takeRun isWordChar
  if name.isEmpty then bad
  let next ← peek
  if !(next == ' ' || isBreakOrEnd next) then bad
  let token ← match String.ofList name with
    | "YAML" => do
      let _ ← takeRun (· == ' ')
      let major ← number
      if (← peek) != '.' then bad
      forward
      let _ ← number
      let next ← peek
      if !(next == ' ' || isBreakOrEnd next) then bad
      pure (Token.version major)
    | "TAG" => do
      let _ ← takeRun (· == ' ')
      let h ← handle
      if (← peek) != ' ' then bad
      let _ ← takeRun (· == ' ')
      let meaning ← uri ((← get).rest.length + 1) []
      let next ← peek
      if !(next == ' ' || isBreakOrEnd next) then bad
      pure (.tagHandle h meaning)
    | _ => do
      let _ ← takeRun fun c => !isBreak c
      pure .directive
  ignoredLine
  return token

/-- The name after an anchor or alias mark. -/
def scanName : ScanM String := do
  forward
  let name ← takeRun isWordChar
  if name.isEmpty then bad
  let next ← peek
  if !(isGapOrEnd next || "?:,]\x7d%@`".toList.contains next) then bad
  return String.ofList name

def scanTag : ScanM Token := do
  let next ← peek 1
  let fuel := (← get).rest.length + 1
  let token ←
    if next == '<' then do
      forward 2
      let suffix ← uri fuel []
      if (← peek) != '>' then bad
      forward
      pure (Token.tag none suffix)
    else if isGapOrEnd next then do
      forward
      pure (.tag none "!")
    else
      let word := ((← get).rest.drop 1).takeWhile fun c => !(c == '!' || c == ' ' || isBreak c)
      if (← peek (word.length + 1)) == '!' then do
        let h ← handle
        pure (.tag (some h) (← uri fuel []))
      else do
        forward
        pure (.tag (some "!") (← uri fuel []))
  let next ← peek
  if !(next == ' ' || isBreakOrEnd next) then bad
  return token

/-- How a block scalar ends: with its final line breaks clipped to one, stripped or kept. -/
inductive Chomping where
  | clip
  | strip
  | keep

def chomping? (c : Char) : Option Chomping :=
  if c == '+' then some .keep else if c == '-' then some .strip else none

def blockIncrement : ScanM (Option Nat) := do
  let c ← peek
  if c.isDigit then
    if c == '0' then bad
    forward
    return some (c.toNat - 48)
  else return none

def blockIndicators : ScanM (Chomping × Option Nat) := do
  let result ← match chomping? (← peek) with
    | some ch => do
      forward
      pure (ch, ← blockIncrement)
    | none => do
      match ← blockIncrement with
      | some n =>
        match chomping? (← peek) with
        | some ch => do
          forward
          pure (ch, some n)
        | none => pure (.clip, some n)
      | none => pure (.clip, none)
  let next ← peek
  if !(next == ' ' || isBreakOrEnd next) then bad
  return result

/-- The empty lines before the first line of a block scalar, and the deepest column they reach. -/
def blockLead : Nat → List Char → Nat → ScanM (List Char × Nat)
  | 0, breaks, deepest => return (breaks, deepest)
  | fuel + 1, breaks, deepest => do
    let c ← peek
    if c == ' ' then
      forward
      blockLead fuel breaks (max deepest (← get).column)
    else if isBreak c then
      let b ← lineBreak
      blockLead fuel (breaks ++ b) deepest
    else return (breaks, deepest)

/-- Blanks up to column `indent`. -/
def skipIndent : Nat → Nat → ScanM Unit
  | 0, _ => return
  | fuel + 1, indent => do
    if (← get).column < indent && (← peek) == ' ' then
      forward
      skipIndent fuel indent

/-- The empty lines between two lines of a block scalar. -/
def blockBreaks (indent : Nat) : Nat → List Char → ScanM (List Char)
  | 0, breaks => return breaks
  | fuel + 1, breaks => do
    skipIndent indent indent
    if isBreak (← peek) then
      let b ← lineBreak
      blockBreaks indent fuel (breaks ++ b)
    else return breaks

/-- The lines of a block scalar, onto the chunks already read, last first. -/
def blockLines (folded : Bool) (indent : Nat) (chomping : Chomping) :
    Nat → List (List Char) → List Char → ScanM (List (List Char))
  | 0, done, _ => return done
  | fuel + 1, done, breaks => do
    let atLine (s : Scan) := s.column == indent && !s.rest.isEmpty
    if atLine (← get) then
      let spaced (c : Char) := c == ' ' || c == '\t'
      let leading := !spaced (← peek)
      let text ← takeRun fun c => !isBreak c
      let ending ← lineBreak
      let more ← blockBreaks indent ((← get).rest.length + 1) []
      let done := text :: breaks :: done
      if atLine (← get) then
        if folded && ending == ['\n'] && leading && !spaced (← peek) then
          blockLines folded indent chomping fuel (if more.isEmpty then [' '] :: done else done) more
        else blockLines folded indent chomping fuel (ending :: done) more
      else
        match chomping with
        | .strip => return done
        | .clip => return ending :: done
        | .keep => return more :: ending :: done
    else
      match chomping with
      | .keep => return breaks :: done
      | _ => return done

def blockScalar (folded : Bool) : ScanM Token := do
  forward
  let (chomping, increment) ← blockIndicators
  ignoredLine
  let s ← get
  let least := (max 1 (s.indent + 1)).toNat
  let fuel := s.rest.length + 1
  let (indent, breaks) ← match increment with
    | none => do
      let (breaks, deepest) ← blockLead fuel [] 0
      pure (max least deepest, breaks)
    | some n => do
      let indent := least + n - 1
      pure (indent, ← blockBreaks indent fuel [])
  let chunks ← blockLines folded indent chomping fuel [] breaks
  return .scalar (String.ofList chunks.reverse.flatten) false

/-- Whether a document mark stands here. -/
def atDocumentMark : ScanM Bool := do
  need 3
  let mark := (← get).rest.take 3
  if mark == ['-', '-', '-'] || mark == ['.', '.', '.'] then return isGapOrEnd (← peek 3)
  else return false

/-- The line breaks inside a quoted scalar and the blanks around them. -/
def quotedBreaks : Nat → List Char → ScanM (List Char)
  | 0, done => return done
  | fuel + 1, done => do
    if ← atDocumentMark then bad
    let _ ← takeRun isTabOrSpace
    if isBreak (← peek) then
      let b ← lineBreak
      quotedBreaks fuel (done ++ b)
    else return done

def quotedEscape? : Char → Option Char
  | '0' => some '\x00'
  | 'a' => some '\x07'
  | 'b' => some '\x08'
  | 't' => some '\t'
  | '\t' => some '\t'
  | 'n' => some '\n'
  | 'v' => some '\x0b'
  | 'f' => some '\x0c'
  | 'r' => some '\r'
  | 'e' => some '\x1b'
  | ' ' => some ' '
  | '"' => some '"'
  | '\\' => some '\\'
  | '/' => some '/'
  | 'N' => some '\x85'
  | '_' => some '\xa0'
  | 'L' => some '\u2028'
  | 'P' => some '\u2029'
  | _ => none

def codeLength? : Char → Option Nat
  | 'x' => some 2
  | 'u' => some 4
  | 'U' => some 8
  | _ => none

/-- The character a numeric escape stands for; `length` digits are still to come. -/
def numericEscape (length : Nat) : ScanM Char := do
  let n := (← hexDigits length).foldl hexStep 0
  if 0x80000000 ≤ n then throw (.outOfRange "Python int too large to convert to C int")
  if 0x110000 ≤ n then throw (.badValue "chr() arg not in range(0x110000)")
  forward length
  return if n.isValidChar then Char.ofNat n else Char.ofNat 0xfffd

/-- The text of a quoted scalar from after its first quote, onto the chunks already read. -/
def quotedText (double : Bool) : Nat → List (List Char) → ScanM (List (List Char))
  | 0, _ => bad
  | fuel + 1, done => do
    let run ← takeRun fun c => !(c == '\'' || c == '"' || c == '\\' || isGapOrEnd c)
    let done := if run.isEmpty then done else run :: done
    let c ← peek
    if !double && c == '\'' then
      if (← peek 1) == '\'' then
        forward 2
        quotedText double fuel (['\''] :: done)
      else
        forward
        return done
    else if double && c == '"' then
      forward
      return done
    else if c == '\'' || c == '"' || (!double && c == '\\') then
      forward
      quotedText double fuel ([c] :: done)
    else if c == '\\' then
      forward
      let e ← peek
      match quotedEscape? e, codeLength? e with
      | some x, _ =>
        forward
        quotedText double fuel ([x] :: done)
      | none, some n =>
        forward
        let x ← numericEscape n
        quotedText double fuel ([x] :: done)
      | none, none =>
        if isBreak e then
          let _ ← lineBreak
          let breaks ← quotedBreaks fuel []
          quotedText double fuel (breaks :: done)
        else bad
    else
      let blanks ← takeRun isTabOrSpace
      let c ← peek
      if isEnd c then bad
      else if isBreak c then
        let b ← lineBreak
        let breaks ← quotedBreaks fuel []
        let first := if b != ['\n'] then b else if breaks.isEmpty then [' '] else []
        quotedText double fuel (breaks :: first :: done)
      else quotedText double fuel (blanks :: done)

def quotedScalar (double : Bool) : ScanM Token := do
  forward
  let chunks ← quotedText double ((← get).rest.length + 2) []
  return .scalar (String.ofList chunks.reverse.flatten) false

/-- The marks of flow collections that no plain scalar goes over. -/
def flowMarks : List Char := [',', '[', ']', '\x7b', '\x7d']

/-- The characters of a plain scalar up to the next blank or mark. -/
def plainRun (flow : Bool) : List Char → List Char
  | [] => []
  | c :: rest =>
    let next := rest.headD '\x00'
    if isGapOrEnd c || (c == ':' && (isGapOrEnd next || (flow && flowMarks.contains next))) ||
        (flow && (c == '?' || flowMarks.contains c)) then []
    else c :: plainRun flow rest

/-- The line breaks inside a plain scalar after its first one; none if a document ends here. -/
def plainBreaks : Nat → List Char → ScanM (Option (List Char))
  | 0, done => return some done
  | fuel + 1, done => do
    let c ← peek
    if c == ' ' then
      forward
      plainBreaks fuel done
    else if isBreak c then
      let b ← lineBreak
      if ← atDocumentMark then return none
      plainBreaks fuel (done ++ b)
    else return some done

/-- What stands for the gap after a run of a plain scalar; nothing if the scalar ends there. -/
def plainGap : ScanM (List Char) := do
  let blanks ← takeRun (· == ' ')
  if isBreak (← peek) then
    let b ← lineBreak
    allowKey true
    if ← atDocumentMark then return []
    match ← plainBreaks ((← get).rest.length + 1) [] with
    | none => return []
    | some breaks =>
      if b != ['\n'] then return b ++ breaks
      else if breaks.isEmpty then return [' ']
      else return breaks
  else return blanks

def plainText (indent : Int) : Nat → List (List Char) → List Char → ScanM (List (List Char))
  | 0, done, _ => return done
  | fuel + 1, done, gap => do
    if (← peek) == '#' then return done
    let flow ← inFlow
    let rest := (← get).rest
    let run := plainRun flow rest
    need (run.length + if rest[run.length]? == some ':' then 2 else 1)
    if run.isEmpty then return done
    allowKey false
    forward run.length
    let done := run :: gap :: done
    let gap ← plainGap
    if gap.isEmpty || (← peek) == '#' || (!flow && (← get).column < indent) then return done
    else plainText indent fuel done gap

def plainScalar : ScanM Token := do
  let s ← get
  let chunks ← plainText (s.indent + 1) (s.rest.length + 1) [] []
  return .scalar (String.ofList chunks.reverse.flatten) true

def documentMark (t : Token) : ScanM Unit := do
  closeBlocks (-1)
  dropKey
  allowKey false
  forward 3
  push t

def flowStart (t : Token) : ScanM Unit := do
  noteKey
  modify fun s => { s with flowLevel := s.flowLevel + 1 }
  allowKey true
  forward
  push t

def flowEnd (t : Token) : ScanM Unit := do
  dropKey
  modify fun s => { s with flowLevel := s.flowLevel - 1 }
  allowKey false
  forward
  push t

def blockEntryMark : ScanM Unit := do
  if !(← inFlow) then
    if !(← get).allowKey then bad
    if ← openBlock (← get).column then push .blockSequenceStart
  allowKey true
  dropKey
  forward
  push .blockEntry

def keyMark : ScanM Unit := do
  let flow ← inFlow
  if !flow then
    if !(← get).allowKey then bad
    if ← openBlock (← get).column then push .blockMappingStart
  allowKey !flow
  dropKey
  forward
  push .key

def insertAt (place : Nat) (t : Token) : ScanM Unit :=
  modify fun s => { s with tokens := s.tokens.insertIdxIfInBounds place t }

def valueMark : ScanM Unit := do
  let s ← get
  let flow := s.flowLevel != 0
  match s.keys.lookup s.flowLevel with
  | some k =>
    set { s with keys := s.keys.filter (·.1 != s.flowLevel) }
    insertAt k.token .key
    if !flow then
      if ← openBlock k.column then insertAt k.token .blockMappingStart
    allowKey false
  | none =>
    if !flow then
      if !s.allowKey then bad
      if ← openBlock s.column then push .blockMappingStart
    allowKey !flow
    dropKey
  forward
  push .value

/-- The characters that start no plain scalar of their own. -/
def isIndicator (c : Char) : Bool :=
  isGapOrEnd c || "-?:,[]\x7b\x7d#&*!|>'\"%@`".toList.contains c

def plain : ScanM Unit := do
  noteKey
  allowKey false
  push (← plainScalar)

/-- A mark that stands for itself before a blank; before anything else a plain scalar starts with
it. -/
def blockMark (c : Char) : ScanM Unit := do
  if !isGapOrEnd (← peek 1) then plain
  else if c == '-' then blockEntryMark
  else if c == '?' then keyMark
  else valueMark

/-- One more token, or several, from the character they start with. -/
def scanToken (c : Char) : ScanM Unit := do
  let flow ← inFlow
  if c == '[' then flowStart .flowSequenceStart
  else if c == '\x7b' then flowStart .flowMappingStart
  else if c == ']' then flowEnd .flowSequenceEnd
  else if c == '\x7d' then flowEnd .flowMappingEnd
  else if c == ',' then
    allowKey true
    dropKey
    forward
    push .flowEntry
  else if c == '-' || (!flow && (c == '?' || c == ':')) then
    blockMark c
  else if c == '?' then keyMark
  else if c == ':' then valueMark
  else if c == '*' || c == '&' then
    noteKey
    allowKey false
    let name ← scanName
    push (if c == '*' then .aliasOf name else .anchor name)
  else if c == '!' then
    noteKey
    allowKey false
    push (← scanTag)
  else if (c == '|' || c == '>') && !flow then
    allowKey true
    dropKey
    push (← blockScalar (c == '>'))
  else if c == '\'' || c == '"' then
    noteKey
    allowKey false
    push (← quotedScalar (c == '"'))
  else if isIndicator c then
    let _ ← peek 1
    bad
  else plain

/-- What stands at the margin: a document mark, or else a token. -/
def scanMargin (c : Char) : ScanM Unit := do
  if c == '%' then
    closeBlocks (-1)
    dropKey
    allowKey false
    push (← scanDirective)
  else if c == '-' || c == '.' then
    if ← atDocumentMark then
      documentMark (if c == '-' then .documentStart else .documentEnd)
    else scanToken c
  else scanToken c

/-- Takes the token that begins with the next character. -/
def scanHere (c : Char) : ScanM Unit := do
  if (← get).column == 0 then scanMargin c else scanToken c

/-- Goes on to the next token and ends the keys and blocks that it does not belong to. -/
def toNext : ScanM Unit := do
  skipToToken ((← get).rest.length + 1)
  dropStaleKeys
  closeBlocks (← get).column

/-- The next step of the scanner; `true` at the end of the text. -/
def scanNext : ScanM Bool := do
  toNext
  let c ← peek
  if (← get).rest.isEmpty then
    closeBlocks (-1)
    dropKey
    return true
  scanHere c
  return false

end Token

/-- The tokens that were read, and what stopped the reading before the end of the text. -/
structure Scanned where
  tokens : List Token
  failure : Option Error

namespace Scan

/-- The tokens that nothing can come before any more: no key may start at them. -/
def settled (s : Scan) : List Token :=
  s.tokens.toList.take ((s.keys.map fun (_, k) => k.token).foldl min s.tokens.size)

/-- All further tokens. A step that fails leaves behind the tokens from before. -/
def tokensFrom (beyond : Option Error) : Nat → Scan → Scanned
  | 0, s => { tokens := s.settled, failure := some .malformedYaml }
  | fuel + 1, s =>
    match (Token.dropStaleKeys beyond).run s with
    | (.error e, _) => { tokens := s.settled, failure := some e }
    | (.ok _, s) =>
      match (Token.scanNext beyond).run s with
      | (.error e, _) => { tokens := s.settled, failure := some e }
      | (.ok true, s) => { tokens := s.tokens.toList, failure := none }
      | (.ok false, s) => tokensFrom beyond fuel s

end Scan

/-- The characters that can be asked for, and what happens if more are: a piece fails that holds a
character which may not occur. -/
def availableFrom (failure : Option Error) : List (List Char) → List Char × Option Error
  | [] => ([], failure)
  | piece :: rest =>
    if piece.all isAllowed then
      let (cs, failure) := availableFrom failure rest
      (piece ++ cs, failure)
    else ([], some .malformedYaml)

/-- The first two pieces are taken together, so one piece alone is not there before its end is. -/
def available (t : TextStream) : List Char × Option Error :=
  let failure := t.failure.map Error.undecodable
  match t.pieces, failure with
  | first :: second :: rest, failure => availableFrom failure ((first ++ second) :: rest)
  | _, some e => ([], some e)
  | pieces, none => availableFrom none pieces

/-- The tokens of a text. Each step but the last takes at least one character. -/
def Token.scan (t : TextStream) : Scanned :=
  let (rest, beyond) := available t
  Scan.tokensFrom beyond (rest.length + 2) { rest }

/-! ## The end of the text -/

section Ends

variable {α β : Type} {beyond : Option Error} {s s' : Scan}

theorem ScanM.bind_eq_ok {m : ScanM α} {f : α → ScanM β} {x : β}
    (run : ((m >>= f) beyond).run s = (.ok x, s')) :
    ∃ a t, (m beyond).run s = (.ok a, t) ∧ (f a beyond).run t = (.ok x, s') := by
  change ExceptT.bindCont (fun a => f a beyond) ((m beyond).run s).1 ((m beyond).run s).2 = _ at run
  rcases step : (m beyond).run s with ⟨_ | a, t⟩ <;> rw [step] at run
  · cases run
  · exact ⟨a, t, rfl, run⟩

namespace Token

theorem need_some (n : Nat) (e : Error) (s : Scan) :
    (need n (some e)).run s =
      if (s.rest.drop (n - 1)).isEmpty then (.error e, s) else (.ok (), s) := by
  change ((if (s.rest.drop (n - 1)).isEmpty then throw e else pure () : ScanM Unit) (some e)).run s
    = _
  split <;> rfl

/-- Whoever looks at the next character, and finds that there is none, is at the end of the text. -/
theorem eq_none_of_peek {c : Char} (run : (peek 0 beyond).run s = (.ok c, s'))
    (empty : s'.rest = []) : beyond = none := by
  cases beyond with
  | none => rfl
  | some e =>
    obtain ⟨_, t, asked, run⟩ := ScanM.bind_eq_ok run
    obtain ⟨_, u, got, run⟩ := ScanM.bind_eq_ok run
    cases got
    cases run
    rw [need_some] at asked
    split at asked
    · cases asked
    · next there =>
      cases asked
      rw [empty] at there
      exact absurd rfl there

theorem eq_none_of_scanNext (run : (scanNext beyond).run s = (.ok true, s')) : beyond = none := by
  obtain ⟨_, t, -, run⟩ := ScanM.bind_eq_ok run
  obtain ⟨c, t, looked, run⟩ := ScanM.bind_eq_ok run
  obtain ⟨_, u, got, run⟩ := ScanM.bind_eq_ok run
  cases got
  split at run
  · next empty => exact eq_none_of_peek looked (List.isEmpty_iff.1 empty)
  · obtain ⟨_, u, -, run⟩ := ScanM.bind_eq_ok run
    cases run

end Token

theorem Scan.eq_none_of_tokensFrom {fuel : Nat} (ends : (tokensFrom beyond fuel s).failure = none) :
    beyond = none := by
  induction fuel generalizing s with
  | zero => cases ends
  | succ fuel ih =>
    unfold tokensFrom at ends
    split at ends
    · cases ends
    · split at ends
      · cases ends
      · next run => exact Token.eq_none_of_scanNext run
      · exact ih ends

theorem eq_none_of_availableFrom {failure : Option Error} {pieces : List (List Char)}
    (ends : (availableFrom failure pieces).2 = none) : failure = none := by
  induction pieces with
  | nil => exact ends
  | cons piece rest ih =>
    rw [availableFrom] at ends
    split at ends
    · exact ih ends
    · cases ends

/-- All tokens are read only of a text that does not break off. -/
theorem Token.eq_none_of_scan {t : TextStream} (ends : (Token.scan t).failure = none) :
    t.failure = none := by
  have beyond : (available t).2 = none := Scan.eq_none_of_tokensFrom ends
  have own : t.failure.map Error.undecodable = none := by
    unfold available at beyond
    dsimp only at beyond
    split at beyond
    · exact eq_none_of_availableFrom beyond
    · cases beyond
    · assumption
  simpa using own

end Ends

end Polyad.Yaml
