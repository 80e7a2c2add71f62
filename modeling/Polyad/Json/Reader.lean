import Polyad.Decimal.Reader
import Polyad.Json.Printer

/-!
# Reading JSON

A reader for one JSON value with blanks around it. Of repeated keys the last value stays; `NaN` and
the infinities are accepted; control characters inside strings are not.
-/

namespace Polyad.Json

def isSpace (c : Char) : Bool := c == ' ' || c == '\t' || c == '\n' || c == '\r'

def skipSpace (cs : List Char) : List Char := cs.dropWhile isSpace

def hexValue? (c : Char) : Option Nat :=
  if c.isDigit then some (c.toNat - 48)
  else if 'a' ≤ c ∧ c ≤ 'f' then some (c.toNat - 87)
  else if 'A' ≤ c ∧ c ≤ 'F' then some (c.toNat - 55)
  else none

/-- The number four hexadecimal digits stand for. -/
def unit? (a b c d : Char) : Option Nat := do
  return ((← hexValue? a) * 16 + (← hexValue? b)) * 256 + (← hexValue? c) * 16 + (← hexValue? d)

def isHigh (n : Nat) : Bool := 0xd800 ≤ n && n < 0xdc00

def isLow (n : Nat) : Bool := 0xdc00 ≤ n && n < 0xe000

/-- The character of two code units. -/
def pairChar (high low : Nat) : Char :=
  Char.ofNat (0x10000 + (high - 0xd800) * 0x400 + (low - 0xdc00))

def simpleEscape? : Char → Option Char
  | '"' => some '"'
  | '\\' => some '\\'
  | '/' => some '/'
  | 'b' => some '\x08'
  | 'f' => some '\x0c'
  | 'n' => some '\n'
  | 'r' => some '\r'
  | 't' => some '\t'
  | _ => none

/-- The characters up to the closing quote, and what follows it. -/
def readChars : List Char → Option (List Char × List Char)
  | [] => none
  | '"' :: rest => some ([], rest)
  | '\\' :: 'u' :: a :: b :: c :: d :: '\\' :: 'u' :: e :: f :: g :: h :: rest => do
    let n ← unit? a b c d
    match isHigh n, unit? e f g h with
    | true, some m =>
      if isLow m then
        let (cs, after) ← readChars rest
        return (pairChar n m :: cs, after)
      else
        let (cs, after) ← readChars ('\\' :: 'u' :: e :: f :: g :: h :: rest)
        return (Char.ofNat 0xfffd :: cs, after)
    | _, _ =>
      let (cs, after) ← readChars ('\\' :: 'u' :: e :: f :: g :: h :: rest)
      return (Char.ofNat n :: cs, after)
  | '\\' :: 'u' :: a :: b :: c :: d :: rest => do
    let n ← unit? a b c d
    let (cs, after) ← readChars rest
    return ((if isHigh n || isLow n then Char.ofNat 0xfffd else Char.ofNat n) :: cs, after)
  | '\\' :: e :: rest => do
    let x ← simpleEscape? e
    let (cs, after) ← readChars rest
    return (x :: cs, after)
  | c :: rest => do
    if c.toNat < 32 then none
    let (cs, after) ← readChars rest
    return (c :: cs, after)

/-- A quote ends the text. -/
theorem readChars_quote (rest : List Char) : readChars ('"' :: rest) = some ([], rest) := by
  rw [readChars]

def readDigits (cs : List Char) : List Char × List Char := cs.span Char.isDigit

/-- The number decimal digits stand for. -/
def digitsValue (cs : List Char) : Nat := cs.foldl (fun n c => n * 10 + (c.toNat - 48)) 0

/-- The digits of a fraction after its point, if there is one. -/
def readFraction (cs : List Char) : Option (List Char) × List Char :=
  match cs with
  | '.' :: rest => match readDigits rest with
    | ([], _) => (none, cs)
    | (ds, after) => (some ds, after)
  | _ => (none, cs)

def readExponent (cs : List Char) : Option Int × List Char :=
  let digits (sign : Int) (rest : List Char) : Option Int × List Char :=
    match readDigits rest with
    | ([], _) => (none, cs)
    | (ds, after) => (some (sign * digitsValue ds), after)
  match cs with
  | e :: '-' :: rest => if e == 'e' || e == 'E' then digits (-1) rest else (none, cs)
  | e :: '+' :: rest => if e == 'e' || e == 'E' then digits 1 rest else (none, cs)
  | e :: rest => if e == 'e' || e == 'E' then digits 1 rest else (none, cs)
  | [] => (none, cs)

/-- The digits of the whole part of a number; a zero at the front is all of them. -/
def readWhole (cs : List Char) : List Char × List Char :=
  match cs with
  | '0' :: rest => (['0'], rest)
  | _ => readDigits cs

/-- A number without its sign. -/
def readMagnitude (negative : Bool) (cs : List Char) : Except Error (Value × List Char) :=
  match readWhole cs with
  | ([], _) => .error .malformedJson
  | (ds, rest) =>
    let (fraction, rest) := readFraction rest
    let (exponent, rest) := readExponent rest
    if fraction.isNone && exponent.isNone then
      let n : Int := digitsValue ds
      if Decimal.maxDigits < ds.length then .error (.wholeTooLong ds.length)
      else .ok (.int (if negative then -n else n), rest)
    else
      let fs := fraction.getD []
      let x := Decimal.toFloat (digitsValue (ds ++ fs)) (exponent.getD 0 - fs.length)
      .ok (.float (if negative then -x else x), rest)

/-- A literal word at the front of a text. -/
def literal? (cs : List Char) : Option (Value × List Char) :=
  let words : List (String × Value) := [
    ("null", .null), ("true", .bool true), ("false", .bool false),
    ("NaN", .named jsonNan (.float (0.0 / 0.0))),
    ("Infinity", .float (1.0 / 0.0)), ("-Infinity", .float (-1.0 / 0.0))]
  (words.find? fun (w, _) => w.toList.isPrefixOf cs).map fun (w, v) => (v, cs.drop w.length)

/-- The text up to the closing quote, and what follows it. -/
def readString (cs : List Char) : Except Error (String × List Char) :=
  match readChars cs with
  | some (s, after) => .ok (String.ofList s, after)
  | none => .error .malformedJson

mutual

/-- The value at the front of a text and what follows it. Each value takes at least one character,
so the length of the text is fuel enough. -/
def readValue : Nat → List Char → Except Error (Value × List Char)
  | 0, _ => .error .malformedJson
  | fuel + 1, cs =>
    match cs with
    | '"' :: rest => do
      let (s, after) ← readString rest
      return (.str s, after)
    | '[' :: rest =>
      match skipSpace rest with
      | ']' :: after => .ok (.list [], after)
      | items => readItems fuel [] items
    | '\x7b' :: rest =>
      match skipSpace rest with
      | '\x7d' :: after => .ok (.dict [], after)
      | entries => readEntries fuel [] entries
    | _ =>
      match literal? cs with
      | some r => .ok r
      | none => match cs with
        | '-' :: rest => readMagnitude true rest
        | _ => readMagnitude false cs

/-- The items of a list from the first one on, after those already read. -/
def readItems : Nat → List Value → List Char → Except Error (Value × List Char)
  | 0, _, _ => .error .malformedJson
  | fuel + 1, done, cs => do
    let (v, rest) ← readValue fuel cs
    match skipSpace rest with
    | ']' :: after => return (.list (v :: done).reverse, after)
    | ',' :: more => readItems fuel (v :: done) (skipSpace more)
    | _ => .error .malformedJson

/-- The entries of an object from the first one on, after those already read. -/
def readEntries : Nat → List (Value × Value) → List Char → Except Error (Value × List Char)
  | 0, _, _ => .error .malformedJson
  | fuel + 1, done, cs =>
    match cs with
    | '"' :: rest => do
      let (k, rest) ← readString rest
      match skipSpace rest with
      | ':' :: rest =>
        let (v, rest) ← readValue fuel (skipSpace rest)
        let done := Value.insertEntry (.str k) v done
        match skipSpace rest with
        | '\x7d' :: after => return (.dict done, after)
        | ',' :: more => readEntries fuel done (skipSpace more)
        | _ => .error .malformedJson
      | _ => .error .malformedJson
    | _ => .error .malformedJson

end

/-- The value a text holds. -/
def read (s : String) : Except Error Value :=
  let cs := skipSpace s.toList
  match readValue (2 * cs.length + 1) cs with
  | .ok (v, rest) => if (skipSpace rest).isEmpty then .ok v else .error .malformedJson
  | .error e => .error e

end Polyad.Json
