import Polyad.Decimal.Shortest
import Polyad.Text.Classes

/-!
# Reading numbers

Whole and floating point numbers as people write them: blanks around them, a sign, digits of any
script, single underscores between digits. `readInt` reads whole numbers of a base and tells why it
cannot; `readFloat?` also knows the words for infinity and not-a-number.
-/

namespace Polyad.Decimal

def ofDigits (ds : List Nat) : Nat := ds.foldl (fun n d => n * 10 + d) 0

/-- A sign, if there is one, and what follows it. -/
def splitSign : List Char → Bool × List Char
  | '-' :: rest => (true, rest)
  | '+' :: rest => (false, rest)
  | cs => (false, cs)

/-- Blanks that may surround a number: all but the separators of ASCII. -/
def isMargin (c : Char) : Bool := Text.isBlank c && !(28 ≤ c.toNat && c.toNat ≤ 31)

/-- The text without the blanks at its two ends. -/
def trimmed (cs : List Char) : List Char :=
  ((cs.dropWhile isMargin).reverse.dropWhile isMargin).reverse

/-- The value of a digit: decimal digits of any script, and letters of ASCII from ten on. -/
def digitIn? (base : Nat) (c : Char) : Option Nat :=
  let letter := if 'a' ≤ c && c ≤ 'z' then some (c.toNat - 87)
    else if 'A' ≤ c && c ≤ 'Z' then some (c.toNat - 55)
    else none
  ((Text.digitValue? c).or letter).filter (· < base)

/-- Why a text is no whole number. -/
inductive WholeFault where
  | malformed
  | tooLong (digits : Nat)
  deriving DecidableEq, Repr

/-- The most digits a whole number of base ten is read with. -/
def maxDigits : Nat := 4300

/-- Whether underscores stand only between two digits. -/
def isGrouped : List Char → Bool
  | [] => true
  | ['_'] => false
  | '_' :: '_' :: _ => false
  | _ :: rest => isGrouped rest

/-- Whether a character marks a base behind a zero. -/
def marksBase (base : Nat) (c : Char) : Bool :=
  match base with
  | 2 => c == 'b' || c == 'B'
  | 8 => c == 'o' || c == 'O'
  | 16 => c == 'x' || c == 'X'
  | _ => false

/-- The digits after the mark of a base, which an underscore may set off. -/
def dropBaseMark (base : Nat) (cs : List Char) : List Char :=
  match cs with
  | zero :: mark :: rest =>
    if Text.digitValue? zero == some 0 && marksBase base mark then
      match rest with
      | '_' :: rest => rest
      | rest => rest
    else cs
  | cs => cs

/-- The whole number without its sign that a text stands for. -/
def readMagnitude (base : Nat) (cs : List Char) : Except WholeFault Nat :=
  let (run, rest) := cs.span fun c => (digitIn? base c).isSome || c == '_'
  let ds := run.filterMap (digitIn? base)
  if run.head? == some '_' || !isGrouped run then .error .malformed
  else if base == 10 && maxDigits < ds.length then .error (.tooLong ds.length)
  else if ds.isEmpty || !rest.isEmpty then .error .malformed
  else .ok (ds.foldl (fun n d => n * base + d) 0)

/-- The whole number a text stands for in a base; a mark of that same base may stand in front. -/
def readInt (base : Nat) (s : String) : Except WholeFault Int := do
  let (negative, cs) := splitSign (trimmed s.toList)
  let n : Int ← readMagnitude base (dropBaseMark base cs)
  return if negative then -n else n

/-- The digits of a run with single underscores between them. -/
def groupedDigits? : List Char → Option (List Nat)
  | [] => none
  | [c] => (Text.digitValue? c).map ([·])
  | c :: '_' :: rest => do
    let d ← Text.digitValue? c
    let ds ← groupedDigits? rest
    return d :: ds
  | c :: rest => do
    let d ← Text.digitValue? c
    let ds ← groupedDigits? rest
    return d :: ds

def lowered (cs : List Char) : String := String.ofList (cs.map Char.toLower)

/-- A run of digits that may be empty. -/
def optionalDigits? : List Char → Option (List Nat)
  | [] => some []
  | cs => groupedDigits? cs

/-- The exponent after its mark; no mark means none. -/
def readPower? (cs : List Char) : Option Int :=
  match cs with
  | [] => some 0
  | _ :: rest => do
    let (negative, ds) := splitSign rest
    let n : Int := ofDigits (← groupedDigits? ds)
    return if negative then -n else n

/-- A number without its sign. -/
def readPointed? (cs : List Char) : Option Float :=
  let word := lowered cs
  if word == "inf" || word == "infinity" then some (1.0 / 0.0)
  else if word == "nan" then some (0.0 / 0.0)
  else do
    let (number, power) := cs.span fun c => c != 'e' && c != 'E'
    let e ← readPower? power
    let (whole, fraction) := number.span (· != '.')
    let ws ← optionalDigits? whole
    let fs ← optionalDigits? (fraction.drop 1)
    if ws.isEmpty && fs.isEmpty then none
    return toFloat (ofDigits (ws ++ fs)) (e - fs.length)

/-- The floating point number a text stands for. -/
def readFloat? (s : String) : Option Float := do
  let (negative, cs) := splitSign (trimmed s.toList)
  let x ← readPointed? cs
  return if negative then -x else x

end Polyad.Decimal
