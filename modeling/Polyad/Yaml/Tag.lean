import Polyad.Decimal.Reader
import Polyad.Error

/-!
# Scalar types

What type an unquoted YAML scalar has by its spelling alone, by the rules of version 1.1: words for
truth values and null, whole numbers in bases 2, 8, 10, 16 and 60, numbers with a point, and dates.
-/

namespace Polyad.Yaml

/-- A tag of the standard schema. -/
def core (name : String) : String := "tag:yaml.org,2002:" ++ name

def isOctal (c : Char) : Bool := '0' ≤ c && c ≤ '7'

def isHex (c : Char) : Bool := c.isDigit || ('a' ≤ c && c ≤ 'f') || ('A' ≤ c && c ≤ 'F')

def isDigitOr_ (c : Char) : Bool := c.isDigit || c == '_'

/-- Whether a text is one or more sixties places: a colon and a number up to 59. -/
def isSixties : List Char → Bool
  | [':', c] => c.isDigit
  | [':', c, d] => '0' ≤ c && c ≤ '5' && d.isDigit
  | ':' :: c :: ':' :: rest => c.isDigit && isSixties (':' :: rest)
  | ':' :: c :: d :: ':' :: rest => '0' ≤ c && c ≤ '5' && d.isDigit && isSixties (':' :: rest)
  | _ => false

/-- A whole number without its sign. -/
def isWholeMagnitude (cs : List Char) : Bool :=
  match cs with
  | ['0'] => true
  | '0' :: 'b' :: rest => !rest.isEmpty && rest.all fun c => c == '0' || c == '1' || c == '_'
  | '0' :: 'x' :: rest => !rest.isEmpty && rest.all fun c => isHex c || c == '_'
  | '0' :: rest => rest.all fun c => isOctal c || c == '_'
  | c :: rest =>
    c.isDigit && (let after := rest.dropWhile isDigitOr_; after.isEmpty || isSixties after)
  | [] => false

def isWhole (cs : List Char) : Bool := isWholeMagnitude (Decimal.splitSign cs).2

/-- A power of ten with its sign, or nothing. -/
def isPower (cs : List Char) : Bool :=
  match cs with
  | [] => true
  | e :: s :: d :: rest =>
    (e == 'e' || e == 'E') && (s == '-' || s == '+') && d.isDigit && rest.all Char.isDigit
  | _ => false

/-- A number with a point, without its sign. -/
def isPointMagnitude (cs : List Char) : Bool :=
  match cs with
  | c :: rest =>
    c.isDigit &&
      (match rest.dropWhile isDigitOr_ with
        | '.' :: after => isPower (after.dropWhile isDigitOr_)
        | after =>
          match after.span (· != '.') with
          | (sixties, '.' :: fraction) => isSixties sixties && fraction.all isDigitOr_
          | _ => false)
  | [] => false

def isPointNumber (cs : List Char) : Bool :=
  let magnitude := (Decimal.splitSign cs).2
  let word := String.ofList magnitude
  isPointMagnitude magnitude || [".inf", ".Inf", ".INF"].contains word ||
    [".nan", ".NaN", ".NAN"].contains (String.ofList cs) ||
    (match cs with
      | '.' :: d :: rest => d.isDigit && isPower (rest.dropWhile isDigitOr_)
      | _ => false)

/-- The digits at the front, between `lo` and `hi` of them. -/
def takeDigits? (lo hi : Nat) (cs : List Char) : Option (List Char × List Char) :=
  let ds := (cs.take hi).takeWhile Char.isDigit
  if lo ≤ ds.length then some (ds, cs.drop ds.length) else none

def takeChar? (c : Char) : List Char → Option (List Char)
  | d :: rest => if c == d then some rest else none
  | [] => none

def isTabOrSpace (c : Char) : Bool := c == ' ' || c == '\t'

/-- The parts of a date and time. A distance from universal time is in minutes. -/
structure Stamp where
  year : List Char
  month : List Char
  day : List Char
  clock : Option (List Char × List Char × List Char)
  fraction : List Char
  zone : Option (Option (Bool × List Char × List Char))

def takeZone? (cs : List Char) : Option (Option (Option (Bool × List Char × List Char))) :=
  match cs, cs.dropWhile isTabOrSpace with
  | [], _ => some none
  | _, ['Z'] => some (some none)
  | _, sign :: rest =>
    if sign == '-' || sign == '+' then do
      let (hours, rest) ← takeDigits? 1 2 rest
      match rest with
      | [] => return some (some (sign == '-', hours, []))
      | _ =>
        let (minutes, rest) ← takeDigits? 2 2 (← takeChar? ':' rest)
        if rest.isEmpty then return some (some (sign == '-', hours, minutes)) else none
    else none
  | _, [] => none

/-- The time of day after a date: set off by a `T` or by blanks. -/
def takeClock? (cs : List Char) : Option (List Char × List Char × List Char × List Char) := do
  let rest ← match cs with
    | 'T' :: rest => some rest
    | 't' :: rest => some rest
    | c :: rest => if isTabOrSpace c then some (rest.dropWhile isTabOrSpace) else none
    | [] => none
  let (h, rest) ← takeDigits? 1 2 rest
  let (m, rest) ← takeDigits? 2 2 (← takeChar? ':' rest)
  let (s, rest) ← takeDigits? 2 2 (← takeChar? ':' rest)
  return (h, m, s, rest)

/-- The parts of a scalar that is spelled like a date, with or without a time. A `strict` date alone
has two digits for month and day. -/
def stamp? (strict : Bool) (cs : List Char) : Option Stamp := do
  let (year, rest) ← takeDigits? 4 4 cs
  let (month, rest) ← takeDigits? 1 2 (← takeChar? '-' rest)
  let (day, rest) ← takeDigits? 1 2 (← takeChar? '-' rest)
  if rest.isEmpty then
    if !strict || (month.length == 2 && day.length == 2) then
      return { year, month, day, clock := none, fraction := [], zone := none }
    else none
  else
    let (h, m, s, rest) ← takeClock? rest
    let (fraction, rest) := match rest with
      | '.' :: rest => rest.span Char.isDigit
      | _ => ([], rest)
    let zone ← takeZone? rest
    return { year, month, day, clock := some (h, m, s), fraction, zone }

def truthWords : List (String × Bool) := [
  ("yes", true), ("Yes", true), ("YES", true), ("no", false), ("No", false), ("NO", false),
  ("true", true), ("True", true), ("TRUE", true), ("false", false), ("False", false),
  ("FALSE", false), ("on", true), ("On", true), ("ON", true), ("off", false), ("Off", false),
  ("OFF", false)]

/-- Whether a text, or what stands before its final line feed, has a form. -/
def isLineOf (form : List Char → Bool) (cs : List Char) : Bool :=
  form cs || (cs.getLast? == some '\n' && form cs.dropLast)

/-- The date and time on a line. -/
def stampLine? (strict : Bool) (cs : List Char) : Option Stamp :=
  (stamp? strict cs).or (if cs.getLast? == some '\n' then stamp? strict cs.dropLast else none)

/-- The tag of an unquoted scalar. -/
def implicitTag (s : String) : String :=
  let cs := s.toList
  let isWord (words : List String) := isLineOf (fun cs => words.contains (String.ofList cs)) cs
  if s == "" then core "null"
  else if isWord (truthWords.map Prod.fst) then core "bool"
  else if isLineOf isPointNumber cs then core "float"
  else if isLineOf isWhole cs then core "int"
  else if isWord ["<<"] then core "merge"
  else if isWord ["~", "null", "Null", "NULL"] then core "null"
  else if (stampLine? true cs).isSome then core "timestamp"
  else if isWord ["="] then core "value"
  else if isWord ["!", "&", "*"] then core "yaml"
  else core "str"

end Polyad.Yaml
