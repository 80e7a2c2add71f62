import Polyad.Error

/-!
# Naming

The words a family is written with: a Latin name for each arity, number words for its documentation,
and a letter for each position. The letter `t` is kept for the element type of the list projection,
which leaves 25 letters and bounds the arity of a family.
-/

namespace Polyad.Naming

def familyNames : List String := [
  "Single", "Duad", "Triad", "Quadruple", "Quintuple", "Sextuple", "Septuple", "Octuple",
  "Nonuple", "Decuple", "Undecuple", "Duodecuple", "Tredecuple", "Quattuordecuple",
  "Quindecuple", "Sexdecuple", "Septendecuple", "Octodecuple", "Novemdecuple", "Vigintuple",
  "Unvigintuple", "Duovigintuple", "Trevigintuple", "Quattuorvigintuple", "Quinvigintuple",
  "Sexvigintuple", "Septenvigintuple", "Octovigintuple", "Novemvigintuple", "Trigintuple",
  "Untrigintuple", "Duotriguple", "Tretriguple", "Quattuortriguple", "Quintriguple",
  "Sextriguple", "Septentriguple", "Octotriguple", "Novemtriguple", "Quadraguple",
  "Unquadraguple", "Duoquadraguple", "Trequadraguple", "Quattuorquadraguple", "Quinquadraguple",
  "Sexquadraguple", "Septenquadraguple", "Octoquadraguple", "Novemquadraguple", "Quinquaguple",
  "Unquinquaguple", "Duoquinquaguple", "Trequinquaguple", "Quattuorquinquaguple",
  "Quinquinquaguple", "Sexquinquaguple", "Septenquinquaguple", "Octoquinquaguple",
  "Novemquinquaguple", "Sexaguple", "Unsexaguple", "Duosexaguple", "Tresexaguple",
  "Quattuorsexaguple", "Quinsexaguple", "Sexsexaguple", "Septensexaguple", "Octosexaguple",
  "Novemsexaguple", "Septuaguple", "Unseptuaguple", "Duoseptuaguple", "Treseptuaguple",
  "Quattuorseptuaguple", "Quinseptuaguple", "Sexseptuaguple", "Septenseptuaguple",
  "Octoseptuaguple", "Novemseptuaguple", "Octoguple", "Unoctoguple", "Duooctoguple",
  "Treoctoguple", "Quattuoroctoguple", "Quinoctoguple", "Sexoctoguple", "Septoctoguple",
  "Octooctoguple", "Novemoctoguple", "Nonaguple", "Unnonaguple", "Duononaguple", "Trenonaguple",
  "Quattuornonaguple", "Quinnonaguple", "Sexnonaguple", "Septennonaguple", "Octononaguple",
  "Novemnonaguple", "Centuple"]

def letters : List Char := "abcdefghijklmnopqrsuvwxyz".toList

/-- How many positions can be given a letter. -/
def letterBudget : Nat := letters.length

theorem letterBudget_eq : letterBudget = 25 := by decide

/-- The element of a list at a whole number, which may be out of range. -/
def at? {α : Type} (xs : List α) (i : Int) : Option α :=
  if 0 ≤ i then xs[i.toNat]? else none

/-- The name of the class that holds `arity` values. -/
def familyName (arity : Int) : Except Error String :=
  match at? familyNames (arity - 1) with
  | some name => .ok name
  | none => .error (.noFamilyName (.int arity))

def units : List String := [
  "zero", "one", "two", "three", "four", "five", "six", "seven", "eight", "nine", "ten", "eleven",
  "twelve", "thirteen", "fourteen", "fifteen", "sixteen", "seventeen", "eighteen", "nineteen"]

def tens : List String := [
  "zero", "ten", "twenty", "thirty", "forty", "fifty", "sixty", "seventy", "eighty", "ninety"]

/-- The words for a number below a hundred. -/
def belowHundred (n : Nat) : String :=
  if n < 20 then units.getD n ""
  else if n % 10 == 0 then tens.getD (n / 10) ""
  else tens.getD (n / 10) "" ++ "-" ++ units.getD (n % 10) ""

/-- The words for a number below a thousand. -/
def numberWords (n : Nat) : String :=
  if n < 100 then belowHundred n
  else
    let hundreds := units.getD (n / 100) "" ++ " hundred"
    if n % 100 == 0 then hundreds else hundreds ++ " and " ++ belowHundred (n % 100)

def cardinal (n : Int) : Except Error String :=
  if 0 ≤ n ∧ n ≤ 999 then .ok (numberWords n.toNat) else .error (.noCardinal (.int n))

/-- The ordinal of a single number word. -/
def ordinalWord (w : String) : String :=
  match w with
  | "one" => "first"
  | "two" => "second"
  | "three" => "third"
  | "five" => "fifth"
  | "eight" => "eighth"
  | "nine" => "ninth"
  | "twelve" => "twelfth"
  | _ =>
    if w.toList.getLast? == some 'y' then String.ofList w.toList.dropLast ++ "ieth" else w ++ "th"

/-- The characters of a number's words up to and with the last blank or hyphen, and the rest. -/
def splitLastWord (words : String) : List Char × List Char :=
  let reversed := words.toList.reverse
  let isLetter (c : Char) := c != ' ' && c != '-'
  ((reversed.dropWhile isLetter).reverse, (reversed.takeWhile isLetter).reverse)

/-- Only the last word changes, and a leading "one " is dropped: 100 gives "hundredth". -/
def ordinalWords (n : Nat) : String :=
  let words := numberWords n
  let words :=
    if "one ".toList.isPrefixOf words.toList then String.ofList (words.toList.drop 4) else words
  let (head, last) := splitLastWord words
  String.ofList head ++ ordinalWord (String.ofList last)

def ordinal (n : Int) : Except Error String :=
  if 1 ≤ n ∧ n ≤ 999 then .ok (ordinalWords n.toNat) else .error (.noOrdinal (.int n))

/-- The letter of a position, counted from 0. -/
def positionLabel (index : Int) : Except Error String :=
  match at? letters index with
  | some c => .ok (String.singleton c)
  | none => .error (.noLetter (.int index) (.int (index + 1)))

/-- The type parameter of a position, counted from 0. -/
def typeParam (index : Int) : Except Error String :=
  match at? letters index with
  | some c => .ok (String.singleton c.toUpper)
  | none => .error (.noLetter (.int index) (.int (index + 1)))

/-- Something made of the letter of each of the first positions. -/
def firstLetters (count : Int) (write : Char → String) : Except Error (List String) :=
  if count ≤ letterBudget then .ok ((letters.take count.toNat).map write)
  else .error (.noLetter (.int letterBudget) (.int (letterBudget + 1)))

def positionLabels (count : Int) : Except Error (List String) := firstLetters count String.singleton

def typeParams (count : Int) : Except Error (List String) :=
  firstLetters count fun c => String.singleton c.toUpper

theorem firstLetters_eq_ok_iff {count : Int} {write : Char → String} {ls : List String} :
    firstLetters count write = .ok ls ↔
      count ≤ letterBudget ∧ ls = (letters.take count.toNat).map write := by
  unfold firstLetters
  split <;> rename_i h <;> simp [h, eq_comm]

/-- The labels of a member differ from one another. -/
theorem nodup_of_positionLabels {count : Int} {ls : List String}
    (h : positionLabels count = .ok ls) : ls.Nodup := by
  obtain ⟨-, rfl⟩ := firstLetters_eq_ok_iff.1 h
  have distinct : (letters.map String.singleton).Nodup := by decide
  rw [List.map_take]
  exact distinct.take

/-- The ordinals of the positions 1 to `count`. -/
def ordinals (count : Int) : Except Error (List String) :=
  (List.range count.toNat).mapM fun (i : Nat) => ordinal (i + 1)

/-- The tables of this module, as a caller may ask for them by a value of any type. -/
inductive Table where
  | familyName
  | cardinal
  | ordinal
  | positionLabel
  | typeParam
  | positionLabels
  | typeParams
  deriving DecidableEq, Repr

/-- A number within `lo` and `hi` must be whole to be looked up. -/
def ranged (lo hi : Int) (v : Value) (out : Error) (within : Int → Except Error String) :
    Except Error Value :=
  match v.content with
  | .float x =>
    if Decimal.intLe lo x && Decimal.leInt x hi then .error .wrongType else .error out
  | v => match v.toInt? with
    | some n => if lo ≤ n ∧ n ≤ hi then (within n).map .str else .error out
    | none => .error .wrongType

def nextArity (v : Value) : Value :=
  match v.content with
  | .float x => .float (x + 1.0)
  | v => .int (v.toInt?.getD 0 + 1)

def counted (v : Value) (f : Int → Except Error (List String)) : Except Error Value :=
  match v.toInt? with
  | some n => (f n).map fun ws => .tuple (ws.map .str)
  | none => .error .wrongType

/-- The entry of a table under a value of any type. -/
def Table.entry (t : Table) (v : Value) : Except Error Value :=
  match t with
  | .familyName =>
    if !v.hashable then .error .wrongType
    else
      let whole := match v.content with
        | .float x => Decimal.toInt? x
        | v => v.toInt?
      match whole with
      | some n => match Naming.familyName n with
        | .ok name => .ok (.str name)
        | .error _ => .error (.noFamilyName v)
      | none => .error (.noFamilyName v)
  | .cardinal => ranged 0 999 v (.noCardinal v) Naming.cardinal
  | .ordinal => ranged 1 999 v (.noOrdinal v) Naming.ordinal
  | .positionLabel => ranged 0 24 v (.noLetter v (nextArity v)) Naming.positionLabel
  | .typeParam => ranged 0 24 v (.noLetter v (nextArity v)) Naming.typeParam
  | .positionLabels => counted v Naming.positionLabels
  | .typeParams => counted v Naming.typeParams

end Polyad.Naming
