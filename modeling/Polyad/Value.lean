import Polyad.Decimal.Shortest
import Polyad.Text.Quoted

/-!
# Values

What a configuration or model document holds before its fields have types. Numbers of all kinds
compare by value, so `true`, `1` and `1.0` are the same number. `shown` is the text of a value
inside another one, where strings are quoted; `text` is its text alone, where they are not.

A document can hold one collection in several places, even inside itself. Such a collection has a
label, and `within` stands for it inside of it; `bare` is the collection without its label, with the
whole of it in those places.
-/

namespace Polyad

structure Date where
  year : Nat
  month : Nat
  day : Nat
  deriving DecidableEq, Repr

/-- A date and time of day, with the distance from universal time in minutes where it is known. -/
structure Moment where
  date : Date
  hour : Nat
  minute : Nat
  second : Nat
  micros : Nat
  offset : Option Int
  deriving DecidableEq, Repr

/-- Not-a-number is no number at all, and so differs even from itself; a label makes it one thing.
These are the labels of the one that JSON texts and the one that YAML texts mean. -/
def jsonNan : Nat := 0

def yamlNan : Nat := 1

inductive Value where
  | null
  | bool (b : Bool)
  | int (n : Int)
  | float (x : Float)
  | str (s : String)
  | bytes (bs : List UInt8)
  | list (items : List Value)
  | tuple (items : List Value)
  | dict (entries : List (Value × Value))
  | set (items : List Value)
  | date (d : Date)
  | moment (m : Moment)
  /-- A value that is one and the same wherever its label stands. -/
  | named (label : Nat) (v : Value)
  /-- The value of this label, inside of it. -/
  | within (label : Nat)
  deriving Inhabited

/-- `n` with at least `width` digits. -/
def padded (width n : Nat) : String :=
  let ds := Decimal.natDigits n
  String.ofList (List.replicate (width - ds.length) '0' ++ ds)

namespace Date

/-- The days of the years before, by the rule of leap years. -/
def daysBeforeYear (y : Nat) : Nat := (y - 1) * 365 + (y - 1) / 4 - (y - 1) / 100 + (y - 1) / 400

def isLeap (y : Nat) : Bool := y % 4 == 0 && (y % 100 != 0 || y % 400 == 0)

def daysInMonth (y m : Nat) : Nat :=
  if m == 2 then (if isLeap y then 29 else 28)
  else if m == 4 || m == 6 || m == 9 || m == 11 then 30
  else 31

/-- The number of a day, counted from the first day of year 1. -/
def dayNumber (d : Date) : Nat :=
  (List.range (d.month - 1)).foldl (fun n m => n + daysInMonth d.year (m + 1))
    (daysBeforeYear d.year + d.day)

def text (d : Date) : String := s!"{padded 4 d.year}-{padded 2 d.month}-{padded 2 d.day}"

def arguments (d : Date) : String := s!"{d.year}, {d.month}, {d.day}"

end Date

namespace Moment

/-- Seconds and microseconds of a moment in its own zone. -/
def localTime (m : Moment) : Int × Nat :=
  (((m.date.dayNumber * 24 + m.hour) * 60 + m.minute) * 60 + m.second, m.micros)

/-- Whether two moments are the same instant; one of known distance is never one of unknown. -/
def same (a b : Moment) : Bool :=
  match a.offset, b.offset with
  | none, none => a == b
  | some x, some y =>
    (a.localTime.1 - x * 60, a.localTime.2) == (b.localTime.1 - y * 60, b.localTime.2)
  | _, _ => false

def offsetText (minutes : Int) : String :=
  let a := minutes.natAbs
  (if minutes < 0 then "-" else "+") ++ s!"{padded 2 (a / 60)}:{padded 2 (a % 60)}"

def text (m : Moment) : String :=
  s!"{m.date.text} {padded 2 m.hour}:{padded 2 m.minute}:{padded 2 m.second}" ++
    (if m.micros == 0 then "" else s!".{padded 6 m.micros}") ++
    (m.offset.map offsetText).getD ""

/-- A distance from universal time as days and seconds, the seconds never negative. -/
def zoneShown (minutes : Int) : String :=
  if minutes == 0 then "datetime.timezone.utc"
  else
    let days := Int.fdiv minutes 1440
    let seconds := Int.fmod minutes 1440 * 60
    let fields := (if days == 0 then [] else [s!"days={days}"]) ++
      (if seconds == 0 then [] else [s!"seconds={seconds}"])
    "datetime.timezone(datetime.timedelta(" ++ ", ".intercalate fields ++ "))"

def shown (m : Moment) : String :=
  let seconds := if m.second == 0 && m.micros == 0 then "" else s!", {m.second}"
  let micros := if m.micros == 0 then "" else s!", {m.micros}"
  let zone := (m.offset.map fun o => s!", tzinfo={zoneShown o}").getD ""
  s!"datetime.datetime({m.date.arguments}, {m.hour}, {m.minute}{seconds}{micros}{zone})"

end Moment

def boolText (b : Bool) : String := if b then "True" else "False"

/-- The text of a byte between quotes of the kind `quote`. -/
def quotedByte (quote : Char) (b : UInt8) : List Char :=
  let c := Char.ofNat b.toNat
  if c == quote || c == '\\' then ['\\', c]
  else if c == '\t' then ['\\', 't']
  else if c == '\n' then ['\\', 'n']
  else if c == '\r' then ['\\', 'r']
  else if 32 ≤ b && b < 127 then [c]
  else '\\' :: 'x' :: Text.hexDigits 2 b.toNat

def quotedBytes (bs : List UInt8) : String :=
  let q := Text.quoteFor (bs.map fun b => Char.ofNat b.toNat)
  String.ofList ('b' :: q :: bs.flatMap (quotedByte q) ++ [q])

/-- Items between brackets; a lone item of a tuple is followed by a comma. -/
def tupleText (items : List String) : String :=
  match items with
  | [x] => s!"({x},)"
  | xs => "(" ++ ", ".intercalate xs ++ ")"

def listText (items : List String) : String := "[" ++ ", ".intercalate items ++ "]"

def dictText (entries : List String) : String :=
  "\x7b" ++ ", ".intercalate entries ++ "\x7d"

namespace Value

/-- The value without its label; what is inside of it is left as it is. -/
def content : Value → Value
  | named _ v => content v
  | v => v

def label? : Value → Option Nat
  | named l _ => some l
  | _ => none

mutual

/-- A value with `whole` in the places that stand for the label. -/
def plug (label : Nat) (whole : Value) : Value → Value
  | within l => if l == label then whole else within l
  | named l v => if l == label then named l v else named l (plug label whole v)
  | list items => list (plugList label whole items)
  | tuple items => tuple (plugList label whole items)
  | set items => set (plugList label whole items)
  | dict entries => dict (plugEntries label whole entries)
  | v => v

def plugList (label : Nat) (whole : Value) : List Value → List Value
  | [] => []
  | v :: vs => plug label whole v :: plugList label whole vs

def plugEntries (label : Nat) (whole : Value) : List (Value × Value) → List (Value × Value)
  | [] => []
  | (k, v) :: rest => (plug label whole k, plug label whole v) :: plugEntries label whole rest

end

/-- The value without its label, and the whole of it in the places inside that stand for it. -/
def bare : Value → Value
  | named l v => plug l (named l v) v
  | v => v

/-- What is written for a collection inside of itself. -/
def ellipsis : Value → String
  | list _ => "[...]"
  | tuple _ => "(...)"
  | dict _ => "\x7b...\x7d"
  | set _ => "set(...)"
  | _ => "..."

mutual

/-- The text of a value inside others; the labels of those are given with what stands for them. -/
def shownIn (around : List (Nat × String)) : Value → String
  | null => "None"
  | bool b => boolText b
  | int n => toString n
  | float x => Decimal.format x
  | str s => Text.quoted s
  | bytes bs => quotedBytes bs
  | list items => listText (shownList around items)
  | tuple items => tupleText (shownList around items)
  | dict entries => dictText (shownEntries around entries)
  | set [] => "set()"
  | set items => dictText (shownList around items)
  | date d => s!"datetime.date({d.arguments})"
  | moment m => m.shown
  | named l v =>
    match around.lookup l with
    | some short => short
    | none => shownIn ((l, ellipsis v) :: around) v
  | within l => (around.lookup l).getD "..."

def shownList (around : List (Nat × String)) : List Value → List String
  | [] => []
  | v :: vs => shownIn around v :: shownList around vs

def shownEntries (around : List (Nat × String)) : List (Value × Value) → List String
  | [] => []
  | (k, v) :: rest => s!"{shownIn around k}: {shownIn around v}" :: shownEntries around rest

end

/-- The text of a value inside another one. -/
def shown (v : Value) : String := v.shownIn []

/-- The text of a value that stands alone. -/
def text (v : Value) : String :=
  match v.content with
  | str s => s
  | date d => d.text
  | moment m => m.text
  | _ => v.shown

def typeName (v : Value) : String :=
  match v.content with
  | null => "NoneType"
  | bool _ => "bool"
  | int _ => "int"
  | float _ => "float"
  | str _ => "str"
  | bytes _ => "bytes"
  | list _ => "list"
  | tuple _ => "tuple"
  | dict _ => "dict"
  | set _ => "set"
  | date _ => "date"
  | moment _ => "datetime"
  | _ => ""

/-- Whether a value counts as present: zeros, empty texts and empty collections do not. -/
def truthy (v : Value) : Bool :=
  match v.content with
  | null => false
  | bool b => b
  | int n => n != 0
  | float x => x != 0.0
  | str s => s != ""
  | bytes bs => !bs.isEmpty
  | list items => !items.isEmpty
  | tuple items => !items.isEmpty
  | dict entries => !entries.isEmpty
  | set items => !items.isEmpty
  | _ => true

/-- How many characters, bytes, items or entries a value has, if it has such parts. -/
def size? (v : Value) : Option Nat :=
  match v.content with
  | str s => some s.length
  | bytes bs => some bs.length
  | list items => some items.length
  | tuple items => some items.length
  | dict entries => some entries.length
  | set items => some items.length
  | _ => none

/-- The whole number a value is, truth values counting as 0 and 1. -/
def toInt? : Value → Option Int
  | bool b => some (if b then 1 else 0)
  | int n => some n
  | _ => none

def toFloat? (v : Value) : Option Float :=
  match v.content with
  | float x => some x
  | _ => none

def isNumber (v : Value) : Bool := v.toInt?.isSome || v.toFloat?.isSome

/-- Whether one number is less than another; nothing else can be compared. -/
def less? (a b : Value) : Option Bool :=
  match a.toFloat?, b.toFloat?, a.toInt?, b.toInt? with
  | some x, some y, _, _ => some (decide (x < y))
  | some x, _, _, some n => some (!x.isNaN && !Decimal.intLe n x)
  | _, some y, some m, _ => some (!y.isNaN && !Decimal.leInt y m)
  | _, _, some m, some n => some (decide (m < n))
  | _, _, _, _ => none

/-- Whether a number is twice a whole one. -/
def isEven (v : Value) : Bool :=
  match v.toInt?.or (v.toFloat?.bind Decimal.toInt?) with
  | some n => n % 2 == 0
  | none => false

/-- Equality of numbers by value; not-a-number differs from everything. -/
def sameNumber (a b : Value) : Bool :=
  match a, b with
  | float x, float y => x == y
  | float x, w => w.toInt?.isSome && Decimal.toInt? x == w.toInt?
  | w, float y => w.toInt?.isSome && Decimal.toInt? y == w.toInt?
  | v, w => v.toInt?.isSome && v.toInt? == w.toInt?

mutual

/-- Equality of a value and one that has the given label and content. -/
def sameAs : Value → Option Nat → Value → Bool
  | named l v, m, w => (m == some l && v.toFloat?.isSome) || sameAs v m w
  | within _, _, within _ => true
  | null, _, null => true
  | str a, _, str b => a == b
  | bytes a, _, bytes b => a == b
  | list a, _, list b => sameList a b
  | tuple a, _, tuple b => sameList a b
  | dict a, _, dict b => a.length == b.length && subEntries a b
  | set a, _, set b => a.length == b.length && subItems a b
  | date a, _, date b => a == b
  | moment a, _, moment b => a.same b
  | a, _, b => sameNumber a b

def sameList : List Value → List Value → Bool
  | [], [] => true
  | v :: vs, w :: ws => sameAs v w.label? w.content && sameList vs ws
  | _, _ => false

def subEntries : List (Value × Value) → List (Value × Value) → Bool
  | [], _ => true
  | (k, v) :: rest, other =>
    other.any (fun (k', v') =>
      sameAs k k'.label? k'.content && sameAs v v'.label? v'.content) && subEntries rest other

def subItems : List Value → List Value → Bool
  | [], _ => true
  | v :: vs, other => other.any (fun w => sameAs v w.label? w.content) && subItems vs other

end

/-- Equality by value, whatever the order of the entries of a mapping; a number of one label is one,
even if it is none. -/
def same (v w : Value) : Bool := v.sameAs w.label? w.content

mutual

/-- Whether a value can be a key: collections that could change cannot. -/
def hashable : Value → Bool
  | list _ => false
  | dict _ => false
  | set _ => false
  | tuple items => allHashable items
  | named _ v => hashable v
  | within _ => false
  | _ => true

def allHashable : List Value → Bool
  | [] => true
  | v :: vs => hashable v && allHashable vs

end

/-- Whole numbers of more than 4300 digits are not written out. -/
def widestWhole : Nat := Nat.pow 10 4300

mutual

/-- Whether a value has a text: none of its whole numbers has too many digits. -/
def hasText : Value → Bool
  | int n => n.natAbs < widestWhole
  | list items => allHaveText items
  | tuple items => allHaveText items
  | set items => allHaveText items
  | dict entries => entriesHaveText entries
  | named _ v => hasText v
  | _ => true

def allHaveText : List Value → Bool
  | [] => true
  | v :: vs => hasText v && allHaveText vs

def entriesHaveText : List (Value × Value) → Bool
  | [] => true
  | (k, v) :: rest => hasText k && hasText v && entriesHaveText rest

end

/-- The items met when a value is gone through: the characters of a text, the keys of a mapping. -/
def items? (v : Value) : Option (List Value) :=
  match v.bare with
  | str s => some (s.toList.map fun c => .str (String.singleton c))
  | bytes bs => some (bs.map fun b => .int b.toNat)
  | list items => some items
  | tuple items => some items
  | dict entries => some (entries.map Prod.fst)
  | set items => some items
  | _ => none

/-- The value under a key, by equality of keys. -/
def lookup (key : Value) : List (Value × Value) → Option Value
  | [] => none
  | (k, v) :: rest => if key.same k then some v else lookup key rest

mutual

/-- Whether telling a value and one of the given content apart never ends: both hold themselves, and
nothing met before that is different. -/
def endlessAs : Value → Value → Bool
  | named _ v, w => endlessAs v w
  | within _, within _ => true
  | list a, list b => a.length == b.length && endlessList a b
  | tuple a, tuple b => endlessList a b
  | dict a, dict b => a.length == b.length && endlessEntries a b
  | _, _ => false

def endlessList : List Value → List Value → Bool
  | v :: vs, w :: ws => endlessAs v w.content || (v.same w && endlessList vs ws)
  | _, _ => false

def endlessEntries : List (Value × Value) → List (Value × Value) → Bool
  | [], _ => false
  | (k, v) :: rest, other =>
    match lookup k other with
    | some w => endlessAs v w.content || (v.same w && endlessEntries rest other)
    | none => false

end

/-- Whether telling two values apart never ends. -/
def endless (v w : Value) : Bool := v.endlessAs w.content

/-- Whether every value in the list differs from the ones before it. -/
def distinct : List Value → Bool
  | [] => true
  | v :: vs => !vs.any (v.same ·) && distinct vs

/-- An entry put under a key: the first key and the last value stay. -/
def insertEntry (key value : Value) : List (Value × Value) → List (Value × Value)
  | [] => [(key, value)]
  | (k, v) :: rest =>
    if k.same key then (k, value) :: rest else (k, v) :: insertEntry key value rest

@[simp] theorem same_int (a b : Int) : same (.int a) (.int b) = (a == b) := by
  simp [same, label?, content, sameAs, sameNumber, toInt?]

@[simp] theorem same_str (a b : String) : same (.str a) (.str b) = (a == b) := by
  simp [same, label?, content, sameAs]

@[simp] theorem text_int (n : Int) : text (.int n) = toString n := by
  simp [text, content, shown, shownIn]

@[simp] theorem text_str (s : String) : text (.str s) = s := rfl

@[simp] theorem hasText_str (s : String) : hasText (.str s) = true := by simp only [hasText]

end Value
end Polyad
