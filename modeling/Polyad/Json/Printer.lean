import Polyad.Error

/-!
# JSON texts

The one-line JSON text of a value. Keys are sorted, items are set off by a comma and a blank, and
everything outside printable ASCII is written as an escape, characters beyond the basic plane as a
pair of them.
-/

namespace Polyad.Json

def unitEscape (n : Nat) : List Char := '\\' :: 'u' :: Text.hexDigits 4 n

/-- The escape of a character: one code unit, or two beyond the basic plane. -/
def charEscape (c : Char) : List Char :=
  let n := c.toNat
  if n < 0x10000 then unitEscape n
  else unitEscape (0xd800 + (n - 0x10000) / 0x400) ++ unitEscape (0xdc00 + (n - 0x10000) % 0x400)

def encodeChar (c : Char) : List Char :=
  if c == '"' then ['\\', '"']
  else if c == '\\' then ['\\', '\\']
  else if c == '\n' then ['\\', 'n']
  else if c == '\r' then ['\\', 'r']
  else if c == '\t' then ['\\', 't']
  else if c == '\x0c' then ['\\', 'f']
  else if c == '\x08' then ['\\', 'b']
  else if 32 ≤ c.toNat && c.toNat < 127 then [c]
  else charEscape c

def encodeChars (cs : List Char) : List Char := '"' :: cs.flatMap encodeChar ++ ['"']

def encodeString (s : String) : String := String.ofList (encodeChars s.toList)

def floatText (x : Float) : String :=
  match Decimal.classify x with
  | .nan => "NaN"
  | .infinite negative => if negative then "-Infinity" else "Infinity"
  | .finite _ => Decimal.format x

/-- The digits of a whole number, if it has not too many. -/
def wholeText (n : Int) : Except Error String :=
  if (Value.int n).hasText then .ok (toString n) else .error .unwritable

/-- A key as text; numbers, truth values and null may be keys. -/
def keyText (v : Value) : Except Error String :=
  match v.content with
  | .str s => .ok s
  | .float x => .ok (floatText x)
  | .bool b => .ok (if b then "true" else "false")
  | .null => .ok "null"
  | .int n => wholeText n
  | _ => .error .wrongType

/-- Whether two keys of one kind are in order. -/
def keyLe (v w : Value) : Bool :=
  match v.content, w.content with
  | .str a, .str b => a ≤ b
  | .float x, .float y => x ≤ y
  | .float x, w => Decimal.leInt x (w.toInt?.getD 0)
  | v, .float y => Decimal.intLe (v.toInt?.getD 0) y
  | v, w => v.toInt?.getD 0 ≤ w.toInt?.getD 0

/-- Keys can be sorted when there is only one, or all are texts, or all are numbers. -/
def sortable (keys : List Value) : Bool :=
  keys.length ≤ 1 || keys.all (fun | .str _ => true | _ => false) || keys.all Value.isNumber

/-- The text of a mapping; its fields are made in the order in which they stand. -/
def object (entries : List (Value × Except Error String)) : Except Error String :=
  if sortable (entries.map Prod.fst) then do
    let sorted := entries.mergeSort fun a b => keyLe a.1 b.1
    let fields ← sorted.mapM fun (k, v) => do
      let name := encodeString (← keyText k)
      return name ++ ": " ++ (← v)
    return dictText fields
  else .error .wrongType

mutual

/-- The text of a value; bytes, sets and dates have none, nor has a collection that holds itself. -/
def render : Value → Except Error String
  | .null => .ok "null"
  | .bool b => .ok (if b then "true" else "false")
  | .int n => wholeText n
  | .float x => .ok (floatText x)
  | .str s => .ok (encodeString s)
  | .list items => (renderList items).map listText
  | .tuple items => (renderList items).map listText
  | .dict entries => object (renderEntries entries)
  | .named _ v => render v
  | .within _ => .error (.badValue "Circular reference detected")
  | _ => .error .wrongType

def renderList : List Value → Except Error (List String)
  | [] => .ok []
  | v :: vs => do
    let t ← render v
    let ts ← renderList vs
    return t :: ts

def renderEntries : List (Value × Value) → List (Value × Except Error String)
  | [] => []
  | (k, v) :: rest => (k, render v) :: renderEntries rest

end

end Polyad.Json
