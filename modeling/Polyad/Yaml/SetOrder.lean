import Polyad.Number
import Polyad.Value

/-!
# The order of a set

A set lists its members by the slots of a table. The code of a member is the first slot tried for
it; slots in use are passed over, a row at a time, and each new row is found from the last one and
what is left of the code. Numbers and what is empty have codes that can be known; a set that holds
anything else keeps the order in which its members were given.
-/

namespace Polyad.Yaml

/-- The code under which a set files a member. -/
def code? (v : Value) : Option Int :=
  match v.content with
  | .bool b => some (if b then 1 else 0)
  | .int n => (Number.ofInt n).code?
  | .float x => (Number.ofFloat x).code?
  | .str "" => some 0
  | .bytes [] => some 0
  | _ => none

/-- The slots for `count` members: eight while few are in use, and a power of two that leaves more
than half of them free. -/
def slotCount (count : Nat) : Nat :=
  if count < 5 then 8 else Decimal.twoTo ((2 * count).log2 + 1)

/-- The slots tried at a place: ten in a row, or one where the table ends before that. -/
def rowAt (slots place : Nat) : List Nat :=
  (List.range (if place + 9 < slots then 10 else 1)).map (place + ·)

/-- The first free slot found from a place on, where `rest` is what is left of the code. Once
nothing is left, the places go through the whole table. -/
def freeSlot (slots : Nat) (free : Nat → Bool) : Nat → Nat → Nat → Nat
  | 0, place, _ => place
  | fuel + 1, place, rest =>
    match (rowAt slots place).find? free with
    | some slot => slot
    | none =>
      let rest := rest / 32
      freeSlot slots free fuel ((place * 5 + 1 + rest) % slots) rest

/-- A code as a natural number of 64 bits. -/
def wordOf (code : Int) : Nat := (Int64.ofInt code).toUInt64.toNat

/-- What is filed under codes, in the order of the slots. A code is used up after thirteen rows. -/
def inSlots {α : Type} (members : List (Int × α)) : List α :=
  let slots := slotCount members.length
  let table := members.foldl (fun (table : Array (Option α)) (code, x) =>
    let word := wordOf code
    let slot := freeSlot slots (fun i => (table[i]?).join.isNone) (slots + 13) (word % slots) word
    table.set! slot (some x)) (Array.replicate slots none)
  table.toList.filterMap id

/-- What the members of a set stand for, in the order of the set. -/
def setOrder {α : Type} (members : List (Value × α)) : List α :=
  match members.mapM fun (v, x) => (code? v).map (·, x) with
  | some coded => inSlots coded
  | none => members.map Prod.snd

end Polyad.Yaml
