import Polyad.Machine.Context

/-!
# Items and slices

Items of sequences by position: a negative position counts from the end, and a slice takes every
step-th item between two positions, both brought into the sequence first.
-/

namespace Polyad.Machine

/-- The item at a position, which may count from the end. -/
def itemAt? {α : Type} (items : List α) (i : Int) : Option α :=
  let at' := if i < 0 then i + items.length else i
  if at' < 0 then none else items[at'.toNat]?

/-- A bound of a slice brought into a sequence of `size` items, for steps forward or backward. -/
def clampBound (size : Nat) (backward : Bool) (i : Int) : Int :=
  let least : Int := if backward then -1 else 0
  let most : Int := if backward then (size : Int) - 1 else size
  let i := if i < 0 then i + size else i
  if i < least then least else if most < i then most else i

/-- The positions from `start` on by `step`, as long as they stay before `stop`. -/
def positionsBy (start stop step : Int) : Nat → List Nat
  | 0 => []
  | n + 1 =>
    if (if 0 < step then start < stop else stop < start) then
      start.toNat :: positionsBy (start + step) stop step n
    else []

/-- The positions a slice takes from a sequence of `size` items. -/
def slicePositions (size : Nat) (start stop : Option Int) (step : Int) : List Nat :=
  let backward := step < 0
  let start := match start with
    | some i => clampBound size backward i
    | none => if backward then (size : Int) - 1 else 0
  let stop := match stop with
    | some i => clampBound size backward i
    | none => if backward then -1 else (size : Int)
  positionsBy start stop step size

/-- A bound of a slice: nothing or a whole number. -/
def sliceBound : Datum → Exec (Option Int)
  | .null => return none
  | v =>
    match v.whole? with
    | some n => return some n
    | none => throw .wrongType

/-- The positions that a slice takes, where each bound is checked in turn. -/
def slicePlaces (size : Nat) (start stop step : Datum) : Exec (List Nat) := do
  let by' := (← sliceBound step).getD 1
  if by' == 0 then throw .zeroStep
  let first ← sliceBound start
  return slicePositions size first (← sliceBound stop) by'

/-- Whether a position could be one of a sequence: it is a whole number of 64 bits. -/
def isPosition (i : Int) : Bool := Int64.minValue.toInt ≤ i && i ≤ Int64.maxValue.toInt

/-- An item of a sequence, or what is made of the items of a slice, which may be all of them in
order. -/
def sequenceItem (kind : String) (make : Bool → List Datum → Exec Datum) (items : List Datum)
    (i : Datum) : Exec Datum := do
  match i with
  | .slice start stop step =>
    let places ← slicePlaces items.length start stop step
    make (places == List.range items.length) (places.filterMap (items[·]?))
  | i =>
    match i.whole? with
    | none => throw .wrongType
    | some n =>
      if !isPosition n then throw .tooFar
      match itemAt? items n with
      | some v => return v
      | none => throw (.noItem kind)

namespace Context

variable (cx : Context)

/-- An item of a value. A slice of a tuple that takes all of it is the tuple itself. -/
def item (x i : Datum) : Exec Datum := do
  match x with
  | .tuple items _ =>
    sequenceItem "tuple" (fun whole taken => if whole then return x else Exec.tuple taken) items i
  | .list items _ => sequenceItem "list" (fun _ => Exec.list) items i
  | .text s =>
    let characters := s.toList.map fun c => Datum.text (String.singleton c)
    sequenceItem "string" (fun _ vs => return .text ("".intercalate (vs.filterMap fun
      | .text t => some t
      | _ => none))) characters i
  | .dict entries _ =>
    match ← cx.lookupEntry i entries with
    | some v => return v
    | none => throw (.noEntry (← cx.shown i))
  | .object id => cx.send id "__getitem__" [i]
  | _ => throw .wrongType

end Context
end Polyad.Machine
