import Polyad.Machine.Eval

/-!
# Supporting classes

What generated code imports: the marker, which refuses to set and delete attributes, the demand of
value identity, and the open-ended tuple, which takes any number of values. Extending that one gives
another one, with a warning.
-/

namespace Polyad.Machine

namespace Support

variable (cx : Context)

def overflowMessage : String := "Extending a TupleN creates another TupleN"

def nameOf (self : Datum) : Exec String := cx.typeName self

/-- The tuple of the values of an open-ended tuple. -/
def valueTuple (self : Datum) : Exec Datum := cx.getAttribute self valuesSlot

/-- The values of an open-ended tuple. -/
def values (self : Datum) : Exec (List Datum) := do
  match ← valueTuple cx self with
  | .tuple items _ => return items
  | _ => throw .noAttribute

/-- Whether an index lies between the first and the last value; what is no number has no place
there. -/
def checkIndex (self index : Datum) : Exec Unit := do
  let size := (← values cx self).length
  match index.number? with
  | none => throw .wrongType
  | some n =>
    let inside := !n.less (.ofInt 0) && n.less (.ofInt size)
    if !inside then throw (.noValue (← cx.plainText index) size)

/-- The value under an index, which must be of the given kind unless it is missing. -/
def getNullable (self index kind : Datum) : Exec Datum := do
  checkIndex cx self index
  let v ← cx.item (← valueTuple cx self) index
  match v, kind with
  | .null, _ => return v
  | _, .null => return v
  | _, .type name =>
    if ← cx.isInstance v name then return v
    else throw (.wrongKind (← cx.plainText index) name)
  | _, _ => throw .wrongType

def get (self index kind : Datum) : Exec Datum := do
  match ← getNullable cx self index kind with
  | .null => throw (.nothingStored (← cx.plainText index))
  | v => return v

def extend (self that : Datum) : Exec Datum := do
  Exec.warn overflowClass overflowMessage
  cx.construct openClass ((← values cx self) ++ [that])

/-- Equality of open-ended tuples: by their values, and only with one another. -/
def equalOpen (self other : Datum) : Exec Datum := do
  if self.identical other then return .bool true
  if !(← cx.isInstance other openClass) then return .notImplemented
  let mine ← valueTuple cx self
  return .bool (← cx.equal mine (← valueTuple cx other))

def runOpen (name : String) (args : List Datum) : Exec Datum := do
  match name, args with
  | "__init__", self :: vs => do
    cx.setPast self valuesSlot (← Exec.tuple vs)
    return .null
  | "size", [self] => return .int (← values cx self).length
  | "values", [self] => valueTuple cx self
  | "_check_index", [self, i] => do
    checkIndex cx self i
    return .null
  | "get_nullable", [self, i] => getNullable cx self i .null
  | "get_nullable", [self, i, kind] => getNullable cx self i kind
  | "get", [self, i] => get cx self i .null
  | "get", [self, i, kind] => get cx self i kind
  | "to", [self, that] => extend cx self that
  | "__add__", [self, that] => cx.callMethod self "to" [that]
  | "to_list", [self] => Exec.list (← values cx self)
  | "__getitem__", [self, i] => cx.item (← valueTuple cx self) i
  | "__len__", [self] => return .int (← values cx self).length
  | "__iter__", [self] => return .iterator (← values cx self)
  | "__eq__", [self, other] => equalOpen cx self other
  | "__hash__", [self] => return .digest (← cx.digest (← valueTuple cx self))
  | "__repr__", [self] => do
    return .text ("(" ++ ", ".intercalate (← cx.shownItems (← values cx self)) ++ ")")
  | "__reduce__", [self] => Exec.tuple [.type openClass, ← valueTuple cx self]
  | _, _ => throw .wrongType

def runMarker (name : String) (args : List Datum) : Exec Datum := do
  match name, args with
  | "__setattr__", [self, field, _] => throw (.cannotSet (← nameOf cx self) (← cx.shown field))
  | "__delattr__", [self, field] => throw (.cannotDelete (← nameOf cx self) (← cx.shown field))
  | _, _ => throw .wrongType

/-- The comparisons that no class defines. -/
def orderMethods : List String := ["__lt__", "__le__", "__gt__", "__ge__"]

/-- The slots of an instance that hold something, with what they hold: those of its class first. -/
def heldSlots (id : Nat) : Exec (List (String × Datum)) := do
  let i ← Exec.getInstance id
  let names := (cx.program.lineage i.className).flatMap cx.program.slotNames
  return names.filterMap fun name => (i.slot? name).map (name, ·)

/-- What an instance holds, as a part for its variables, of which it has none, and a part for its
slots. -/
def state (id : Nat) : Exec Datum := do
  let held ← heldSlots cx id
  if held.isEmpty then return .null
  let slots ← Exec.dict (held.map fun (name, v) => (.text name, v))
  Exec.tuple [.null, slots]

/-- The size of an instance: two words and one for each slot. -/
def sizeOf (id : Nat) : Exec Nat := do
  let names := (cx.program.lineage (← Context.className id)).flatMap cx.program.slotNames
  return 8 * (2 + names.length)

/-- What every class can do. -/
def runCommon (name : String) (args : List Datum) : Exec Datum := do
  match name, args with
  | "__setattr__", [self, .text field, v] => do
    cx.setPast self field v
    return .null
  | "__init__", [_] => return .null
  | "__init_subclass__", [_] => return .null
  | "__subclasshook__", _ => return .notImplemented
  | "__getattribute__", [self, .text field] => cx.getAttribute self field
  | "__getstate__", [.object id] => state cx id
  | "__sizeof__", [.object id] => return .int (← sizeOf cx id)
  | "__reduce_ex__", [self, _] => cx.callMethod self "__reduce__" []
  | "__ne__", [self, other] =>
    match ← cx.ask self other with
    | .notImplemented => return .notImplemented
    | r => return .bool !(← cx.truth r)
  | "__eq__", [self, other] =>
    return if self.identical other then .bool true else .notImplemented
  | "__hash__", [.object id] => return .digest (.identity id)
  | "__str__", [self] => return .text (← cx.shown self)
  | "__repr__", [self] => return .text (← cx.shown self)
  | "__format__", [self, .text ""] => return .text (← cx.shown self)
  | name, [_, _] => if orderMethods.contains name then return .notImplemented else throw .wrongType
  | _, _ => throw .wrongType

/-- Calls a method of a supporting class. -/
def run (owner name : String) (args : List Datum) : Exec Datum :=
  if owner == openClass then runOpen cx name args
  else if owner == markerClass then runMarker cx name args
  else if owner == "object" then runCommon cx name args
  else throw .wrongType

end Support

namespace Context

/-- Calls a routine, of which the calls inside run in `cx`. -/
def runRoutine (cx : Context) (r : Routine) (args : List Datum) : Exec Datum :=
  match r with
  | .written f => cx.runFunction f args
  | .support owner name => Support.run cx owner name args

/-- The context in which calls may stand inside each other to a depth. -/
def withDepth (p : Program) : Nat → Context
  | 0 => ⟨p, fun _ _ => throw .exhausted⟩
  | n + 1 => ⟨p, (withDepth p n).runRoutine⟩

@[simp] theorem program_withDepth (p : Program) (n : Nat) : (withDepth p n).program = p := by
  cases n <;> rfl

@[simp] theorem run_withDepth_succ (p : Program) (n : Nat) :
    (withDepth p (n + 1)).run = (withDepth p n).runRoutine := rfl

end Context
end Polyad.Machine
