import Polyad.Machine.Item

/-!
# Attributes and calls

Reading, setting and deleting attributes, making instances, and calling whatever can be called. A
new instance is on the heap before its initialiser runs, with nothing in its slots.
-/

namespace Polyad.Machine

namespace Context

variable (cx : Context)

/-! ## Attributes -/

/-- What an attribute of an instance holds. -/
def readAttribute (id : Nat) : Attribute → Exec Datum
  | .slot name => Exec.getSlot id name
  | .property r => cx.run r [.object id]
  | .method r => return .method (.object id) r
  | .value v => return v

/-- An attribute of a class itself. -/
def typeAttribute (name field : String) : Exec Datum := do
  if field == "__name__" then return .text name
  match cx.program.find? name field with
  | some (.method r) => return .routine r
  | some (.value v) => return v
  | _ => throw .noAttribute

def getAttribute (x : Datum) (field : String) : Exec Datum := do
  match x with
  | .object id =>
    match cx.program.find? (← className id) field with
    | some a => cx.readAttribute id a
    | none => throw .noAttribute
  | .type name => cx.typeAttribute name field
  | .builtin .warnings => if field == "warn" then return .builtin .warn else throw .noAttribute
  | _ => throw .noAttribute

/-- Whether reading an attribute succeeds. -/
def hasAttribute (x : Datum) (field : String) : Exec Bool :=
  tryCatch (do let _ ← cx.getAttribute x field; return true) fun
    | .noAttribute => return false
    | e => throw e

def setAttribute (x : Datum) (field : String) (v : Datum) : Exec Unit := do
  match x with
  | .object id => let _ ← cx.send id "__setattr__" [.text field, v]
  | _ => throw .noAttribute

def deleteAttribute (x : Datum) (field : String) : Exec Unit := do
  match x with
  | .object id => let _ ← cx.send id "__delattr__" [.text field]
  | _ => throw .noAttribute

/-- Sets a slot of an instance past its class, which must declare it. -/
def setPast (x : Datum) (field : String) (v : Datum) : Exec Unit := do
  match x with
  | .object id =>
    match cx.program.find? (← className id) field with
    | some (.slot name) => Exec.setSlot id name v
    | _ => throw .noAttribute
  | _ => throw .noAttribute

/-! ## Instances -/

/-- Makes an instance of a class. -/
def construct (name : String) (args : List Datum) : Exec Datum := do
  if !cx.program.isConcrete name then throw .wrongType
  let id ← Exec.allocate name
  match ← cx.special? id "__init__" with
  | some r =>
    let _ ← cx.run r (.object id :: args)
    return .object id
  | none => if args.isEmpty then return .object id else throw .wrongType

/-! ## Operators -/

/-- The floating point number nearest to a whole one. -/
def floatOfInt (n : Int) : Exec Float := do
  let x := Decimal.toFloat n.natAbs 0
  if x.isInf then throw .tooLarge
  return if n < 0 then -x else x

def floatOf : Datum → Exec Float
  | .float x _ => return x
  | v =>
    match v.whole? with
    | some n => floatOfInt n
    | none => throw .wrongType

def add (x y : Datum) : Exec Datum := do
  match x, y with
  | .object id, y =>
    match ← cx.special? id "__add__" with
    | some r => cx.run r [x, y]
    | none => throw .wrongType
  | .text a, .text b => return .text (a ++ b)
  | .list a _, .list b _ => Exec.list (a ++ b)
  | .tuple a _, .tuple b _ =>
    if a.isEmpty then return y else if b.isEmpty then return x else Exec.tuple (a ++ b)
  | x, y =>
    match x.whole?, y.whole? with
    | some a, some b => return .int (a + b)
    | _, _ =>
      if x.number?.isNone || y.number?.isNone then throw .wrongType
      Exec.float ((← floatOf x) + (← floatOf y))

mutual

/-- The order of values; only some can be put in order. -/
def less : Datum → Datum → Exec Bool
  | .text a, .text b => return a < b
  | .list xs _, .list ys _ => lessItems xs ys
  | .tuple xs _, .tuple ys _ => lessItems xs ys
  | x, y =>
    match x.number?, y.number? with
    | some a, some b => return a.less b
    | _, _ => throw .wrongType

/-- The order of lists is that of the first two items that differ, or else of the lengths. -/
def lessItems : List Datum → List Datum → Exec Bool
  | [], ys => return !ys.isEmpty
  | _ :: _, [] => return false
  | x :: xs, y :: ys => do
    if ← cx.same x y then lessItems xs ys else less x y

end

/-- Whether each item is less than the one after it. -/
def ascending : List Datum → Exec Bool
  | x :: y :: rest => do
    if ← cx.less x y then ascending (y :: rest) else return false
  | _ => return true

/-! ## Calls -/

/-- Calls the function of the file under a name. -/
def callNamed (name : String) (args : List Datum) : Exec Datum := do
  match cx.program.lookup name with
  | some (.routine r) => cx.run r args
  | _ => throw (.unknownName name)

def callCallback (c : Callback) (extra args : List Datum) : Exec Datum := do
  match c, args with
  | .args, _ => Exec.tuple args
  | .count, _ => return .int args.length
  | .const, _ => return extra.head?.getD .null
  | .reverse, _ => cx.callNamed "tuple_of" args.reverse
  | .ascending, _ => return .bool (← cx.ascending args)
  | .sum, x :: rest => rest.foldlM cx.add x
  | .first, x :: _ => return x
  | .last, x :: rest => return rest.getLast?.getD x
  | .noArgs, [] => return .null
  | _, _ => throw .wrongType

def callBuiltin (b : Builtin) (args : List Datum) : Exec Datum := do
  match b, args with
  | .bool, [] => return .bool false
  | .bool, [x] => return .bool (← cx.truth x)
  | .hash, [x] => return .digest (← cx.digest x)
  | .isinstance, [x, .type name] => return .bool (← cx.isInstance x name)
  | .iter, [x] => return .iterator (← cx.iterate x)
  | .len, [x] => return .int (← cx.length x)
  | .type, [x] => return .type (← cx.typeName x)
  | .unsupported, [x] => return .failure (← cx.plainText x)
  | .warn, [message, .type category] => do
    Exec.warn category (← cx.plainText message)
    return .null
  | _, _ => throw .wrongType

def call (f : Datum) (args : List Datum) : Exec Datum :=
  match f with
  | .routine r => cx.run r args
  | .method self r => cx.run r (self :: args)
  | .type name => cx.construct name args
  | .builtin b => cx.callBuiltin b args
  | .callback c extra => cx.callCallback c extra args
  | _ => throw .wrongType

/-- Calls a method of a value by its name. -/
def callMethod (x : Datum) (name : String) (args : List Datum) : Exec Datum := do
  cx.call (← cx.getAttribute x name) args

end Context
end Polyad.Machine
