import Polyad.Machine.Support

/-!
# Copying

Three ways to make an instance again from what it says about its reconstruction: the name of a value
of the file, or a class and the arguments it was made with. A plain copy takes the arguments as they
are, a deep copy copies them too, and a pickled instance is made from what was written down. What
occurs twice is made once. A deep copy keeps what cannot change: a tuple whose items stay the same
is not made again. Only pickling insists that the value of the file is the very instance, and only
it loses the identity of tuples and of floating point numbers.
-/

namespace Polyad.Machine

/-- What an instance says about its reconstruction. -/
inductive Recipe where
  | named (name : String)
  /-- A class and the tuple of its arguments, with the label of that tuple. -/
  | made (className : String) (args : List Datum) (label : Nat)

/-- What was made so far, by the numbers of the instances and by the labels of the collections that
it was made from. -/
structure Made where
  instances : List (Nat × Datum) := []
  collections : List (Nat × Datum) := []

abbrev Copying (α : Type) := StateT Made Exec α

inductive CopyKind where
  | deep
  | pickled
  deriving DecidableEq, Repr

namespace Copying

/-- Notes what a collection was made into. -/
def keep (label : Nat) (v : Datum) : Copying Datum := do
  modify fun m => { m with collections := (label, v) :: m.collections }
  return v

/-- What was made of a collection before, or else what is made of it now. -/
def once (label : Nat) (make : Copying Datum) : Copying Datum := do
  match (← get).collections.lookup label with
  | some v => return v
  | none => make

/-- A tuple of the items made again, which a deep copy needs only if they are not the old ones. -/
def tuple (kind : CopyKind) (old new : List Datum) (label : Nat) : Copying Datum := do
  if old.isEmpty || (kind == .deep && Datum.identicalAll old new) then return .tuple old label
  let v ← Exec.tuple new
  if label == 0 then return v else keep label v

end Copying

namespace Context

variable (cx : Context)

/-- What an instance says, or its class alone if it says nothing. -/
def recipe (id : Nat) : Exec Recipe := do
  match ← cx.special? id "__reduce__" with
  | none => return .made (← className id) [] 0
  | some r =>
    match ← cx.run r [.object id] with
    | .text name => return .named name
    | .tuple [.type name, .tuple args label] _ => return .made name args label
    | _ => throw .notReconstructible

/-- Makes an instance of the same class from the same values, or a collection of the same items;
what cannot change stays as it is. -/
def copy (x : Datum) : Exec Datum := do
  match x with
  | .object id =>
    match ← cx.recipe id with
    | .named _ => return x
    | .made name args _ => cx.construct name args
  | .list items _ => Exec.list items
  | .dict entries _ => Exec.dict entries
  | x => return x

/-- The value of the file that an instance says it is. -/
def namedInstance (kind : CopyKind) (id : Nat) (name : String) : Exec Datum := do
  match kind with
  | .deep => return .object id
  | .pickled =>
    match cx.program.lookup name with
    | some v => if v.identical (.object id) then return v else throw .notReconstructible
    | none => throw .notReconstructible

mutual

/-- A value made again, where `again` makes the instances in it again. -/
def remakeValue (kind : CopyKind) (again : Nat → Copying Datum) : Datum → Copying Datum
  | .object id => again id
  | .float x label =>
    match kind with
    | .deep => return .float x label
    | .pickled => Exec.float x
  | .list items label => .once label do
    let items ← remakeValues kind again items
    .keep label (← Exec.list items)
  | .tuple items label => .once label do
    .tuple kind items (← remakeValues kind again items) label
  | .dict entries label => .once label do
    let entries ← remakeEntries kind again entries
    .keep label (← Exec.dict entries)
  | v => return v

def remakeValues (kind : CopyKind) (again : Nat → Copying Datum) :
    List Datum → Copying (List Datum)
  | [] => return []
  | x :: xs => do
    let v ← remakeValue kind again x
    return v :: (← remakeValues kind again xs)

def remakeEntries (kind : CopyKind) (again : Nat → Copying Datum) :
    List (Datum × Datum) → Copying (List (Datum × Datum))
  | [] => return []
  | (k, v) :: rest => do
    let k' ← remakeValue kind again k
    let v' ← remakeValue kind again v
    return (k', v') :: (← remakeEntries kind again rest)

end

/-- The arguments of an instance made again; pickling writes the tuple of them down as a whole. -/
def remakeArguments (kind : CopyKind) (again : Nat → Copying Datum) (args : List Datum)
    (label : Nat) : Copying (List Datum) := do
  match kind with
  | .deep => remakeValues kind again args
  | .pickled =>
    match ← remakeValue kind again (.tuple args label) with
    | .tuple made _ => return made
    | _ => throw .notReconstructible

/-- Makes an instance again; instances may hold each other to a depth. -/
def remakeInstance (kind : CopyKind) : Nat → Nat → Copying Datum
  | 0, _ => throw .exhausted
  | depth + 1, id => do
    if let some v := (← get).instances.lookup id then return v
    match ← cx.recipe id with
    | .named name => cx.namedInstance kind id name
    | .made name args label =>
      let args ← remakeArguments kind (remakeInstance kind depth) args label
      let v ← cx.construct name args
      modify fun m => { m with instances := (id, v) :: m.instances }
      return v

/-- Makes a value again down to a depth of instances inside each other. -/
def remake (kind : CopyKind) (depth : Nat) (x : Datum) : Exec Datum := do
  return (← (remakeValue kind (cx.remakeInstance kind depth) x).run {}).1

end Context
end Polyad.Machine
