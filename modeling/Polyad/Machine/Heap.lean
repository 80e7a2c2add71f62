import Polyad.Machine.Fault

/-!
# The heap

The instances of classes by number, each with what its slots hold, and the warnings given so far.
Instances are never taken off the heap, so the number of a new one is the count of the others.
-/

namespace Polyad.Machine

structure Instance where
  className : String
  slots : List (String × Datum) := []
  deriving Inhabited

structure Warning where
  category : String
  message : String
  deriving DecidableEq, Repr

structure Heap where
  instances : List Instance := []
  /-- The next label of a number or a collection; the first one is that of all constants. -/
  labels : Nat := 1
  /-- Latest last. -/
  warnings : List Warning := []

/-- Running code: what happened before a fault stays. -/
abbrev Exec (α : Type) := ExceptT Fault (StateM Heap) α

namespace Instance

/-- What a slot holds, if it was ever set. -/
def slot? (i : Instance) (name : String) : Option Datum := i.slots.lookup name

def setSlot (i : Instance) (name : String) (v : Datum) : Instance :=
  { i with slots := (name, v) :: i.slots.filter (·.1 != name) }

@[simp] theorem slot?_setSlot_self (i : Instance) (name : String) (v : Datum) :
    (i.setSlot name v).slot? name = some v := by
  simp [slot?, setSlot]

end Instance

namespace Heap

def get? (h : Heap) (id : Nat) : Option Instance := h.instances[id]?

def push (h : Heap) (i : Instance) : Heap := { h with instances := h.instances ++ [i] }

def modify (h : Heap) (id : Nat) (f : Instance → Instance) : Heap :=
  { h with instances := h.instances.modify id f }

@[simp] theorem get?_push_self (h : Heap) (i : Instance) :
    (h.push i).get? h.instances.length = some i := by
  simp [get?, push]

theorem get?_push_of_lt {h : Heap} {id : Nat} (lt : id < h.instances.length) (i : Instance) :
    (h.push i).get? id = h.get? id := by
  simp [get?, push, List.getElem?_append_left lt]

theorem get?_modify_of_ne {h : Heap} {id other : Nat} (ne : id ≠ other)
    (f : Instance → Instance) : (h.modify id f).get? other = h.get? other := by
  simp [get?, modify, ne]

@[simp] theorem get?_modify_self (h : Heap) (id : Nat) (f : Instance → Instance) :
    (h.modify id f).get? id = (h.get? id).map f := by
  simp [get?, modify]

end Heap

namespace Exec

/-- A new instance without anything in its slots. -/
def allocate (className : String) : Exec Nat := fun h =>
  (.ok h.instances.length, h.push { className })

def instance? (id : Nat) : Exec (Option Instance) := fun h => (.ok (h.get? id), h)

/-- An instance, which must be on the heap. -/
def getInstance (id : Nat) : Exec Instance := do
  match ← instance? id with
  | some i => return i
  | none => throw .noAttribute

def setSlot (id : Nat) (name : String) (v : Datum) : Exec Unit := fun h =>
  (.ok (), h.modify id (·.setSlot name v))

def getSlot (id : Nat) (name : String) : Exec Datum := do
  match (← getInstance id).slot? name with
  | some v => return v
  | none => throw .noAttribute

/-- A label that nothing has got yet. -/
def label : Exec Nat := fun h => (.ok h.labels, { h with labels := h.labels + 1 })

/-- A floating point number told apart from all others. -/
def float (x : Float) : Exec Datum := do return .float x (← label)

/-- A new list. -/
def list (items : List Datum) : Exec Datum := do return .list items (← label)

/-- A new tuple; there is only one without items. -/
def tuple (items : List Datum) : Exec Datum :=
  if items.isEmpty then return .tuple [] 0 else do return .tuple items (← label)

/-- A new mapping. -/
def dict (entries : List (Datum × Datum)) : Exec Datum := do return .dict entries (← label)

def warn (category message : String) : Exec Unit := fun h =>
  (.ok (), { h with warnings := h.warnings ++ [⟨category, message⟩] })

/-! ## Steps in a row -/

theorem bind_ok {α β : Type} {m : Exec α} {f : α → Exec β} {h h' : Heap} {a : α}
    (step : m h = (.ok a, h')) : (m >>= f) h = f a h' := by
  show (ExceptT.bindCont f (m h).1) (m h).2 = f a h'
  rw [step]
  rfl

theorem bind_error {α β : Type} {m : Exec α} {f : α → Exec β} {h h' : Heap} {e : Fault}
    (step : m h = (.error e, h')) : (m >>= f) h = (.error e, h') := by
  show (ExceptT.bindCont f (m h).1) (m h).2 = _
  rw [step]
  rfl

theorem getInstance_eq_ok {h : Heap} {id : Nat} {i : Instance} (found : h.get? id = some i) :
    getInstance id h = (.ok i, h) := by
  have step : instance? id h = (.ok (some i), h) := by rw [instance?, found]
  exact bind_ok step

/-- The first item that passes. -/
def find? {α : Type} (test : α → Exec Bool) : List α → Exec (Option α)
  | [] => return none
  | x :: xs => do if ← test x then return some x else find? test xs

end Exec
end Polyad.Machine
