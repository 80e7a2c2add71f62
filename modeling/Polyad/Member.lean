import Polyad.Naming

/-!
# Members

One member of a tuple family: how many values it holds and the names it is written with. A member is
consistent when it has one label, one type parameter and one ordinal for each position and no label
twice. `Shape` is the part of a member these rules look at; it is shared with member documents whose
fields have no types yet.
-/

namespace Polyad

/-- Optional operations of a member. -/
inductive Capability where
  | pairInterop
  | tripleInterop
  | listProjection
  | mapProjection
  | zip
  | chainExtension
  deriving DecidableEq, Repr

namespace Capability

def name : Capability → String
  | pairInterop => "pair_interop"
  | tripleInterop => "triple_interop"
  | listProjection => "list_projection"
  | mapProjection => "map_projection"
  | zip => "zip"
  | chainExtension => "chain_extension"

/-- All capabilities, by name. -/
def all : List Capability :=
  [chainExtension, listProjection, mapProjection, pairInterop, tripleInterop, zip]

def ofName? (s : String) : Option Capability := all.find? (·.name == s)

theorem mem_all (c : Capability) : c ∈ all := by cases c <;> decide

theorem ofName?_name (c : Capability) : ofName? c.name = some c := by cases c <;> decide

end Capability

/-- A set of capabilities. -/
structure Capabilities where
  pairInterop : Bool := false
  tripleInterop : Bool := false
  listProjection : Bool := false
  mapProjection : Bool := false
  zip : Bool := false
  chainExtension : Bool := false
  deriving DecidableEq, Repr

namespace Capabilities

def has (s : Capabilities) : Capability → Bool
  | .pairInterop => s.pairInterop
  | .tripleInterop => s.tripleInterop
  | .listProjection => s.listProjection
  | .mapProjection => s.mapProjection
  | .zip => s.zip
  | .chainExtension => s.chainExtension

def ofList (cs : List Capability) : Capabilities where
  pairInterop := cs.contains .pairInterop
  tripleInterop := cs.contains .tripleInterop
  listProjection := cs.contains .listProjection
  mapProjection := cs.contains .mapProjection
  zip := cs.contains .zip
  chainExtension := cs.contains .chainExtension

/-- The members of the set, by name. -/
def toList (s : Capabilities) : List Capability := Capability.all.filter s.has

@[simp] theorem has_ofList (cs : List Capability) (c : Capability) :
    (ofList cs).has c = cs.contains c := by cases c <;> rfl

theorem ext_has {s t : Capabilities} (h : ∀ c, s.has c = t.has c) : s = t := by
  cases s; cases t
  simp only [mk.injEq]
  exact ⟨h .pairInterop, h .tripleInterop, h .listProjection, h .mapProjection, h .zip,
    h .chainExtension⟩

theorem mem_toList {s : Capabilities} {c : Capability} : c ∈ s.toList ↔ s.has c := by
  simp [toList, Capability.mem_all]

@[simp] theorem ofList_toList (s : Capabilities) : ofList s.toList = s :=
  ext_has fun c => by
    rw [has_ofList, Bool.eq_iff_iff, List.contains_iff_mem, mem_toList]

end Capabilities

/-- What extending a member by one value gives. -/
inductive Extension where
  /-- The next member of the family. -/
  | typed
  /-- The open-ended tuple; nothing leads back from there. -/
  | overflow
  deriving DecidableEq, Repr

namespace Extension

def name : Extension → String
  | typed => "typed"
  | overflow => "overflow"

def ofName? (s : String) : Option Extension := [typed, overflow].find? (·.name == s)

theorem ofName?_name (e : Extension) : ofName? e.name = some e := by cases e <;> decide

end Extension

structure Member where
  arity : Int
  /-- The abstract contract, such as `Tuple3`. -/
  interfaceName : String
  /-- The concrete class, such as `Triad`. -/
  className : String
  labels : List String := []
  typeParams : List String := []
  ordinals : List String := []
  capabilities : Capabilities := {}
  extension : Extension := .typed
  deriving DecidableEq, Repr

/-- What the rules of consistency look at. -/
structure Shape where
  arity : Value
  interfaceName : Value
  labels : List Value
  params : Nat
  ordinals : Nat
  extension : Extension

namespace Shape

def isTerminal (s : Shape) : Bool := s.extension == .overflow

/-- One label, type parameter and ordinal for each position, and no label twice. -/
def validate (s : Shape) : Except Error Unit :=
  let count : Value := .int s.labels.length
  if s.params ≠ s.labels.length then
    .error <| .telling [s.interfaceName]
      (.paramCount s.interfaceName s.params s.labels.length s.arity)
  else if !count.same s.arity || !(Value.int s.ordinals).same s.arity then
    .error <| .telling [s.interfaceName, s.arity]
      (.positionCount s.interfaceName s.arity s.labels.length s.ordinals)
  else if !Value.allHashable s.labels then .error .wrongType
  else if !Value.distinct s.labels then
    .error (.telling [s.interfaceName] (.duplicateLabels s.interfaceName s.arity))
  else .ok ()

end Shape

namespace Member

def has (m : Member) (c : Capability) : Bool := m.capabilities.has c

def isNull (m : Member) : Bool := m.arity == 0

def isTerminal (m : Member) : Bool := m.extension == .overflow

def shape (m : Member) : Shape where
  arity := .int m.arity
  interfaceName := .str m.interfaceName
  labels := m.labels.map .str
  params := m.typeParams.length
  ordinals := m.ordinals.length
  extension := m.extension

def validate (m : Member) : Except Error Unit := m.shape.validate

end Member
end Polyad
