import Polyad.Code.Outline
import Polyad.Family
import Polyad.Text.Lines

/-!
# Vocabulary

The names that generated classes share. Besides the type parameters of the positions there are
helper type variables, none of them a single letter but the reserved one:

- `NT`: the value appended by an extension; `RT`: the result of `fold`;
- `T`: the element of the list projection; `KT`, `VT`: key and value of the map projection;
- `A1`, `B1`, …: the positions of a second tuple.
-/

namespace Polyad.Generated

open Code

def nextType : String := "NT"
def resultType : String := "RT"
def elementType : String := "T"
def keyType : String := "KT"
def valueType : String := "VT"

/-- What generated code takes from the module that supports it. -/
def runtimeNames : List String := ["TupleMarker", "TupleN", "TupleOverflowWarning", "ValueIdentity"]

/-- The type parameters of a second tuple of the same arity. -/
def otherParams (m : Member) : List String := m.typeParams.map (· ++ "1")

/-- The name of the slot behind an accessor. -/
def slotName (label : String) : String := "_" ++ label

def slots (m : Member) : List String := m.labels.map slotName

/-- What is asked of a member that may be missing. -/
def present {α : Type} : Option α → Except Error α
  | some x => .ok x
  | none => .error .absent

/-- The functions that every member has, and one more about the member of two values for a member
that can be put in pairs. -/
def withPair (m : Member) (f : Family) (own : List Function) (paired : Member → Function) :
    Except Error (List Function) := do
  if m.has .zip then
    let pair ← present (f.get? 2)
    return own ++ [paired pair]
  else return own

/-- Every type variable, in the order of declaration. -/
def typeVarNames (f : Family) : Except Error (List String) := do
  let terminal ← present f.terminal?
  return terminal.typeParams ++ otherParams terminal ++
    [nextType, resultType, elementType, keyType, valueType]

/-- The type variables that concrete classes mention: not those of the projections. -/
def concreteTypeVars (f : Family) : Except Error (List String) :=
  (typeVarNames f).map (·.filter (! [elementType, keyType, valueType].contains ·))

/-- The contract of a member at the given type parameters. -/
def contractType (m : Member) (params : List String) : TypeTerm :=
  .generic m.interfaceName (TypeTerm.names params)

def callableOf (params : List String) (result : TypeTerm) : TypeTerm :=
  .callable (TypeTerm.names params) result

def selfParameter : Parameter := { name := "self" }

/-- A parameter with a type. -/
def typedParameter (name : String) (type : TypeTerm) : Parameter :=
  { name, annotation := some type }

/-- The attributes of the instance a method is called on. -/
def ofSelf (fields : List String) : List Expr := Expr.attrs "self" fields

/-- A method of no parameters but the instance. -/
def getter (name : String) (returns : TypeTerm) (body : List Stmt) : Function :=
  { name, parameters := [selfParameter], returns := some returns, body }

end Polyad.Generated
