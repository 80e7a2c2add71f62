import Polyad.Generated.Vocabulary

/-!
# Conversions

Methods and functions between members and native collections: a list of the values, a map that pairs
the odd positions with the ones after them, and native pairs and triples in both directions. Which
of them a member gets is a matter of its capabilities; that all values have one type is said by the
annotation of `self`.
-/

namespace Polyad.Generated

open Code

def nullToList : Function where
  name := "to_list"
  parameters := [selfParameter]
  returns := some (.name "list[Any]")
  docstring := some "Returns a new, empty list."
  body := [.ret (.list [])]
  imports := Import.several "typing" ["Any"]

def properToList (m : Member) : Function where
  name := "to_list"
  parameters := [typedParameter "self"
    (contractType m (List.replicate m.arity.toNat elementType))]
  returns := some (.applied "list" [.name elementType])
  docstring := some "Returns a new list containing all the values of this tuple, in order."
  body := [.ret (.list (ofSelf m.labels))]

def toListMethod (m : Member) : Function := if m.isNull then nullToList else properToList m

/-- Each item at an odd position with the one after it. -/
def pairUp {α : Type} : List α → List (α × α)
  | a :: b :: rest => (a, b) :: pairUp rest
  | _ => []

/-- Of two pairs with an equal key the key of the first and the value of the last stay. -/
def toMapMethod (m : Member) : Function where
  name := "to_map"
  parameters := [typedParameter "self" (contractType m
    ((List.range m.arity.toNat).map fun i => if i % 2 == 0 then keyType else valueType))]
  returns := some (.applied "dict" [.name keyType, .name valueType])
  docstring := some <|
    "Returns a new dict containing the values of this tuple.\n\n" ++
    "The entries are created by pairing the value at each odd position (first, third, ...)\n" ++
    "with the value right after it. Later pairs win over earlier ones with an equal key."
  body := [.ret (.dict (pairUp (ofSelf m.labels)))]

/-- The native collections that a member converts from and to. -/
inductive Native where
  | pair
  | triple
  deriving DecidableEq, Repr

namespace Native

def name : Native → String
  | pair => "pair"
  | triple => "triple"

/-- The method that makes one. -/
def projection (n : Native) : String := "to_" ++ n.name

/-- The function that takes one. -/
def converter (n : Native) : String := "from_" ++ n.name

def of? (m : Member) : Option Native :=
  if m.has .pairInterop then some pair
  else if m.has .tripleInterop then some triple
  else none

end Native

def nativeType (m : Member) : TypeTerm := .applied "tuple" (TypeTerm.names m.typeParams)

def nativeMethods (m : Member) (n : Native) : List Function :=
  let doc := "Returns a new native " ++ n.name ++ " based on the values of this tuple."
  [ { getter n.projection (nativeType m) [.ret (.tuple (ofSelf m.labels))] with
      docstring := some doc },
    { getter "__invert__" (nativeType m) [.ret (.call (.attr (.name "self") n.projection) [])] with
      docstring := some doc }]

/-- The methods to a native collection; a member without one has no entry to look up. -/
def toNativeMethods (m : Member) : Except Error (List Function) :=
  match Native.of? m with
  | some n => .ok (nativeMethods m n)
  | none => .error (.missingKey .null)

def conversions (m : Member) : List Function :=
  (if m.has .listProjection then [toListMethod m] else []) ++
    (if m.has .mapProjection then [toMapMethod m] else []) ++
    ((Native.of? m).map (nativeMethods m)).getD []

/-- A class with the conversions of a member. -/
def withConversions (c : ClassDef) (m : Member) : ClassDef := c.addFunctions (conversions m)

def converterFunction (m : Member) (n : Native) : Function where
  name := n.converter
  parameters := [typedParameter n.name (nativeType m)]
  returns := some (contractType m m.typeParams)
  docstring := some <| "Returns a new " ++ m.className ++
    " containing the values of the native ``" ++ n.name ++ "``."
  body := [
    .unpack m.ordinals (.name n.name),
    .ret (.calls m.className (m.ordinals.map .name))]

/-- The functions from native collections to the members of a family. -/
def nativeConverters (f : Family) : List Function :=
  f.members.filterMap fun m => (Native.of? m).map (converterFunction m)

end Polyad.Generated
