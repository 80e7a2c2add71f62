import Polyad.Generated.Vocabulary

/-!
# Concrete classes

The immutable class behind a contract. Values are stored in slots named after the accessors. The
base class refuses to set attributes, so the initialiser sets them past it. An extension constructs
the next class by name.
-/

namespace Polyad.Generated

open Code

/-- The one instance of the null class. -/
def nullInstance : String := "Null"

def initialiser (m : Member) : Function where
  name := "__init__"
  parameters := selfParameter ::
    List.zipWith (fun label param => typedParameter label (.name param)) m.labels m.typeParams
  returns := some (.name "None")
  body := m.labels.map fun label =>
    .expr (.call (.attr (.name "object") "__setattr__")
      [.name "self", .literal (slotName label), .name label])

def accessors (m : Member) : List Function :=
  List.zipWith (fun label param =>
    { getter label (.name param) [.ret (.attr (.name "self") (slotName label))] with
      decorators := ["property"] }) m.labels m.typeParams

def concreteExtension (m next : Member) : Function where
  name := "to"
  parameters := [selfParameter, typedParameter "that" (.name nextType)]
  returns := some (contractType next (m.typeParams ++ [nextType]))
  docstring := some <|
    "Returns a new " ++ next.className ++ " from the values of this tuple and ``that``."
  body := [.ret (.calls next.className (ofSelf (slots m) ++ [.name "that"]))]

def transform (name parameter : String) (type returns : TypeTerm) (result : Expr) : Function where
  name := name
  parameters := [selfParameter, typedParameter parameter type]
  returns := some returns
  body := [.ret result]

/-- A call of a function with the values of the instance. -/
def applied (m : Member) (function : String) : Expr := .calls function (ofSelf (slots m))

def foldTransform (m : Member) : Function :=
  transform "fold" "transformer" (callableOf m.typeParams (.name resultType)) (.name resultType)
    (applied m "transformer")

def flatMapTransform (m : Member) : Function :=
  let other := contractType m (otherParams m)
  transform "flat_map" "transformer" (callableOf m.typeParams other) other (applied m "transformer")

/-- A transform that asks a predicate about the values. -/
def predicateTransform (m : Member) (name : String) (result : Expr → Expr) : Function :=
  transform name "predicate" (callableOf m.typeParams (.name "bool")) (.name "bool")
    (result (applied m "predicate"))

/-- The transforms that every member has. -/
def basicTransforms (m : Member) : List Function := [
  foldTransform m, flatMapTransform m, predicateTransform m "any" fun e => .calls "bool" [e],
  predicateTransform m "none" .negate]

/-- The transform that holds two tuples in one. -/
def zipTransform (m pair : Member) : Function :=
  let other := contractType m (otherParams m)
  transform "zip_with" "that" other
    (.generic pair.interfaceName [contractType m m.typeParams, other])
    (.calls pair.className [.name "self", .name "that"])

def transforms (m : Member) (f : Family) : Except Error (List Function) :=
  withPair m f (basicTransforms m) (zipTransform m)

/-- Literals and values in turn: parentheses around the shown slots, commas between them. -/
def shownParts (fields : List String) : List Expr :=
  let values := (ofSelf fields).map fun e => [Expr.shown e]
  .literal "(" :: [Expr.literal ", "].intercalate values ++ [.literal ")"]

theorem intercalate_singletons {α β : Type} (sep : β) (f : α → β) (x : α) (xs : List α) :
    [sep].intercalate ((x :: xs).map fun y => [f y]) = f x :: xs.flatMap fun y => [sep, f y] := by
  induction xs generalizing x with
  | nil => rfl
  | cons y ys ih =>
    have tail := ih y
    rw [List.map_cons] at tail
    rw [List.map_cons, List.map_cons, List.intercalate_cons_cons, tail]
    rfl

/-- What comes after the first of some values that are shown one after another. -/
def shownRest (es : List Expr) : List Expr :=
  es.flatMap (fun e => [.literal ", ", .shown e]) ++ [.literal ")"]

theorem shownParts_cons (field : String) (fields : List String) :
    shownParts (field :: fields) =
      .literal "(" :: .shown (.attr (.name "self") field) :: shownRest (ofSelf fields) := by
  have joined := intercalate_singletons (Expr.literal ", ") Expr.shown
    (.attr (.name "self") field) (ofSelf fields)
  simp only [shownParts, ofSelf, Expr.attrs, List.map_cons] at joined ⊢
  rw [joined]
  rfl

def equality (body : List Stmt) : Function where
  name := "__eq__"
  parameters := [selfParameter, typedParameter "other" (.name "object")]
  returns := some (.name "bool")
  body := body

def isInstance (className : String) : Expr := .calls "isinstance" [.name "other", .name className]

/-- The values of an instance as one. -/
def valuesOf (m : Member) (owner : String) : Expr := .tuple (Expr.attrs owner (slots m))

def equalMethod (m : Member) : Function :=
  equality [
    .when (.identical (.name "self") (.name "other")) (.ret (.name "True")),
    .when (.negate (isInstance m.className)) (.ret (.name "NotImplemented")),
    .ret (.equal (valuesOf m "self") (valuesOf m "other"))]

def hashMethod (m : Member) : Function :=
  getter "__hash__" (.name "int") [.ret (.calls "hash" [valuesOf m "self"])]

def reprMethod (m : Member) : Function :=
  getter "__repr__" (.name "str") [.ret (.template (shownParts (slots m)))]

def reduceMethod (m : Member) : Function :=
  { getter "__reduce__" (.name "tuple[Any, ...]")
      [.ret (.tuple [.name m.className, valuesOf m "self"])] with
    imports := Import.several "typing" ["Any"] }

/-- Equality, hash, text and reconstruction, all by class and values in order. -/
def valueIdentity (m : Member) : List Function :=
  [equalMethod m, hashMethod m, reprMethod m, reduceMethod m]

def concreteDocstring (m : Member) : Except Error String := do
  let equal ←
    if m.arity == 1 then pure "if their components are equal."
    else do
      let words ← Naming.cardinal m.arity
      pure ("if all " ++ words ++ " components are equal.")
  return Text.joinLines [
    s!"Represents a generic implementation of a {m.arity}-tuple.",
    "",
    "There is no meaning attached to values in this class, it can be used for any purpose.",
    "",
    m.className ++ " exhibits value semantics, i.e. two " ++ m.className ++ " instances are equal",
    equal]

def nullExtension (next : Member) : Function where
  name := "to"
  parameters := [selfParameter, typedParameter "that" (.name nextType)]
  returns := some (contractType next [nextType])
  docstring := some ("Returns a new " ++ next.className ++ " holding ``that``.")
  body := [.ret (.calls next.className [.name "that"])]

def nullMethods (m next : Member) : List Function := [
  nullExtension next,
  equality [.ret (isInstance m.className)],
  getter "__hash__" (.name "int") [.ret (.int 0)],
  getter "__repr__" (.name "str") [.ret (.literal nullInstance)],
  getter "__reduce__" (.name "str") [.ret (.literal nullInstance)]]

def nullOutline (m next : Member) : ClassDef where
  name := m.className
  bases := [.name m.interfaceName]
  docstring := some <| "Represents a generic implementation of a null-tuple.\n\n" ++
    "Use the ``" ++ nullInstance ++ "`` instance rather than creating new ones."
  items := .assignment { target := "__slots__", value := .tuple [] } ::
    (nullMethods m next).map .function

/-- The name of the one instance and how it is made. -/
def nullAssignment (m : Member) : Assignment where
  target := nullInstance
  value := .calls m.className []

/-- The class of the null tuple and its instance. -/
def nullClass (m : Member) (f : Family) : Except Error (List Definition) := do
  let next ← present (f.successor? m)
  return [.classDef (nullOutline m next), .assignment (nullAssignment m)]

/-- The extension that a concrete class provides itself. -/
def ownExtension (m : Member) (f : Family) : Except Error (List Function) := do
  if m.has .chainExtension then
    let next ← present (f.successor? m)
    return [concreteExtension m next]
  else return []

def slotsAssignment (m : Member) : Assignment where
  target := "__slots__"
  value := .tuple ((slots m).map .literal)

def concreteOutline (m : Member) (docstring : String) (functions : List Function) : ClassDef where
  name := m.className
  bases := [contractType m m.typeParams]
  docstring := some docstring
  items := .assignment (slotsAssignment m) :: functions.map .function

/-- The concrete class of a member that holds values, which must be consistent. -/
def concreteClass (m : Member) (f : Family) : Except Error ClassDef := do
  m.validate
  let docstring ← concreteDocstring m
  let extension ← ownExtension m f
  let transforms ← transforms m f
  return concreteOutline m docstring
    (initialiser m :: accessors m ++ extension ++ transforms ++ valueIdentity m)

end Polyad.Generated
