import Polyad.Generated.Concrete
import Polyad.Generated.Contract
import Polyad.Generated.Conversion

/-!
# Generated files

The two files of a family: one with the type variables and contracts, and one with the concrete
classes, the converters from native collections and the factory `tuple_of`.
-/

namespace Polyad.Generated

open Code

def explanation : List String := [
  "Every tuple type below defines its chain-extension operation, 'to', as an ordinary",
  "method of the type itself. 'Single(1).to(2).to(3)' therefore always resolves to the",
  "next member of the family, and the concrete classes construct that member directly",
  "instead of looking a constructor up at runtime.",
  "    The last member of the family is the exception: extending it returns a 'TupleN'",
  "from the runtime module and emits a 'TupleOverflowWarning', since there is no",
  "statically typed member beyond it. 'a + b' is shorthand for 'a.to(b)'.",
  "    'Tuple2' and 'Tuple3' can be converted to native tuples with 'to_pair' and",
  "'to_triple', or with the '~' operator. The operator is entirely optional and should",
  "only be used where it does not hurt readability. 'from_pair' and 'from_triple' in",
  "the implementations module convert the other way."]

/-- The declaration of a type variable; those of positions are covariant. -/
def typeVariable (positions : List String) (name : String) : Assignment where
  target := name
  value := .calls "TypeVar" (.literal name ::
    if positions.contains name then [.keyword "covariant" (.name "True")] else [])
  imports := Import.several "typing" ["TypeVar"]

def typeVariables (f : Family) : Except Error (List Assignment) := do
  let terminal ← present f.terminal?
  return (← typeVarNames f).map (typeVariable terminal.typeParams)

def annotationsImport : Import := ⟨"__future__", some "annotations"⟩

/-- The contract of a member with its conversions. -/
def fullContract (m : Member) (f : Family) (runtime : String) : Except Error ClassDef := do
  return withConversions (← contract m f runtime) m

/-- The file of type variables and contracts, in order of arity. -/
def contractsFile (f : Family) (runtime name : String) : Except Error File := do
  let declared ← typeVariables f
  let contracts ← f.members.mapM fun m => fullContract m f runtime
  return {
    name
    imports := [annotationsImport]
    comment := explanation
    body := declared.map .assignment ++ contracts.map .classDef }

/-- The table of the classes that hold values, in order of arity. -/
def constructorTable (f : Family) : Assignment where
  target := "_CONSTRUCTORS"
  value := .tuple (f.proper.map fun m => .name m.className)

/-- The function that picks a class by the number of its arguments: none give the null tuple, too
many the open-ended one. -/
def factoryFunction (f : Family) (runtime : String) : Function :=
  let values : Expr := .name "values"
  let count : Expr := .calls "len" [values]
  { name := "tuple_of"
    parameters := [{ name := "values", annotation := some (.name "Any"), variadic := true }]
    returns := some (.name "TupleMarker")
    docstring := some <|
      "Returns a new tuple containing the specified ``values``.\n\nNo values give ``" ++
      nullInstance ++ "``, up to " ++ toString f.maxArity ++
      " values give the family member of that\narity and anything longer gives a TupleN."
    body := [
      .when (.negate values) (.ret (.name nullInstance)),
      .when (.more count (.int f.maxArity)) (.ret (.calls "TupleN" [.spread values])),
      .ret (.call (.index (.name "_CONSTRUCTORS") (.minus count (.int 1))) [.spread values])]
    imports := Import.several "typing" ["Any"] ++
      Import.several runtime ["TupleMarker", "TupleN"] }

/-- The table of the classes and the function over it. -/
def factory (f : Family) (runtime : String) : List Definition :=
  [.assignment (constructorTable f), .function (factoryFunction f runtime)]

/-- What a member adds to the file of concrete classes. -/
def concreteDefinitions (m : Member) (f : Family) : Except Error (List Definition) :=
  if m.isNull then nullClass m f
  else (concreteClass m f).map fun c => [.classDef c]

/-- The file of concrete classes, in order of arity, which imports its names from the other file. -/
def concretesFile (f : Family) (runtime contracts name : String) : Except Error File := do
  let declared ← concreteTypeVars f
  let classes ← f.members.mapM fun m => concreteDefinitions m f
  let sibling := "." ++ contracts
  return {
    name
    imports := annotationsImport :: Import.several sibling declared ++
      Import.several sibling (f.members.map (·.interfaceName)) ++
      Import.several "typing" ["Callable"]
    body := classes.flatten ++ (nativeConverters f).map .function ++ factory f runtime }

end Polyad.Generated
