import Polyad.Generated.Vocabulary

/-!
# Contracts

The abstract class of a member, `Tuple0`, `Tuple1` and so on: an accessor and a component for each
position, the extension by one value and `+` as its operator, iteration and length, and the abstract
transforms. The extension of the last member leaves the family, with a warning.
-/

namespace Polyad.Generated

open Code

private def typing (names : List String) : List Import := Import.several "typing" names

private def abstractImport : List Import := Import.several "abc" ["abstractmethod"]

/-- The extension that leaves the family. -/
def overflowExtension (m : Member) (runtime : String) : Function where
  name := "to"
  parameters := [selfParameter, typedParameter "that" (.name "Any")]
  returns := some (.name "TupleN")
  docstring := some <|
    "Returns a new TupleN that contains the values of this tuple and ``that``.\n\n" ++
    m.interfaceName ++ " is the largest member of the family. Extending it leaves\n" ++
    "static arity typing behind and always emits a TupleOverflowWarning."
  body := [
    .callByLine (.attr (.name "warnings") "warn") [
      .literal s!"Extending a {m.arity}-tuple creates a TupleN; static arity typing ends here",
      .name "TupleOverflowWarning",
      .keyword "stacklevel" (.int 2)],
    .ret (.calls "TupleN" (ofSelf m.labels ++ [.name "that"]))]
  imports := typing ["Any"] ++ [⟨"warnings", none⟩] ++
    Import.several runtime ["TupleN", "TupleOverflowWarning"]

/-- The extension to the next member, which concrete classes provide. -/
def typedExtension (m next : Member) : Function where
  name := "to"
  parameters := [selfParameter, typedParameter "that" (.name nextType)]
  returns := some (contractType next (m.typeParams ++ [nextType]))
  docstring := some <|
    s!"Returns a new {next.arity}-tuple from the values of this tuple and ``that``.\n\n" ++
    "Whether or not this is supported is implementation specific, a class implementing\n" ++
    "this contract may choose not to provide it."
  body := [
    .fail (.calls "NotImplementedError" [.template [
      .attr (.calls "type" [.name "self"]) "__name__",
      .literal " does not support chain-extension"]])]

def contractExtension (m : Member) (f : Family) (runtime : String) : Function :=
  match f.successor? m with
  | none => overflowExtension m runtime
  | some next => typedExtension m next

/-- `+`, with the signature of the extension it calls. -/
def plusOperator (extension : Function) : Function where
  name := "__add__"
  parameters := extension.parameters
  returns := extension.returns
  docstring := some "Operator form of ``to``, e.g. ``Single(1) + 2 == Duad(1, 2)``."
  body := [.ret (.call (.attr (.name "self") "to") [.name "that"])]

def abstractAccessor (label param ordinal : String) : Function where
  name := label
  parameters := [selfParameter]
  returns := some (.name param)
  decorators := ["property", "abstractmethod"]
  docstring := some ("The " ++ ordinal ++ " value of this tuple.")
  imports := abstractImport

def abstractAccessors (m : Member) : List Function :=
  List.zipWith (fun label (param, ordinal) => abstractAccessor label param ordinal) m.labels
    (m.typeParams.zip m.ordinals)

/-- The method that returns the value at a position, counted from 1. -/
def component (position : Nat) (label param : String) : Function :=
  getter s!"component{position}" (.name param) [.ret (.attr (.name "self") label)]

def components (m : Member) : List Function :=
  (m.labels.zip m.typeParams).mapIdx fun i (label, param) => component (i + 1) label param

def iterMethod (m : Member) : Function :=
  { getter "__iter__" (.name "Iterator[Any]") [.ret (.calls "iter" [.tuple (ofSelf m.labels)])] with
    imports := typing ["Any", "Iterator"] }

def lengthMethod (m : Member) : Function := getter "__len__" (.name "int") [.ret (.int m.arity)]

def iteration (m : Member) : List Function := [iterMethod m, lengthMethod m]

/-- A transform: a method that hands the values to a function. -/
def abstractTransform (name parameter : String) (type returns : TypeTerm) (doc : String) :
    Function where
  name := name
  parameters := [selfParameter, typedParameter parameter type]
  returns := some returns
  decorators := ["abstractmethod"]
  docstring := some doc
  imports := abstractImport ++ typing ["Callable"]

/-- The transforms demanded of every member. -/
def basicDemands (m : Member) : List Function :=
  let other := contractType m (otherParams m)
  let predicate := callableOf m.typeParams (.name "bool")
  [ abstractTransform "fold" "transformer" (callableOf m.typeParams (.name resultType))
      (.name resultType)
      "Returns the result of applying the values of this tuple to ``transformer``.",
    abstractTransform "flat_map" "transformer" (callableOf m.typeParams other) other
      "Returns the tuple produced by applying the values of this tuple to ``transformer``.",
    abstractTransform "any" "predicate" predicate (.name "bool")
      "Returns True if ``predicate`` passes when supplied the values of this tuple.",
    abstractTransform "none" "predicate" predicate (.name "bool")
      "Returns True if ``predicate`` fails when supplied the values of this tuple."]

def zipDemand (m pair : Member) : Function :=
  let other := contractType m (otherParams m)
  abstractTransform "zip_with" "that" other
    (.generic pair.interfaceName [contractType m m.typeParams, other])
    ("Returns a 2-tuple holding this tuple and ``that`` tuple.\n\n" ++
      "The two tuples are paired as wholes, their values are not paired up position by position.")

def abstractTransforms (m : Member) (f : Family) : Except Error (List Function) :=
  withPair m f (basicDemands m) (zipDemand m)

def contractDocstring (m : Member) : String :=
  Text.joinLines <| [
    s!"Represents an abstract implementation of a {m.arity}-tuple.",
    "",
    "Whether or not there is any meaning attached to the values represented by this tuple",
    "is implementation specific.",
    "",
    "See Also:",
    "    " ++ m.className,
    "",
    "Attributes:"] ++
    List.zipWith (fun label word => "    " ++ label ++ ": The " ++ word ++ " value of this tuple.")
      m.labels m.ordinals

def emptySlots : ClassItem := .assignment { target := "__slots__", value := .tuple [] }

/-- The extension and its operator. -/
def extensions (m : Member) (f : Family) (runtime : String) : List Function :=
  let extension := contractExtension m f runtime
  [extension, plusOperator extension]

def nullContract (m : Member) (f : Family) (runtime : String) : ClassDef where
  name := m.interfaceName
  bases := [.name "TupleMarker", .name "ValueIdentity"]
  docstring := some <|
    "Represents a null tuple.\n\nA null tuple does not hold any values.\n\nSee Also:\n    " ++
    m.className
  items := emptySlots :: (extensions m f runtime ++ iteration m).map .function
  imports := Import.several runtime ["TupleMarker", "ValueIdentity"]

def contractOutline (m : Member) (runtime : String) (functions : List Function) : ClassDef where
  name := m.interfaceName
  bases := [.name "TupleMarker", .name "ValueIdentity",
    .generic "Generic" (TypeTerm.names m.typeParams)]
  docstring := some (contractDocstring m)
  items := emptySlots :: functions.map .function
  imports := Import.several runtime ["TupleMarker", "ValueIdentity"] ++ typing ["Generic"]

def properContract (m : Member) (f : Family) (runtime : String) : Except Error ClassDef := do
  let transforms ← abstractTransforms m f
  return contractOutline m runtime
    (abstractAccessors m ++ extensions m f runtime ++ components m ++ iteration m ++ transforms)

/-- The contract of a member, which must be consistent; conversions come on top of it. -/
def contract (m : Member) (f : Family) (runtime : String) : Except Error ClassDef := do
  m.validate
  if m.isNull then return nullContract m f runtime else properContract m f runtime

end Polyad.Generated
