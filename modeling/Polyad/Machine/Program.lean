import Polyad.Code.Layout
import Polyad.Machine.Heap

/-!
# Programs

The classes and names that running code sees. Attributes are looked up along the lineage of a class:
the class itself, then its bases, each class once and after those derived from it. Besides the
generated classes there are the supporting ones, which the generated code imports.
-/

namespace Polyad.Machine

open Code

/-- What a class offers under a name. -/
inductive Attribute where
  | slot (name : String)
  | property (r : Routine)
  | method (r : Routine)
  | value (d : Datum)

namespace Support

def markerClass : String := "TupleMarker"
def identityClass : String := "ValueIdentity"
def openClass : String := "TupleN"
def overflowClass : String := "TupleOverflowWarning"

/-- The slot of an open-ended tuple. -/
def valuesSlot : String := "_values"

/-- The supporting classes that tuples are made from. -/
def classNames : List String := [markerClass, identityClass, openClass]

def parents (name : String) : List String :=
  if name == openClass then [markerClass, identityClass]
  else if name == identityClass then ["ABC"]
  else []

/-- What the open-ended tuple can be asked for. -/
def openMethods : List String := [
  "__init__", "_check_index", "get_nullable", "get", "to", "__add__", "to_list", "__getitem__",
  "__len__", "__iter__", "__eq__", "__hash__", "__repr__", "__reduce__"]

def openProperties : List String := ["size", "values"]

/-- What value identity demands of a class. -/
def identityMethods : List String := ["__eq__", "__hash__", "__repr__"]

/-- What every class has got. -/
def commonMethods : List String := [
  "__delattr__", "__dir__", "__eq__", "__format__", "__ge__", "__getattribute__", "__getstate__",
  "__gt__", "__hash__", "__init__", "__init_subclass__", "__le__", "__lt__", "__ne__", "__new__",
  "__reduce__", "__reduce_ex__", "__repr__", "__setattr__", "__sizeof__", "__str__",
  "__subclasshook__"]

def genericAttributes : List String := [
  "__class_getitem__", "__init_subclass__", "__orig_bases__", "__parameters__", "_is_protocol"]

def methodsOf (owner : String) : List String :=
  if owner == openClass then openMethods
  else if owner == markerClass then ["__setattr__", "__delattr__"]
  else if owner == identityClass then identityMethods
  else if owner == "object" then commonMethods
  else if owner == "Generic" then genericAttributes
  else if owner == "ABC" then ["__abstractmethods__", "_abc_impl"]
  else []

def slotsOf (owner : String) : Option (List String) :=
  if owner == openClass then some [valuesSlot]
  else if owner == markerClass || owner == identityClass then some []
  else none

def attribute? (owner name : String) : Option Attribute :=
  if (methodsOf owner).contains name then some (.method (.support owner name))
  else if owner == openClass && openProperties.contains name then
    some (.property (.support owner name))
  else
    match slotsOf owner with
    | some slots =>
      if name == "__slots__" then some (.value (.tuple (slots.map .text) 0))
      else if slots.contains name then some (.slot name)
      else none
    | none => none

/-- The module of the supporting classes. -/
def home : String := "tuplegen.runtime"

/-- What the marker says about itself. -/
def markerLines : List String := [
  "",
  "    A marker for all the available tuple implementations.",
  "",
  "    Instances are immutable: assigning or deleting any attribute raises",
  "    AttributeError. Subclasses set their slots with ``object.__setattr__``.",
  "    "]

/-- What the open-ended tuple says about itself. -/
def openLines : List String := [
  "",
  "    A tuple that can store any number of values of any type.",
  "",
  "    This is where chain-extension ends up once the generated family runs",
  "    out of arities. Nothing about its contents is known statically, so",
  "    values come back out through :meth:`get`, which can check their type.",
  "",
  "    Example:",
  "        t = TupleN(1, \"two\", None)",
  "        t.get(1, str)           # \"two\"",
  "        t.get_nullable(2)       # None",
  "        t.to(4.0)               # TupleN(1, \"two\", None, 4.0)",
  "    "]

/-- What a supporting class that can have instances says about itself. -/
def documentation? (owner : String) : Option String :=
  if owner == openClass then some (Text.joinLines openLines)
  else if owner == markerClass then some (Text.joinLines markerLines)
  else none

/-- Whether a class only demands a method. -/
def isAbstract (owner name : String) : Bool :=
  owner == identityClass && identityMethods.contains name

end Support

def literal? : Expr → Option String
  | .literal s => some s
  | _ => none

/-- The slots that an item of a class declares. -/
def declaredSlots : ClassItem → List String
  | .assignment { target := "__slots__", value := .tuple items, .. } => items.filterMap literal?
  | _ => []

/-- The slots that a class declares. -/
def slotNames (c : ClassDef) : List String := c.items.flatMap declaredSlots

def isAbstractFunction (f : Function) : Bool := f.decorators.contains "abstractmethod"

/-- The attribute that a generated class has itself; the last definition of a name counts. -/
def ownAttribute? (c : ClassDef) (name : String) : Option Attribute :=
  match c.items.reverse.find? (·.name == name) with
  | some (.function f) =>
    some (if f.decorators.contains "property" then .property (.written f)
      else .method (.written f))
  | some (.assignment _) =>
    if name == "__slots__" then some (.value (.tuple ((slotNames c).map .text) 0)) else none
  | none => if (slotNames c).contains name then some (.slot name) else none

/-- The class that a base class term is about. -/
def baseName : TypeTerm → String
  | .name s => s
  | .applied head _ => head
  | .callable .. => "Callable"

structure Program where
  classes : List ClassDef := []
  /-- What the names of the file stand for. -/
  globals : List (String × Datum) := []
  /-- The modules that the classes come from. -/
  homes : List (String × String) := []

namespace Program

def class? (p : Program) (name : String) : Option ClassDef := p.classes.find? (·.name == name)

def parents (p : Program) (name : String) : List String :=
  match p.class? name with
  | some c => c.bases.map baseName
  | none => Support.parents name

/-- Lineages one after the other; what occurs again further on is left out. -/
def joinLineages : List (List String) → List String
  | [] => []
  | l :: ls =>
    let rest := joinLineages ls
    l.filter (!rest.contains ·) ++ rest

/-- The lineage of a class up to a number of generations, without the class of everything. -/
def generations (p : Program) : Nat → String → List String
  | 0, name => [name]
  | n + 1, name => name :: joinLineages ((p.parents name).map (generations p n))

/-- Generated classes stand at most two generations above the supporting ones, and those at most two
above their own bases. -/
def lineage (p : Program) (name : String) : List String := p.generations 4 name ++ ["object"]

/-- The module that a class comes from, if it has got one of its own. -/
def home? (p : Program) (owner : String) : Option String :=
  (p.homes.lookup owner).or
    (if Support.classNames.contains owner then some Support.home else none)

/-- The name of a class behind that of its module. -/
def qualified (p : Program) (owner : String) : String :=
  match p.home? owner with
  | some home => home ++ "." ++ owner
  | none => owner

/-- What a class says about itself. -/
def documentation? (p : Program) (owner : String) : Option String :=
  match p.class? owner with
  | some c => (shownDocstring c.docstring).map docstringText
  | none => Support.documentation? owner

/-- The slots that a class declares itself. -/
def slotNames (p : Program) (owner : String) : List String :=
  match p.class? owner with
  | some c => Machine.slotNames c
  | none => (Support.slotsOf owner).getD []

def ownAttribute? (p : Program) (owner name : String) : Option Attribute :=
  match p.class? owner with
  | some c => Machine.ownAttribute? c name
  | none => Support.attribute? owner name

/-- The attribute of a class under a name: the first one along its lineage, unless every class has
one of its own. -/
def find? (p : Program) (className name : String) : Option Attribute :=
  if name == "__class__" then some (.value (.type className))
  else if name == "__module__" then some (.value (.text ((p.home? className).getD "builtins")))
  else if name == "__doc__" then
    some (.value (((p.documentation? className).map Datum.text).getD .null))
  else (p.lineage className).findSome? fun owner => p.ownAttribute? owner name

/-- The methods that a class demands itself. -/
def demands (p : Program) (owner : String) : List String :=
  match p.class? owner with
  | some c => c.items.filterMap fun
    | .function f => if isAbstractFunction f then some f.name else none
    | .assignment _ => none
  | none => if owner == Support.identityClass then Support.identityMethods else []

/-- Whether an attribute only demands something of derived classes. -/
def isDemand : Attribute → Bool
  | .property (.written f) => isAbstractFunction f
  | .method (.written f) => isAbstractFunction f
  | .method (.support owner name) => Support.isAbstract owner name
  | _ => false

/-- The demands along the lineage of a class that nothing meets. -/
def unmet (p : Program) (className : String) : List String :=
  ((p.lineage className).flatMap p.demands).filter fun name =>
    ((p.find? className name).map isDemand).getD true

/-- Whether there can be instances of a class. -/
def isConcrete (p : Program) (className : String) : Bool := (p.unmet className).isEmpty

/-- The classes that an instance of a class is an instance of. -/
def isKindOf (p : Program) (className other : String) : Bool :=
  (p.lineage className).contains other

/-- Names that every file knows. -/
def builtins : List (String × Datum) := [
  ("True", .bool true), ("False", .bool false), ("None", .null),
  ("NotImplemented", .notImplemented), ("NotImplementedError", .builtin .unsupported),
  ("bool", .builtin .bool), ("hash", .builtin .hash), ("isinstance", .builtin .isinstance),
  ("iter", .builtin .iter), ("len", .builtin .len), ("type", .builtin .type),
  ("warnings", .builtin .warnings), ("object", .type "object"),
  (Support.markerClass, .type Support.markerClass),
  (Support.identityClass, .type Support.identityClass),
  (Support.openClass, .type Support.openClass),
  (Support.overflowClass, .type Support.overflowClass)]

/-- What a name stands for. -/
def lookup (p : Program) (name : String) : Option Datum :=
  (p.globals.lookup name).or (builtins.lookup name)

/-- The program with a name bound to something. -/
def bind (p : Program) (name : String) (v : Datum) : Program :=
  { p with globals := (name, v) :: p.globals }

end Program
end Polyad.Machine
