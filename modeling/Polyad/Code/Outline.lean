import Polyad.Code.Expr

/-!
# Outlines

What a generated file holds: classes, functions and assignments in order, each with the imports that
its text needs. How they are laid out as text is decided elsewhere.
-/

namespace Polyad.Code

/-- A name imported from a module, or a whole module. -/
structure Import where
  path : String
  name : Option String := none
  deriving DecidableEq, Repr

namespace Import

/-- Several names imported from one module. -/
def several (path : String) (names : List String) : List Import :=
  names.map fun n => ⟨path, some n⟩

end Import

structure Parameter where
  name : String
  annotation : Option TypeTerm := none
  default : Option String := none
  variadic : Bool := false
  deriving Repr

structure Function where
  name : String
  parameters : List Parameter := []
  returns : Option TypeTerm := none
  body : List Stmt := []
  decorators : List String := []
  docstring : Option String := none
  imports : List Import := []
  deriving Repr

/-- The lines of the body, further indentation of their own included. -/
def Function.lines (f : Function) : List String := f.body.flatMap Stmt.lines

structure Assignment where
  target : String
  value : Expr
  imports : List Import := []
  deriving Repr

/-- What a class holds. -/
inductive ClassItem where
  | function (f : Function)
  | assignment (a : Assignment)
  deriving Repr

namespace ClassItem

def name : ClassItem → String
  | function f => f.name
  | assignment a => a.target

def imports : ClassItem → List Import
  | function f => f.imports
  | assignment a => a.imports

def isAssignment : ClassItem → Bool
  | function _ => false
  | assignment _ => true

end ClassItem

structure ClassDef where
  name : String
  bases : List TypeTerm := []
  docstring : Option String := none
  items : List ClassItem := []
  imports : List Import := []
  deriving Inhabited, Repr

namespace ClassDef

def add (c : ClassDef) (item : ClassItem) : ClassDef := { c with items := c.items ++ [item] }

def addFunctions (c : ClassDef) (fs : List Function) : ClassDef :=
  { c with items := c.items ++ fs.map .function }

/-- The first item of a name. -/
def get? (c : ClassDef) (name : String) : Option ClassItem := c.items.find? (·.name == name)

end ClassDef

/-- What a file holds. -/
inductive Definition where
  | classDef (c : ClassDef)
  | function (f : Function)
  | assignment (a : Assignment)
  deriving Repr

namespace Definition

def name : Definition → String
  | classDef c => c.name
  | function f => f.name
  | assignment a => a.target

def isAssignment : Definition → Bool
  | assignment _ => true
  | _ => false

/-- The imports that the text of a definition needs. -/
def allImports : Definition → List Import
  | classDef c => c.imports ++ c.items.flatMap ClassItem.imports
  | function f => f.imports
  | assignment a => a.imports

def asClass? : Definition → Option ClassDef
  | classDef c => some c
  | _ => none

end Definition

/-- One output file. -/
structure File where
  /-- The name of the file without its suffix. -/
  name : String
  body : List Definition := []
  imports : List Import := []
  /-- Explanations placed right after the import block. -/
  comment : List String := []
  deriving Repr

namespace File

def filename (f : File) : String := f.name ++ ".py"

def add (f : File) (d : Definition) : File := { f with body := f.body ++ [d] }

def rename (f : File) (name : String) : File := { f with name }

def addImports (f : File) (imports : List Import) : File :=
  { f with imports := f.imports ++ imports }

def classes (f : File) : List ClassDef := f.body.filterMap Definition.asClass?

/-- The first definition of a name. -/
def get? (f : File) (name : String) : Option Definition := f.body.find? (·.name == name)

/-- Every import that the file or a part of it asks for. -/
def allImports (f : File) : List Import := f.imports ++ f.body.flatMap Definition.allImports

/-- Changes the first definition of a name, which must be a class. -/
def changeClass (f : File) (name : String) (change : ClassDef → ClassDef) : Option File :=
  go f.body |>.map fun body => { f with body }
where
  go : List Definition → Option (List Definition)
    | [] => none
    | d :: rest =>
      if d.name == name then d.asClass?.map fun c => .classDef (change c) :: rest
      else (go rest).map (d :: ·)

end File
end Polyad.Code
