import Polyad.Code.Outline
import Polyad.Code.StandardModules
import Polyad.Error
import Polyad.Text.Lines

/-!
# Import blocks

The import lines at the top of a file. Each module has at most one line for itself and one for the
names taken from it. The lines stand in four groups with an empty line between them: future
features, standard modules, other modules by absolute paths, and modules by relative paths.
-/

namespace Polyad.Code

/-- The texts of a list in order, each once. -/
def sortedOnce (xs : List String) : List String := (xs.mergeSort (· ≤ ·)).eraseDups

structure ImportLine where
  path : String
  /-- The names taken from the module; none for the module itself. -/
  names : Option (List String)
  deriving DecidableEq, Repr

namespace ImportLine

def text (l : ImportLine) : String :=
  match l.names with
  | none => "import " ++ l.path
  | some names => "from " ++ l.path ++ " import " ++ ", ".intercalate names

/-- The second word of the line, by which a group is sorted. -/
def key (l : ImportLine) : Except Error String :=
  match Text.words l.text with
  | _ :: second :: _ => .ok second
  | _ => .error (.badIndex "list index out of range")

inductive Group where
  | future
  | standard
  | absolute
  | relative
  deriving DecidableEq, Repr

def Group.all : List Group := [future, standard, absolute, relative]

def group (l : ImportLine) : Group :=
  if l.path == "__future__" then .future
  else if l.path.toList.head? == some '.' then .relative
  else if isStandard l.path then .standard
  else .absolute

/-- The lines that a list of imports needs: whole modules first, both in order of their paths. -/
def ofImports (imports : List Import) : List ImportLine :=
  let whole := imports.filter (·.name.isNone)
  let named := imports.filter (·.name.isSome)
  let taken (path : String) := (named.filter (·.path == path)).filterMap (·.name)
  (sortedOnce (whole.map (·.path))).map (⟨·, none⟩) ++
    (sortedOnce (named.map (·.path))).map fun p => ⟨p, some (sortedOnce (taken p))⟩

/-- The lines in order of their keys. -/
def sortByKey (ls : List ImportLine) : Except Error (List ImportLine) := do
  let keyed ← ls.mapM fun l => return (← l.key, l)
  return (keyed.mergeSort fun a b => a.1 ≤ b.1).map (·.2)

end ImportLine

/-- The groups that have lines, in order. -/
def importGroups (imports : List Import) : Except Error (List (List ImportLine)) := do
  let ls := ImportLine.ofImports imports
  let groups ← ImportLine.Group.all.mapM fun g => ImportLine.sortByKey (ls.filter (·.group == g))
  return groups.filter (!·.isEmpty)

/-- The lines of an import block. -/
def renderImports (imports : List Import) : Except Error (List String) := do
  let groups ← importGroups imports
  return [""].intercalate (groups.map fun g => g.map ImportLine.text)

/-- The order of imports: by path, then by name, a whole module before its names. -/
def Import.le (a b : Import) : Bool :=
  if a.path == b.path then a.name.getD "" ≤ b.name.getD "" else a.path < b.path

/-- Every import of a file, each once and in order. -/
def File.collectImports (f : File) : List Import :=
  (f.allImports.mergeSort Import.le).eraseDups

end Polyad.Code
