/-!
# Paths

A path is the slashes it begins with and its components; empty components and dots say nothing and
are left out. Two slashes at the front are kept as they are, more stand for one. A parent component
stays, since only a walk through the disk can tell where it leads.
-/

namespace Polyad

structure Path where
  /-- Nothing, one slash or two. -/
  root : String
  parts : List String
  deriving DecidableEq, Repr

namespace Path

/-- A component that says something. -/
def isProper (part : String) : Bool := part != "" && part != "."

def rootOf (slashes : Nat) : String :=
  match slashes with
  | 0 => ""
  | 2 => "//"
  | _ => "/"

def ofString (s : String) : Path where
  root := rootOf (s.toList.takeWhile (· == '/')).length
  parts := ((s.toList.splitOn '/').map String.ofList).filter isProper

def text (p : Path) : String :=
  if p.root == "" && p.parts.isEmpty then "." else p.root ++ "/".intercalate p.parts

/-- The last component. -/
def name (p : Path) : String := p.parts.getLast?.getD ""

/-- The path without its last component. -/
def parent (p : Path) : Path := { p with parts := p.parts.dropLast }

/-- The path of a name inside a directory. -/
def child (p : Path) (name : String) : Path := { p with parts := p.parts ++ [name] }

@[simp] theorem parent_child (p : Path) (s : String) : (p.child s).parent = p := by
  simp [parent, child]

@[simp] theorem name_child (p : Path) (s : String) : (p.child s).name = s := by
  simp [name, child]

/-- The components from the top of the disk on, for a working directory. -/
def fromTop (p : Path) (working : List String) : List String :=
  if p.root == "" then working ++ p.parts else p.parts

/-- Each parent component taken together with the one before it. -/
def collapse (parts : List String) : List String :=
  (parts.foldl (fun done part => if part == ".." then done.drop 1 else part :: done) []).reverse

/-- The path from the top of the disk, without parent components. -/
def absolute (p : Path) (working : List String) : Path where
  root := if p.root == "" then "/" else p.root
  parts := collapse (p.fromTop working)

end Path
end Polyad
