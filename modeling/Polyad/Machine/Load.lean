import Polyad.Generated.Files
import Polyad.Machine.Support

/-!
# Loading files

The program that the two files of a family make. The names of the file of contracts are its classes;
the file of concrete classes is then gone through in order, and its assignments are evaluated with
the names bound so far.
-/

namespace Polyad.Machine

open Code

namespace Program

/-- The program with a class of a module that its name is bound to. -/
def addClass (home : String) (p : Program) (c : ClassDef) : Program :=
  { p with classes := p.classes ++ [c], homes := (c.name, home) :: p.homes }.bind c.name
    (.type c.name)

/-- Calls inside each other that evaluating an assignment may need. -/
def loadDepth : Nat := 8

/-- Executes a definition of a module. -/
def execute (home : String) (p : Program) : Definition → Exec Program
  | .classDef c => return p.addClass home c
  | .function f => return p.bind f.name (.routine (.written f))
  | .assignment a => do
    return p.bind a.target (← (Context.withDepth p loadDepth).eval [] a.value)

/-- Executes the definitions of a module in order. -/
def executeAll (home : String) (p : Program) : List Definition → Exec Program
  | [] => return p
  | d :: ds => do executeAll home (← p.execute home d) ds

/-- The module of a file in a package. -/
def homeOf (package : String) (f : File) : String := package ++ "." ++ f.name

/-- The program of a file of contracts. -/
def ofContracts (package : String) (f : File) : Program :=
  f.classes.foldl (addClass (homeOf package f)) {}

/-- The program of the two files of a family in a package. -/
def load (package : String) (contracts concretes : File) : Exec Program :=
  executeAll (homeOf package concretes) (ofContracts package contracts) concretes.body

/-- The two files of a family, under the names they have by default. -/
def files (f : Family) : Except Error (File × File) := do
  let contracts ← Generated.contractsFile f Support.home "tuples"
  return (contracts, ← Generated.concretesFile f Support.home "tuples" "tuples_impl")

/-- The program of a family whose files are in a package, and the heap after loading it. -/
def ofFamily (package : String) (f : Family) : Except Error (Except Fault Program × Heap) := do
  let (contracts, concretes) ← files f
  return (load package contracts concretes).run {}

end Program
end Polyad.Machine
