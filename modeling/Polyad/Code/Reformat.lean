import Polyad.Code.Document
import Polyad.Text.Identifier

/-!
# Reformatting

A reformatter for the texts of a run, which has nothing else to do on them as long as lines may have
any length: it leaves a single empty line between the import block and an assignment right after it,
and refuses a text that imports from a module whose path holds a keyword. Lines are not wrapped.
-/

namespace Polyad.Code

/-- Words of the language that are taken for names nevertheless. -/
def toleratedKeywords : List String := ["None", "True", "False", "async", "await"]

/-- Whether a line imports from a path with a keyword in it. -/
def importsKeyword (line : String) : Bool :=
  startsImport line && (Text.dotParts ((Text.words line).getD 1 "")).any fun part =>
    Text.isHardKeyword part && !toleratedKeywords.contains part

/-- Whether a line at the margin starts an assignment: no definition and no decorator. -/
def startsAssignment (line : String) : Bool :=
  ["class ", "def ", "@"].all fun start => !start.toList.isPrefixOf line.toList

/-- One empty line in place of two in front of an assignment. -/
def closeGap : List String → List String
  | "" :: "" :: line :: rest =>
    if startsAssignment line then "" :: line :: rest else "" :: "" :: line :: rest
  | ls => ls

def reformat : Reformatter := fun _ text =>
  let ls := Text.lines text
  let anchor := (importAnchor? ls).getD 0
  let rest := if anchor == 0 then ls else closeGap (ls.drop anchor)
  if (ls.take anchor).any importsKeyword then none
  else some (Text.joinLines (ls.take anchor ++ rest))

end Polyad.Code
