import Polyad.Code.ImportBlock
import Polyad.Text.Identifier

/-!
# Layout

The text of a file from its outline: the import block, then the definitions in order, two empty
lines between them, but none between two assignments. Lines are never wrapped here; that is left to
a reformatter, which may have the last word. A function without a body gets an ellipsis, a class
without anything in it `pass`.
-/

namespace Polyad.Code

/-- Puts a line one level deeper; an empty line stays empty. -/
def indented (line : String) : String := if line == "" then "" else indent ++ line

def Parameter.text (p : Parameter) : String :=
  let name := if p.variadic then "*" ++ p.name else p.name
  let annotation := (p.annotation.map TypeTerm.text).getD ""
  let typed := if annotation == "" then name else name ++ ": " ++ annotation
  match p.default with
  | none => typed
  | some d => if annotation == "" then typed ++ "=" ++ d else typed ++ " = " ++ d

/-- A continuation line of a docstring; one of blanks only is emptied. -/
def docstringLine (line : String) : String :=
  if line.toList.all Text.isBlank then "" else line

/-- A docstring between its delimiters; the closing one has a line of its own if there are several.
-/
def docstringLines (doc : String) : List String :=
  let inner := Text.dropTrailing '\n' (Text.dropLeading '\n' doc.toList)
  match Text.lines (String.ofList inner) with
  | [] => []
  | [line] => ["\"\"\"" ++ line ++ "\"\"\""]
  | line :: rest => ("\"\"\"" ++ line) :: rest.map docstringLine ++ ["\"\"\""]

/-- The text that the docstring of a class stands for: what is between its delimiters. -/
def docstringText (doc : String) : String :=
  let written := (Text.joinLines ((docstringLines doc).map indented)).toList
  String.ofList ((written.drop 7).take (written.length - 10))

/-- A docstring that is there and not empty. -/
def shownDocstring (doc : Option String) : Option String := doc.filter (· != "")

def optionalDocstring (doc : Option String) : List String :=
  ((shownDocstring doc).map docstringLines).getD []

def Function.header (f : Function) : String :=
  let returns := (f.returns.map TypeTerm.text).getD ""
  "def " ++ f.name ++ "(" ++ ", ".intercalate (f.parameters.map Parameter.text) ++ ")" ++
    (if returns == "" then "" else " -> " ++ returns) ++ ":"

/-- The lines below the header, relative to it. -/
def Function.inner (f : Function) : List String :=
  let inner := optionalDocstring f.docstring ++ f.lines
  if (shownDocstring f.docstring).isNone && f.body.isEmpty then ["..."] else inner

def Function.layout (f : Function) : List String :=
  f.decorators.map ("@" ++ ·) ++ f.header :: f.inner.map indented

def Assignment.layout (a : Assignment) : List String := [a.target ++ " = " ++ a.value.text]

namespace ClassItem

def layout : ClassItem → List String
  | function f => f.layout
  | assignment a => a.layout

/-- The items of a class, an empty line between them unless both are assignments. -/
def layoutAll : List ClassItem → List String
  | [] => []
  | [item] => item.layout
  | item :: next :: rest =>
    item.layout ++ (if item.isAssignment && next.isAssignment then [] else [""]) ++
      layoutAll (next :: rest)

end ClassItem

namespace ClassDef

def header (c : ClassDef) : String :=
  let bases := c.bases.map TypeTerm.text
  "class " ++ c.name ++ (if bases.isEmpty then "" else "(" ++ ", ".intercalate bases ++ ")") ++ ":"

def inner (c : ClassDef) : List String :=
  let doc := shownDocstring c.docstring
  if doc.isNone && c.items.isEmpty then ["pass"]
  else
    optionalDocstring c.docstring ++ (if doc.isSome && !c.items.isEmpty then [""] else []) ++
      ClassItem.layoutAll c.items

def layout (c : ClassDef) : List String := c.header :: c.inner.map indented

end ClassDef

namespace Definition

def layout : Definition → List String
  | classDef c => c.layout
  | function f => f.layout
  | assignment a => a.layout

/-- The empty lines between two definitions. -/
def gap (a b : Definition) : List String :=
  if a.isAssignment && b.isAssignment then [] else ["", ""]

def layoutAll : List Definition → List String
  | [] => []
  | [d] => d.layout
  | d :: next :: rest => d.layout ++ gap d next ++ layoutAll (next :: rest)

end Definition

/-- The text of some lines, each ended by a line feed. -/
def endLines (ls : List String) : String := Text.joinLines ls ++ "\n"

def ClassDef.render (c : ClassDef) : String := endLines c.layout

/-- Who has the last word on the layout of a file. -/
inductive Formatter where
  | plain
  /-- A reformatter of source text. -/
  | black
  deriving DecidableEq, Repr

namespace Formatter

def name : Formatter → String
  | plain => "plain"
  | black => "black"

def all : List Formatter := [plain, black]

def ofName? (s : String) : Option Formatter := all.find? (·.name == s)

theorem ofName?_name (f : Formatter) : ofName? f.name = some f := by cases f <;> decide

end Formatter

/-- What is done last with the text of a file: it is laid out anew, or refused. -/
def Finish := String → Option String

/-- The text stays as it is. -/
def Finish.plain : Finish := some

/-- What lays text out anew, with lines of at most the given length. -/
abbrev Reformatter := Int → Finish

/-- The length of a line that may have any length. -/
def unboundedLineLength : Int := 0x7fffffffffffffff

/-- The lines of a file whose import block is `head`. -/
def File.linesBelow (f : File) (head : List String) : List String :=
  match head, f.body with
  | [], body => Definition.layoutAll body
  | head, [] => head
  | head, first :: rest => head ++ ["", ""] ++ Definition.layoutAll (first :: rest)

/-- The text of a file without header, marker and comment. -/
def File.layout (f : File) (finish : Finish) : Except Error String := do
  let text := endLines (f.linesBelow (← renderImports f.imports))
  match finish text with
  | some finished => return finished
  | none => throw (.rejectedSource f.filename text.length)

theorem File.layout_plain (f : File) :
    f.layout .plain = (renderImports f.imports).map fun head => endLines (f.linesBelow head) := by
  unfold layout
  cases renderImports f.imports <;> rfl

end Polyad.Code
