import Polyad.Code.Layout

/-!
# Documents

The final text of a generated file: the header as comments, the import block, the marker, the
explanations as comments, then the definitions. The marker stands right after the last import, which
`importAnchor` finds by reading the lines.
-/

namespace Polyad.Code

def marker : String := "# AUTO GENERATED, DO NOT EDIT"

def commentLine (line : String) : String := if line == "" then "#" else "# " ++ line

def startsImport (line : String) : Bool :=
  "import ".toList.isPrefixOf line.toList || "from ".toList.isPrefixOf line.toList

/-- Whether a line opens an import that runs on to a closing parenthesis. -/
def opensImport (line : String) : Bool := line.toList.contains '(' && !line.toList.contains ')'

/-- Reads the lines from number `index` on; `opened` says that an import runs on, `anchor` is the
end of the last one that is complete. -/
def anchorFrom (index : Nat) (opened : Bool) (anchor : Option Nat) : List String → Option Nat
  | [] => if opened then some index else anchor
  | line :: rest =>
    if opened then
      if line.toList.contains ')' then anchorFrom (index + 1) false (some (index + 1)) rest
      else anchorFrom (index + 1) true anchor rest
    else if startsImport line then
      if opensImport line then anchorFrom (index + 1) true anchor rest
      else anchorFrom (index + 1) false (some (index + 1)) rest
    else anchorFrom (index + 1) false anchor rest

/-- The number of lines up to the end of the last import at the start of a line. -/
def importAnchor? (ls : List String) : Option Nat := anchorFrom 0 false none ls

def importAnchor (ls : List String) (filename : String) : Except Error Nat :=
  match importAnchor? ls with
  | some n => .ok n
  | none => .error (.noImportBlock filename)

/-- The lines with a block put in front of number `anchor`. -/
def insertAt (ls : List String) (anchor : Nat) (block : List String) : List String :=
  ls.take anchor ++ block ++ ls.drop anchor

def withHeader (header : List String) (text : String) : String :=
  if header.isEmpty then text else endLines (header.map commentLine) ++ text

/-- A rendered text with header, marker and comment. -/
def wrap (header comment : List String) (filename text : String) : Except Error String := do
  let ls := Text.lines (Text.normalize text)
  let anchor ← importAnchor ls filename
  let block := "" :: marker :: comment.map commentLine
  return Text.normalize (withHeader header (Text.joinLines (insertAt ls anchor block)))

/-- The file with its import block resolved. -/
def File.resolve (f : File) : File := { f with imports := f.collectImports }

/-- The final text of a file. -/
def File.document (f : File) (finish : Finish) (header : List String) : Except Error String := do
  let resolved := f.resolve
  wrap header f.comment f.filename (← resolved.layout finish)

end Polyad.Code
