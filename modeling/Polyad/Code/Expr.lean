import Polyad.Value

/-!
# Statements

The bodies of generated functions: statements and expressions of the target language, just enough of
it to say what the members of a tuple family do. `Expr.text` and `Stmt.lines` write them out;
`Expr.eval` and `Stmt.run` give them their meaning elsewhere. A text that comes from outside is kept
as it is: `raw` for a line, `name` for an expression.
-/

namespace Polyad.Code

/-- The type of a parameter, of a result or of a base class. -/
inductive TypeTerm where
  | name (s : String)
  | applied (head : String) (args : List TypeTerm)
  | callable (params : List TypeTerm) (result : TypeTerm)
  deriving Inhabited, Repr

namespace TypeTerm

mutual

def text : TypeTerm → String
  | name s => s
  | applied head args => head ++ "[" ++ ", ".intercalate (texts args) ++ "]"
  | callable params result =>
    "Callable[[" ++ ", ".intercalate (texts params) ++ "], " ++ result.text ++ "]"

def texts : List TypeTerm → List String
  | [] => []
  | t :: ts => t.text :: texts ts

end

/-- A type with arguments; without any it is its bare name. -/
def generic (head : String) (args : List TypeTerm) : TypeTerm :=
  if args.isEmpty then name head else applied head args

def names (ss : List String) : List TypeTerm := ss.map name

end TypeTerm

inductive Expr where
  | name (s : String)
  | int (n : Int)
  | literal (s : String)
  | attr (e : Expr) (field : String)
  | call (f : Expr) (args : List Expr)
  /-- All items of a value, as arguments of a call. -/
  | spread (e : Expr)
  /-- An argument of a call that is given by name. -/
  | keyword (s : String) (e : Expr)
  | tuple (items : List Expr)
  | list (items : List Expr)
  | dict (entries : List (Expr × Expr))
  | index (e i : Expr)
  | identical (a b : Expr)
  | equal (a b : Expr)
  | more (a b : Expr)
  | minus (a b : Expr)
  | negate (e : Expr)
  /-- A text with values in it: literals stand for themselves. -/
  | template (parts : List Expr)
  /-- A value in a template, shown as inside a collection. -/
  | shown (e : Expr)
  deriving Inhabited, Repr

namespace Expr

mutual

def text : Expr → String
  | name s => s
  | int n => toString n
  | literal s => "\"" ++ s ++ "\""
  | attr e field => e.text ++ "." ++ field
  | call f args => f.text ++ "(" ++ ", ".intercalate (texts args) ++ ")"
  | spread e => "*" ++ e.text
  | keyword s e => s ++ "=" ++ e.text
  | tuple items => tupleText (texts items)
  | list items => listText (texts items)
  | dict entries => dictText (entryTexts entries)
  | index e i => e.text ++ "[" ++ i.text ++ "]"
  | identical a b => a.text ++ " is " ++ b.text
  | equal a b => a.text ++ " == " ++ b.text
  | more a b => a.text ++ " > " ++ b.text
  | minus a b => a.text ++ " - " ++ b.text
  | negate e => "not " ++ e.text
  | template parts => "f\"" ++ "".intercalate (partTexts parts) ++ "\""
  | shown e => e.text ++ "!r"

def texts : List Expr → List String
  | [] => []
  | e :: es => e.text :: texts es

def entryTexts : List (Expr × Expr) → List String
  | [] => []
  | (k, v) :: rest => (k.text ++ ": " ++ v.text) :: entryTexts rest

def partTexts : List Expr → List String
  | [] => []
  | literal s :: rest => s :: partTexts rest
  | e :: rest => ("\x7b" ++ e.text ++ "\x7d") :: partTexts rest

end

/-- The attributes of the value called `owner`. -/
def attrs (owner : String) (fields : List String) : List Expr :=
  fields.map (attr (name owner))

def calls (f : String) (args : List Expr) : Expr := call (name f) args

end Expr

inductive Stmt where
  | expr (e : Expr)
  | ret (e : Expr)
  | fail (e : Expr)
  /-- The items of a value under names of their own. -/
  | unpack (targets : List String) (e : Expr)
  /-- A statement that is run on a condition. -/
  | when (c : Expr) (s : Stmt)
  /-- A call with a line for each argument. -/
  | callByLine (f : Expr) (args : List Expr)
  | raw (line : String)
  deriving Inhabited, Repr

/-- The indentation of one level. -/
def indent : String := "    "

namespace Stmt

def lines : Stmt → List String
  | expr e => [e.text]
  | ret e => ["return " ++ e.text]
  | fail e => ["raise " ++ e.text]
  | unpack targets e => [", ".intercalate targets ++ " = " ++ e.text]
  | when c s => ("if " ++ c.text ++ ":") :: s.lines.map (indent ++ ·)
  | callByLine f args =>
    (f.text ++ "(") :: args.map (fun a => indent ++ a.text ++ ",") ++ [")"]
  | raw line => [line]

end Stmt
end Polyad.Code
