import Polyad.Machine.Call

/-!
# Running bodies

The meaning of statements and expressions. A name stands for a local value or else for what the
program binds it to. A body runs until it returns; one that does not return gives nothing.
-/

namespace Polyad.Machine

open Code

/-- The local names of a call. -/
abbrev Locals := List (String × Datum)

/-- Where running goes on after a statement. -/
inductive Flow where
  | next (locals : Locals)
  | done (result : Datum)

namespace Context

variable (cx : Context)

def nameValue (locals : Locals) (name : String) : Exec Datum := do
  match (locals.lookup name).or (cx.program.lookup name) with
  | some v => return v
  | none => throw (.unknownName name)

/-- Whether the number on the left is the greater one. -/
def greater (x y : Datum) : Exec Bool := cx.less y x

def subtract (x y : Datum) : Exec Datum := do
  match x.whole?, y.whole? with
  | some a, some b => return .int (a - b)
  | _, _ => throw .wrongType

mutual

/-- The value of an expression. -/
def eval (locals : Locals) : Expr → Exec Datum
  | .name s => cx.nameValue locals s
  | .int n => return .int n
  | .literal s => return .text s
  | .attr e field => do cx.getAttribute (← eval locals e) field
  | .call f args => do
    let callee ← eval locals f
    cx.call callee (← evalArguments locals args)
  | .tuple items => do Exec.tuple (← evalArguments locals items)
  | .list items => do Exec.list (← evalArguments locals items)
  | .dict entries => do Exec.dict (← cx.putEntries (← evalEntries locals entries))
  | .index e i => do
    let x ← eval locals e
    cx.item x (← eval locals i)
  | .identical a b => do
    let x ← eval locals a
    return .bool (x.identical (← eval locals b))
  | .equal a b => do
    let x ← eval locals a
    return .bool (← cx.equal x (← eval locals b))
  | .more a b => do
    let x ← eval locals a
    return .bool (← cx.greater x (← eval locals b))
  | .minus a b => do
    let x ← eval locals a
    subtract x (← eval locals b)
  | .negate e => do return .bool !(← cx.truth (← eval locals e))
  | .template parts => do return .text ("".intercalate (← evalParts locals parts))
  | .shown e => do return .text (← cx.shown (← eval locals e))
  | .spread _ => throw .wrongType
  | .keyword .. => throw .wrongType

/-- The values of arguments in order. A spread one stands for its items; one given by name only
tunes a warning and stands for nothing. -/
def evalArguments (locals : Locals) : List Expr → Exec (List Datum)
  | [] => return []
  | .spread e :: rest => do
    let vs ← cx.iterate (← eval locals e)
    return vs ++ (← evalArguments locals rest)
  | .keyword _ e :: rest => do
    let _ ← eval locals e
    evalArguments locals rest
  | e :: rest => do
    let v ← eval locals e
    return v :: (← evalArguments locals rest)

def evalEntries (locals : Locals) : List (Expr × Expr) → Exec (List (Datum × Datum))
  | [] => return []
  | (k, e) :: rest => do
    let key ← eval locals k
    let v ← eval locals e
    return (key, v) :: (← evalEntries locals rest)

def evalParts (locals : Locals) : List Expr → Exec (List String)
  | [] => return []
  | e :: rest => do
    let s ← cx.plainText (← eval locals e)
    return s :: (← evalParts locals rest)

end

/-- Names for the items of a value, of which there must be as many. -/
def unpackInto (locals : Locals) (targets : List String) (x : Datum) : Exec Locals := do
  let items ← cx.iterate x
  if items.length < targets.length then throw (.tooFew targets.length items.length)
  if targets.length < items.length then throw (.tooMany targets.length)
  return targets.zip items ++ locals

/-- Raises a value, which must be a failure. -/
def raise : Datum → Exec Flow
  | .failure message => throw (.unsupported message)
  | _ => throw .wrongType

def runStmt (locals : Locals) : Stmt → Exec Flow
  | .expr e => do
    let _ ← cx.eval locals e
    return .next locals
  | .ret e => do return .done (← cx.eval locals e)
  | .fail e => do raise (← cx.eval locals e)
  | .unpack targets e => do
    return .next (← cx.unpackInto locals targets (← cx.eval locals e))
  | .when c s => do
    if ← cx.truth (← cx.eval locals c) then runStmt locals s else return .next locals
  | .callByLine f args => do
    let _ ← cx.eval locals (.call f args)
    return .next locals
  | .raw _ => throw .wrongType

/-- Runs statements in order until one returns. -/
def runBody (locals : Locals) : List Stmt → Exec Datum
  | [] => return .null
  | s :: rest => do
    match ← cx.runStmt locals s with
    | .next locals => runBody locals rest
    | .done v => return v

theorem runBody_ret (locals : Locals) (e : Expr) :
    cx.runBody locals [.ret e] = cx.eval locals e := by
  simp [runBody, runStmt]

theorem eval_attr {cx : Context} {locals : Locals} {h h' : Heap} {e : Expr} {x : Datum}
    (step : cx.eval locals e h = (.ok x, h')) (field : String) :
    cx.eval locals (.attr e field) h = cx.getAttribute x field h' := by
  rw [eval, Exec.bind_ok step]

end Context

/-- The local names of a call: a variadic parameter takes all that is left. -/
def bindArguments : List Parameter → List Datum → Exec Locals
  | [], [] => return []
  | [], _ :: _ => throw .wrongType
  | p :: ps, args =>
    if p.variadic then do
      let rest ← Exec.tuple args
      return (p.name, rest) :: (← bindArguments ps [])
    else
      match args with
      | [] => throw .wrongType
      | v :: rest => do return (p.name, v) :: (← bindArguments ps rest)

/-- Calls a function of a file. -/
def Context.runFunction (cx : Context) (f : Function) (args : List Datum) : Exec Datum := do
  cx.runBody (← bindArguments f.parameters args) f.body

end Polyad.Machine
