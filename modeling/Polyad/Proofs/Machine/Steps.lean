import Polyad.Machine.Support

/-!
# Running the bodies of generated methods

Most of those bodies are one `return` of attributes of `self`. What such a body gives is the value
of its expression under the names of the parameters, and its expression mostly asks for attributes
in a row, each of which is read without a trace.
-/

namespace Polyad.Machine

open Code

/-- The heap once the next label has been given. -/
def Heap.labelled (h : Heap) : Heap := { h with labels := h.labels + 1 }

/-- The heap with one more warning. -/
def Heap.warned (h : Heap) (category message : String) : Heap :=
  { h with warnings := h.warnings ++ [⟨category, message⟩] }

theorem Heap.modify_push_self (h : Heap) (i : Instance) (change : Instance → Instance) :
    (h.push i).modify h.instances.length change = h.push (change i) := by
  simp only [Heap.modify, Heap.push, Heap.mk.injEq, and_true]
  rw [List.modify_eq_set]
  simp

namespace Exec

/-- Steps that do the same, each on its heap, can stand for each other. -/
theorem bind_congr {α β : Type} {a b : Exec α} {g h : Heap} (same : a g = b h) (k : α → Exec β) :
    (a >>= k) g = (b >>= k) h := by
  show ExceptT.bindCont k (a g).1 (a g).2 = ExceptT.bindCont k (b h).1 (b h).2
  rw [same]

theorem tuple_ok {items : List Datum} (ne : items ≠ []) (h : Heap) :
    tuple items h = (.ok (.tuple items h.labels), h.labelled) := by
  have filled : items.isEmpty = false := by simpa using ne
  rw [tuple, filled]
  rfl

end Exec

/-! ## Names of a call -/

theorem lookup_of_nodup {entries : List (String × Datum)} {name : String} {v : Datum}
    (nodup : (entries.map Prod.fst).Nodup) (mem : (name, v) ∈ entries) :
    entries.lookup name = some v := by
  induction entries with
  | nil => cases mem
  | cons entry rest ih =>
    rw [List.map_cons, List.nodup_cons] at nodup
    rcases List.mem_cons.1 mem with rfl | mem
    · exact List.lookup_cons_self
    · have ne : (name == entry.1) = false := by
        refine beq_false_of_ne fun eq => nodup.1 ?_
        rw [← eq]
        exact List.mem_map_of_mem (f := Prod.fst) mem
      rw [List.lookup_cons, ne]
      exact ih nodup.2 mem

theorem lookup_eq_none_of_not_mem {entries : List (String × Datum)} {name : String}
    (absent : name ∉ entries.map Prod.fst) : entries.lookup name = none := by
  refine List.lookup_eq_none_iff.2 fun entry mem => ?_
  have ne : name ≠ entry.1 := fun eq => absent (eq ▸ List.mem_map_of_mem mem)
  simpa using ne

/-- What a name stands for in a call: a local value hides what the program binds it to. -/
def Program.Means (p : Program) (locals : Locals) (name : String) (v : Datum) : Prop :=
  (locals.lookup name).or (p.lookup name) = some v

theorem Program.Means.local {p : Program} {locals : Locals} {name : String} {v : Datum}
    (bound : locals.lookup name = some v) : p.Means locals name v := by
  rw [Means, bound]
  rfl

theorem Program.Means.global {p : Program} {locals : Locals} {name : String} {v : Datum}
    (free : locals.lookup name = none) (bound : p.lookup name = some v) :
    p.Means locals name v := by
  rw [Means, free, bound]
  rfl

/-- Parameters that are not variadic take the arguments in order. -/
theorem bindArguments_eq {ps : List Parameter} {args : List Datum}
    (plain : ps.all (!·.variadic) = true) (length : ps.length = args.length) :
    bindArguments ps args = pure ((ps.map Parameter.name).zip args) := by
  induction ps generalizing args with
  | nil =>
    cases args with
    | nil => rfl
    | cons v rest => cases length
  | cons p ps ih =>
    cases args with
    | nil => cases length
    | cons v rest =>
      rw [List.all_cons, Bool.and_eq_true, Bool.not_eq_true'] at plain
      rw [bindArguments, plain.1, ih plain.2 (Nat.succ.inj length)]
      rfl

namespace Context

variable {cx : Context} {locals : Locals} {h h' : Heap}

/-! ## Bodies -/

theorem runBody_cons {s : Stmt} {locals' : Locals}
    (step : cx.runStmt locals s h = (.ok (.next locals'), h')) (rest : List Stmt) :
    cx.runBody locals (s :: rest) h = cx.runBody locals' rest h' := by
  rw [runBody, Exec.bind_ok step]

theorem runFunction_eq {f : Function} {args : List Datum}
    (bound : bindArguments f.parameters args = pure locals) :
    cx.runFunction f args = cx.runBody locals f.body := by
  rw [runFunction, bound, pure_bind]

/-- A method with one expression for a body. -/
theorem runFunction_ret {f : Function} {e : Expr} {args : List Datum} (body : f.body = [.ret e])
    (plain : f.parameters.all (!·.variadic) = true)
    (length : f.parameters.length = args.length) :
    cx.runFunction f args = cx.eval ((f.parameters.map Parameter.name).zip args) e := by
  rw [runFunction_eq (bindArguments_eq plain length), body, runBody_ret]

/-! ## Expressions -/

theorem eval_name {name : String} {v : Datum} (means : cx.program.Means locals name v) :
    cx.eval locals (.name name) = pure v := by
  rw [eval, nameValue, means]

/-- Each expression stands for the value at its place, and nothing happens on the way. -/
inductive Evaluates (cx : Context) (locals : Locals) (h : Heap) : List Expr → List Datum → Prop
  | nil : Evaluates cx locals h [] []
  | cons {e : Expr} {v : Datum} {es : List Expr} {vs : List Datum} :
      cx.eval locals e h = (.ok v, h) → Evaluates cx locals h es vs →
      Evaluates cx locals h (e :: es) (v :: vs)

theorem Evaluates.append {as bs : List Expr} {xs ys : List Datum}
    (first : Evaluates cx locals h as xs) (second : Evaluates cx locals h bs ys) :
    Evaluates cx locals h (as ++ bs) (xs ++ ys) := by
  induction first with
  | nil => exact second
  | cons head _ ih => exact .cons head ih

theorem Evaluates.one {e : Expr} {v : Datum} (step : cx.eval locals e h = (.ok v, h)) :
    Evaluates cx locals h [e] [v] := .cons step .nil

/-- An expression that has a value is an ordinary argument. -/
theorem evalArguments_cons {e : Expr} {v : Datum} (step : cx.eval locals e h = (.ok v, h'))
    (rest : List Expr) :
    cx.evalArguments locals (e :: rest) h =
      (cx.evalArguments locals rest >>= fun vs => pure (v :: vs)) h' := by
  cases e
  case spread =>
    rw [eval] at step
    cases step
  case keyword =>
    rw [eval] at step
    cases step
  all_goals
    rw [evalArguments]
    · exact Exec.bind_ok step
    · intros; contradiction
    · intros; contradiction

theorem evalArguments_ok {es : List Expr} {vs : List Datum} (each : Evaluates cx locals h es vs) :
    cx.evalArguments locals es h = (.ok vs, h) := by
  induction each with
  | nil =>
    rw [evalArguments]
    rfl
  | cons head _ ih =>
    rw [evalArguments_cons head, Exec.bind_ok ih]
    rfl

/-- The attributes of a value, if reading each of them gives what a table says. -/
theorem evaluates_attrs {owner : String} {x : Datum} {fields : List String} {vs : List Datum}
    {table : String → Option Datum} (bound : locals.lookup owner = some x)
    (each : ∀ field ∈ fields, ∀ v, table field = some v → cx.getAttribute x field h = (.ok v, h))
    (values : fields.map table = vs.map some) :
    Evaluates cx locals h (Expr.attrs owner fields) vs := by
  induction fields generalizing vs with
  | nil =>
    cases vs with
    | nil => exact .nil
    | cons v vs => cases values
  | cons field fields ih =>
    cases vs with
    | nil => cases values
    | cons v vs =>
      rw [List.map_cons, List.map_cons, List.cons.injEq] at values
      have own : cx.eval locals (.name owner) h = (.ok x, h) := by
        rw [eval_name (.local bound)]
        rfl
      refine .cons ?_ (ih (fun g hg => each g (List.mem_cons_of_mem _ hg)) values.2)
      rw [eval_attr own]
      exact each field List.mem_cons_self v values.1

/-- A call of something with arguments that are there. -/
theorem eval_call {f : Expr} {callee : Datum} {args : List Expr} {vs : List Datum}
    (step : cx.eval locals f h = (.ok callee, h)) (each : Evaluates cx locals h args vs) :
    cx.eval locals (.call f args) h = cx.call callee vs h := by
  rw [eval, Exec.bind_ok step, Exec.bind_ok (evalArguments_ok each)]

/-- A call of something by name. -/
theorem eval_calls {name : String} {callee : Datum} {args : List Expr} {vs : List Datum}
    (means : cx.program.Means locals name callee) (each : Evaluates cx locals h args vs) :
    cx.eval locals (.calls name args) h = cx.call callee vs h := by
  have step : cx.eval locals (.name name) h = (.ok callee, h) := by
    rw [eval_name means]
    rfl
  exact eval_call step each

/-- A call by name of one argument that leaves something behind. -/
theorem eval_calls_one {name : String} {callee v : Datum} {e : Expr}
    (means : cx.program.Means locals name callee) (step : cx.eval locals e h = (.ok v, h')) :
    cx.eval locals (.calls name [e]) h = cx.call callee [v] h' := by
  have own : cx.eval locals (.name name) h = (.ok callee, h) := by
    rw [eval_name means]
    rfl
  have arguments : cx.evalArguments locals [e] h = (.ok [v], h') := by
    rw [evalArguments_cons step, evalArguments]
    rfl
  rw [Expr.calls, eval, Exec.bind_ok own, Exec.bind_ok arguments]

/-- A call by name of what another call gives. -/
theorem eval_calls_call {name : String} {callee : Datum}
    (means : cx.program.Means locals name callee) (f : Expr) (args : List Expr) :
    cx.eval locals (.calls name [.call f args]) =
      (do cx.call callee [← cx.eval locals (.call f args)]) := by
  have argument : cx.evalArguments locals [.call f args] =
      (do return [← cx.eval locals (.call f args)]) := by
    rw [evalArguments]
    · simp [evalArguments]
    · intros; contradiction
    · intros; contradiction
  rw [Expr.calls, eval, eval_name means, pure_bind, argument]
  simp

theorem eval_list {items : List Expr} {vs : List Datum} (each : Evaluates cx locals h items vs) :
    cx.eval locals (.list items) h = (.ok (.list vs h.labels), h.labelled) := by
  rw [eval, Exec.bind_ok (evalArguments_ok each)]
  rfl

theorem eval_tuple {items : List Expr} {vs : List Datum} (each : Evaluates cx locals h items vs)
    (ne : vs ≠ []) :
    cx.eval locals (.tuple items) h = (.ok (.tuple vs h.labels), h.labelled) := by
  rw [eval, Exec.bind_ok (evalArguments_ok each), Exec.tuple_ok ne]

/-- A statement that is not run. -/
theorem runStmt_when_false {c : Expr} (step : cx.eval locals c h = (.ok (.bool false), h'))
    (s : Stmt) : cx.runStmt locals (.when c s) h = (.ok (.next locals), h') := by
  rw [runStmt, Exec.bind_ok step]
  rfl

/-- A statement that is run. -/
theorem runStmt_when_true {c : Expr} (step : cx.eval locals c h = (.ok (.bool true), h'))
    (s : Stmt) : cx.runStmt locals (.when c s) h = cx.runStmt locals s h' := by
  rw [runStmt, Exec.bind_ok step]
  rfl

theorem runStmt_ret {e : Expr} {v : Datum} (step : cx.eval locals e h = (.ok v, h')) :
    cx.runStmt locals (.ret e) h = (.ok (.done v), h') := by
  rw [runStmt, Exec.bind_ok step]
  rfl

/-- A body ends with the first statement that returns. -/
theorem runBody_done {s : Stmt} {v : Datum} (step : cx.runStmt locals s h = (.ok (.done v), h'))
    (rest : List Stmt) : cx.runBody locals (s :: rest) h = (.ok v, h') := by
  rw [runBody, Exec.bind_ok step]
  rfl

/-- A warning of a category; that it is tuned by name changes nothing. -/
theorem eval_warn {message name category tuning : String} {value : Int}
    (means : cx.program.Means locals "warnings" (.builtin .warnings))
    (kind : cx.program.Means locals name (.type category)) :
    cx.eval locals (.call (.attr (.name "warnings") "warn")
        [.literal message, .name name, .keyword tuning (.int value)]) h =
      (.ok .null, h.warned category message) := by
  have callee : cx.eval locals (.attr (.name "warnings") "warn") h = (.ok (.builtin .warn), h) := by
    have own : cx.eval locals (.name "warnings") h = (.ok (.builtin .warnings), h) := by
      rw [eval_name means]
      rfl
    rw [eval_attr own]
    rfl
  have text : cx.eval locals (.literal message) h = (.ok (.text message), h) := by
    rw [eval]
    rfl
  have type : cx.eval locals (.name name) h = (.ok (.type category), h) := by
    rw [eval_name kind]
    rfl
  have tuned : cx.evalArguments locals [.keyword tuning (.int value)] h = (.ok [], h) := by
    simp only [evalArguments, eval, pure_bind]
    rfl
  have second : cx.evalArguments locals [.name name, .keyword tuning (.int value)] h =
      (.ok [.type category], h) := by
    rw [evalArguments_cons type, Exec.bind_ok tuned]
    rfl
  have arguments : cx.evalArguments locals
      [.literal message, .name name, .keyword tuning (.int value)] h =
        (.ok [.text message, .type category], h) := by
    rw [evalArguments_cons text, Exec.bind_ok second]
    rfl
  rw [eval, Exec.bind_ok callee, Exec.bind_ok arguments]
  rfl

/-! ## Attributes and methods of instances -/

variable {id : Nat} {i : Instance} {name : String} {args : List Datum}

theorem className_ok (held : h.get? id = some i) : className id h = (.ok i.className, h) := by
  rw [className, Exec.bind_ok (Exec.getInstance_eq_ok held)]
  rfl

theorem getAttribute_object (held : h.get? id = some i) {a : Attribute}
    (found : cx.program.find? i.className name = some a) :
    cx.getAttribute (.object id) name h = cx.readAttribute id a h := by
  rw [getAttribute, Exec.bind_ok (className_ok held), found]

theorem getAttribute_slot (held : h.get? id = some i) {slot : String} {v : Datum}
    (found : cx.program.find? i.className name = some (.slot slot))
    (value : i.slot? slot = some v) : cx.getAttribute (.object id) name h = (.ok v, h) := by
  rw [getAttribute_object held found, readAttribute, Exec.getSlot,
    Exec.bind_ok (Exec.getInstance_eq_ok held), value]
  rfl

theorem callMethod_object (held : h.get? id = some i) {r : Routine}
    (found : cx.program.find? i.className name = some (.method r)) (args : List Datum) :
    cx.callMethod (.object id) name args h = cx.run r (.object id :: args) h := by
  have read : cx.getAttribute (.object id) name h = (.ok (.method (.object id) r), h) :=
    getAttribute_object held found
  rw [callMethod, Exec.bind_ok read, call]

/-- A routine that is not what every class has got. -/
def IsOwn : Routine → Prop
  | .written _ => True
  | .support owner _ => owner ≠ "object"

theorem special?_ok (held : h.get? id = some i) {r : Routine}
    (found : cx.program.find? i.className name = some (.method r)) (own : IsOwn r) :
    cx.special? id name h = (.ok (some r), h) := by
  have method : cx.method? id name h = (.ok (some r), h) := by
    rw [method?, Exec.bind_ok (className_ok held), found]
    rfl
  rw [special?, Exec.bind_ok method]
  refine congrFun (g := (pure (some r) : Exec (Option Routine))) ?_ h
  split
  · next eq =>
    cases eq
    exact absurd rfl own
  · rfl

theorem send_ok (held : h.get? id = some i) {r : Routine}
    (found : cx.program.find? i.className name = some (.method r)) (own : IsOwn r)
    (args : List Datum) : cx.send id name args h = cx.run r (.object id :: args) h := by
  rw [send, Exec.bind_ok (special?_ok held found own)]

/-- A class with an initialiser makes an instance by running it on an empty one. -/
theorem construct_ok {className : String} {r : Routine} {v : Datum}
    (concrete : cx.program.isConcrete className = true)
    (found : cx.program.find? className "__init__" = some (.method r)) (own : IsOwn r)
    (ran : cx.run r (.object h.instances.length :: args) (h.push ⟨className, []⟩) = (.ok v, h')) :
    cx.construct className args h = (.ok (.object h.instances.length), h') := by
  have allocated : Exec.allocate className h =
      (.ok h.instances.length, h.push ⟨className, []⟩) := rfl
  have special := special?_ok (Heap.get?_push_self h ⟨className, []⟩) found own
  rw [construct, concrete, if_neg (by decide)]
  show (Exec.allocate className >>= _) h = _
  rw [Exec.bind_ok allocated, Exec.bind_ok special]
  dsimp only
  rw [Exec.bind_ok ran]
  rfl

theorem special?_common (held : h.get? id = some i) {method : String}
    (found : cx.program.find? i.className name = some (.method (.support "object" method))) :
    cx.special? id name h = (.ok none, h) := by
  have there : cx.method? id name h = (.ok (some (.support "object" method)), h) := by
    rw [method?, Exec.bind_ok (className_ok held), found]
    rfl
  rw [special?, Exec.bind_ok there]
  rfl

/-- A class without an initialiser of its own makes empty instances. -/
theorem construct_bare {className method : String}
    (concrete : cx.program.isConcrete className = true)
    (found : cx.program.find? className "__init__" = some (.method (.support "object" method))) :
    cx.construct className [] h = (.ok (.object h.instances.length), h.push ⟨className, []⟩) := by
  have allocated : Exec.allocate className h =
      (.ok h.instances.length, h.push ⟨className, []⟩) := rfl
  have special := special?_common (Heap.get?_push_self h ⟨className, []⟩) found
  rw [construct, concrete, if_neg (by decide)]
  show (Exec.allocate className >>= _) h = _
  rw [Exec.bind_ok allocated, Exec.bind_ok special]
  rfl

/-- The operator `+` of an instance is a method of its class. -/
theorem add_object (held : h.get? id = some i) {r : Routine}
    (found : cx.program.find? i.className "__add__" = some (.method r)) (own : IsOwn r)
    (y : Datum) : cx.add (.object id) y h = cx.run r [.object id, y] h := by
  rw [add, Exec.bind_ok (special?_ok held found own)]

end Context
end Polyad.Machine
