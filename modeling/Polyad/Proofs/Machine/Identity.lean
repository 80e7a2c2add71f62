import Polyad.Proofs.Machine.Reading
import Polyad.Proofs.Text.Lines

/-!
# Comparing, hashing, showing and reconstructing

What these take of an instance of an emitted class are its values in order: two instances are
compared as the tuples of their values, the hash is that of such a tuple, the text shows the values
one after another, and reconstruction hands them to the class again.
-/

namespace Polyad.Machine

open Code Generated

/-! ## Templates of shown values -/

/-- The texts of `shownRest` for the texts of the values. -/
def textsRest (ss : List String) : List String := ss.flatMap (fun s => [", ", s]) ++ [")"]

theorem concat_textsRest (s : String) (ss : List String) :
    "".intercalate (s :: textsRest ss) = ", ".intercalate (s :: ss) ++ ")" := by
  induction ss generalizing s with
  | nil => simp [textsRest]
  | cons t ts ih =>
    have step : textsRest (t :: ts) = ", " :: t :: textsRest ts := rfl
    rw [String.intercalate_cons_cons, step]
    simp only [Text.concat_cons] at ih ⊢
    rw [ih]
    simp only [String.append_assoc]

namespace Context

variable {cx : Context} {locals : Locals} {g : Heap}

theorem evalParts_literal (s : String) (rest : List Expr) :
    cx.evalParts locals (.literal s :: rest) = (do return s :: (← cx.evalParts locals rest)) := by
  rw [evalParts, eval, pure_bind, plainText, pure_bind]

theorem evalParts_shown {e : Expr} {v : Datum} (step : cx.eval locals e g = (.ok v, g))
    (rest : List Expr) :
    cx.evalParts locals (.shown e :: rest) g =
      (do
        let s ← cx.shown v
        return s :: (← cx.evalParts locals rest)) g := by
  have text (s : String) : cx.plainText (.text s) = pure s := rfl
  rw [evalParts, eval]
  simp only [bind_assoc, pure_bind, text]
  rw [Exec.bind_ok step]

/-- Values shown after others, while something holds that lets each expression stand for its
value. -/
theorem evalParts_shownRest {P : Heap → Prop} {es : List Expr} {vs : List Datum}
    (each : ∀ g, P g → cx.Evaluates locals g es vs)
    (quiet : ∀ v ∈ vs, ∀ g s g', P g → cx.shown v g = (.ok s, g') → P g') (start : P g) :
    cx.evalParts locals (shownRest es) g = (do return textsRest (← cx.shownItems vs)) g := by
  induction es generalizing vs g with
  | nil =>
    cases each g start
    show cx.evalParts locals [.literal ")"] g = _
    rw [evalParts_literal, evalParts, shownItems]
    rfl
  | cons e es ih =>
    cases each g start with
    | @cons _ v _ vs head _ =>
      have rest : ∀ g, P g → cx.Evaluates locals g es vs := fun g hg => by
        cases each g hg with
        | cons _ tail => exact tail
      have later := fun u hu => quiet u (List.mem_cons_of_mem v hu)
      show cx.evalParts locals (.literal ", " :: .shown e :: shownRest es) g = _
      rw [evalParts_literal, Exec.bind_congr (evalParts_shown head _), shownItems]
      simp only [bind_assoc, pure_bind]
      -- Showing the first value may fail, and then nothing else is shown.
      cases ran : cx.shown v g with
      | mk result g' =>
        cases result with
        | error fault => rw [Exec.bind_error ran, Exec.bind_error ran]
        | ok s =>
          have still := quiet v List.mem_cons_self g s g' start ran
          rw [Exec.bind_ok ran, Exec.bind_ok ran, Exec.bind_congr (ih rest later still)]
          simp only [bind_assoc, pure_bind]
          rfl

/-- Values shown in parentheses. -/
theorem eval_shownParts {P : Heap → Prop} {fields : List String} {vs : List Datum} (ne : vs ≠ [])
    (each : ∀ g, P g → cx.Evaluates locals g (ofSelf fields) vs)
    (quiet : ∀ v ∈ vs, ∀ g s g', P g → cx.shown v g = (.ok s, g') → P g') (start : P g) :
    cx.eval locals (.template (shownParts fields)) g =
      (do
        let texts ← cx.shownItems vs
        return Datum.text ("(" ++ ", ".intercalate texts ++ ")")) g := by
  cases fields with
  | nil =>
    cases each g start
    exact absurd rfl ne
  | cons field fields =>
    cases each g start with
    | @cons _ v _ vs head _ =>
      have rest : ∀ g, P g → cx.Evaluates locals g (ofSelf fields) vs := fun g hg => by
        cases each g hg with
        | cons _ tail => exact tail
      have later := fun u hu => quiet u (List.mem_cons_of_mem v hu)
      rw [shownParts_cons, eval, evalParts_literal]
      simp only [bind_assoc, pure_bind]
      rw [Exec.bind_congr (evalParts_shown head _), shownItems]
      simp only [bind_assoc, pure_bind]
      cases ran : cx.shown v g with
      | mk result g' =>
        cases result with
        | error fault => rw [Exec.bind_error ran, Exec.bind_error ran]
        | ok s =>
          have still := quiet v List.mem_cons_self g s g' start ran
          rw [Exec.bind_ok ran, Exec.bind_ok ran,
            Exec.bind_congr (evalParts_shownRest rest later still)]
          simp only [bind_assoc, pure_bind, Text.concat_cons "(", concat_textsRest,
            String.append_assoc]

end Context

/-- The values that a template shows, leaving out what stands for itself. -/
def shown? : Expr → Option Expr
  | .shown e => some e
  | _ => none

theorem filterMap_shownRest (es : List Expr) : (shownRest es).filterMap shown? = es := by
  induction es with
  | nil => rfl
  | cons e es ih =>
    show e :: (shownRest es).filterMap shown? = e :: es
    rw [ih]

/-- A template of values shows all of them in order. -/
theorem filterMap_shownParts (fields : List String) :
    (shownParts fields).filterMap shown? = ofSelf fields := by
  cases fields with
  | nil => rfl
  | cons field fields =>
    rw [shownParts_cons]
    show Expr.attr (.name "self") field :: (shownRest (ofSelf fields)).filterMap shown? = _
    rw [filterMap_shownRest]
    rfl

/-! ## Parts of comparisons -/

namespace Context

variable {cx : Context} {locals : Locals} {h h' : Heap}

theorem eval_negate {e : Expr} {b : Bool} (step : cx.eval locals e h = (.ok (.bool b), h')) :
    cx.eval locals (.negate e) h = (.ok (.bool !b), h') := by
  rw [eval, Exec.bind_ok step]
  rfl

theorem eval_isSelf (cx : Context) (x : Datum) (h : Heap) :
    cx.eval [("self", x), ("other", x)] (.identical (.name "self") (.name "other")) h =
      (.ok (.bool true), h) := by
  rw [eval, eval_name (.local rfl), eval_name (.local rfl), pure_bind, pure_bind,
    Datum.identical_iff.2 rfl]
  rfl

/-- What is there for one and the same value is not run for two. -/
theorem runBody_isOther {x y : Datum} (ne : x ≠ y) (s : Stmt) (rest : List Stmt) :
    cx.runBody [("self", x), ("other", y)]
        (.when (.identical (.name "self") (.name "other")) s :: rest) h =
      cx.runBody [("self", x), ("other", y)] rest h := by
  have apart : cx.eval [("self", x), ("other", y)] (.identical (.name "self") (.name "other")) h =
      (.ok (.bool false), h) := by
    have unequal : x.identical y = false := by
      rw [← Bool.not_eq_true, Datum.identical_iff]
      exact ne
    rw [eval, eval_name (.local rfl), eval_name (.local rfl), pure_bind, pure_bind, unequal]
    rfl
  exact runBody_cons (runStmt_when_false apart s) rest

theorem isInstance_object {id : Nat} {i : Instance} (held : h.get? id = some i) (kind : String) :
    cx.isInstance (.object id) kind h = (.ok (cx.program.isKindOf i.className kind), h) := by
  rw [isInstance, Exec.bind_ok (className_ok held)]
  rfl

end Context

theorem Program.Undisturbed.names_withDepth {p : Program} (u : p.Undisturbed) (name : String)
    {v : Datum} (known : Program.builtins.lookup name = some v) (n : Nat) :
    (Context.withDepth p n).program.lookup name = some v := by
  rw [Context.program_withDepth, u.names name v known]

/-- Whether the other side of a comparison is of a class. -/
theorem Program.Undisturbed.eval_isInstance {p : Program} (u : p.Undisturbed) {h : Heap}
    {className : String} {x y : Datum} {b : Bool} {n : Nat}
    (means : p.Means [("self", x), ("other", y)] className (.type className))
    (kind : (Context.withDepth p n).isInstance y className h = (.ok b, h)) :
    (Context.withDepth p n).eval [("self", x), ("other", y)] (isInstance className) h =
      (.ok (.bool b), h) := by
  have test : (Context.withDepth p n).program.Means [("self", x), ("other", y)] "isinstance"
      (.builtin .isinstance) := .global rfl (u.names_withDepth "isinstance" rfl n)
  have other : (Context.withDepth p n).eval [("self", x), ("other", y)] (.name "other") h =
      (.ok y, h) := by
    rw [Context.eval_name (.local rfl)]
    rfl
  have named : (Context.withDepth p n).eval [("self", x), ("other", y)] (.name className) h =
      (.ok (.type className), h) := by
    rw [Context.eval_name (by rwa [Context.program_withDepth])]
    rfl
  refine (Context.eval_calls test (.cons other (.one named))).trans ?_
  exact Exec.bind_ok kind

variable {p : Program} {m : Member} {f : Family} {runtime : String} {contract concrete : ClassDef}
variable {h : Heap} {id : Nat} {vs : List Datum} {locals : Locals}

namespace Program.Emitted

variable (e : p.Emitted m f runtime contract concrete)

include e

/-- The values of an instance as one. -/
theorem eval_valuesOf (held : Holds h id m vs) {owner : String}
    (bound : locals.lookup owner = some (.object id)) (n : Nat) :
    (Context.withDepth p n).eval locals (valuesOf m owner) h =
      (.ok (.tuple vs h.labels), h.labelled) :=
  Context.eval_tuple (e.evaluates_slots held bound n) (e.ne_nil held)

/-- An instance is equal to itself, whatever it holds. -/
theorem callMethod_equal_self (held : Holds h id m vs) (n : Nat) :
    (Context.withDepth p (n + 1)).callMethod (.object id) "__eq__" [.object id] h =
      (.ok (.bool true), h) := by
  have found := e.find?_concrete (equalMethod m) (by simp [valueIdentity])
  refine (callMethod_body held _ [.object id] found rfl rfl n).trans ?_
  have truth : (Context.withDepth p n).eval [("self", .object id), ("other", .object id)]
      (.name "True") h = (.ok (.bool true), h) := by
    rw [Context.eval_name (.global rfl (e.undisturbed.names_withDepth "True" rfl n))]
    rfl
  have same := Context.eval_isSelf (Context.withDepth p n) (.object id) h
  exact Context.runBody_done
    ((Context.runStmt_when_true same _).trans (Context.runStmt_ret truth)) _

/-- An instance has no answer for anything that is not of its class. -/
theorem callMethod_equal_foreign (held : Holds h id m vs) {y : Datum} (ne : .object id ≠ y)
    (means : p.Means [("self", .object id), ("other", y)] m.className (.type m.className)) {n : Nat}
    (kind : (Context.withDepth p n).isInstance y m.className h = (.ok false, h)) :
    (Context.withDepth p (n + 1)).callMethod (.object id) "__eq__" [y] h =
      (.ok .notImplemented, h) := by
  have found := e.find?_concrete (equalMethod m) (by simp [valueIdentity])
  refine (callMethod_body held _ [y] found rfl rfl n).trans ?_
  have unknown : (Context.withDepth p n).eval [("self", .object id), ("other", y)]
      (.name "NotImplemented") h = (.ok .notImplemented, h) := by
    rw [Context.eval_name (.global rfl (e.undisturbed.names_withDepth "NotImplemented" rfl n))]
    rfl
  have foreign := Context.eval_negate (e.undisturbed.eval_isInstance means kind)
  refine (Context.runBody_isOther ne _ _).trans ?_
  exact Context.runBody_done
    ((Context.runStmt_when_true foreign _).trans (Context.runStmt_ret unknown)) _

/-- Another instance of the class is compared by the values of both. -/
theorem callMethod_equal (held : Holds h id m vs) {other : Nat} {ws : List Datum}
    (theirs : Holds h other m ws) (ne : id ≠ other)
    (means : p.Means [("self", .object id), ("other", .object other)] m.className
      (.type m.className)) (n : Nat) :
    (Context.withDepth p (n + 1)).callMethod (.object id) "__eq__" [.object other] h =
      (do return Datum.bool (← (Context.withDepth p n).equal (.tuple vs h.labels)
        (.tuple ws (h.labels + 1)))) h.labelled.labelled := by
  have found := e.find?_concrete (equalMethod m) (by simp [valueIdentity])
  refine (callMethod_body held _ [.object other] found rfl rfl n).trans ?_
  have apart : Datum.object id ≠ .object other := fun eq => ne (by injection eq)
  have kind : (Context.withDepth p n).isInstance (.object other) m.className h = (.ok true, h) := by
    obtain ⟨i, there, class_eq, -⟩ := theirs
    rw [Context.isInstance_object there, class_eq, Context.program_withDepth, Program.isKindOf_refl]
  have same := Context.eval_negate (e.undisturbed.eval_isInstance means kind)
  refine (Context.runBody_isOther apart _ _).trans ?_
  refine (Context.runBody_cons (Context.runStmt_when_false same _) _).trans ?_
  have later : Holds h.labelled other m ws := theirs.of_get? rfl
  rw [Context.runBody_ret, Context.eval, Exec.bind_ok (e.eval_valuesOf held rfl n),
    Exec.bind_ok (e.eval_valuesOf later rfl n)]
  rfl

theorem callMethod_hash (held : Holds h id m vs) (n : Nat) :
    (Context.withDepth p (n + 1)).callMethod (.object id) "__hash__" [] h =
      (do return Datum.digest (← (Context.withDepth p n).digest (.tuple vs h.labels)))
        h.labelled := by
  have found := e.find?_concrete (hashMethod m) (by simp [valueIdentity])
  have hash : (Context.withDepth p n).program.Means [("self", .object id)] "hash"
      (.builtin .hash) := by
    rw [Context.program_withDepth]
    exact .global rfl (e.undisturbed.names "hash" _ rfl)
  refine (callMethod_ret held _ [] found rfl rfl rfl n).trans ?_
  exact Context.eval_calls_one hash (e.eval_valuesOf held rfl n)

/-- Reconstruction names the class and the values. -/
theorem callMethod_reduce (held : Holds h id m vs) {c : Datum}
    (means : p.Means [("self", .object id)] m.className c) (n : Nat) :
    (Context.withDepth p (n + 1)).callMethod (.object id) "__reduce__" [] h =
      (.ok (.tuple [c, .tuple vs h.labels] (h.labels + 1)), h.labelled.labelled) := by
  have found := e.find?_concrete (reduceMethod m) (by simp [valueIdentity])
  refine (callMethod_ret held _ [] found rfl rfl rfl n).trans ?_
  have named : (Context.withDepth p n).eval [("self", .object id)] (.name m.className) h =
      (.ok c, h) := by
    rw [Context.eval_name (by rwa [Context.program_withDepth])]
    rfl
  have values : (Context.withDepth p n).evalArguments [("self", .object id)] [valuesOf m "self"] h =
      (.ok [.tuple vs h.labels], h.labelled) := by
    rw [Context.evalArguments_cons (e.eval_valuesOf held rfl n), Context.evalArguments]
    rfl
  have arguments : (Context.withDepth p n).evalArguments [("self", .object id)]
      [.name m.className, valuesOf m "self"] h =
        (.ok [c, .tuple vs h.labels], h.labelled) := by
    rw [Context.evalArguments_cons named, Exec.bind_ok values]
    rfl
  show (Context.withDepth p n).eval [("self", .object id)]
    (.tuple [.name m.className, valuesOf m "self"]) h = _
  rw [Context.eval, Exec.bind_ok arguments, Exec.tuple_ok (by simp)]
  rfl

/-- The text of an instance shows its values in order, if showing them leaves it as it is. -/
theorem callMethod_repr (held : Holds h id m vs) (n : Nat)
    (quiet : ∀ v ∈ vs, ∀ g s g', Holds g id m vs →
      (Context.withDepth p n).shown v g = (.ok s, g') → Holds g' id m vs) :
    (Context.withDepth p (n + 1)).callMethod (.object id) "__repr__" [] h =
      (do
        let texts ← (Context.withDepth p n).shownItems vs
        return Datum.text ("(" ++ ", ".intercalate texts ++ ")")) h := by
  have found := e.find?_concrete (reprMethod m) (by simp [valueIdentity])
  refine (callMethod_ret held _ [] found rfl rfl rfl n).trans ?_
  exact Context.eval_shownParts (e.ne_nil held) (fun g hg => e.evaluates_slots hg rfl n) quiet held

end Program.Emitted
end Polyad.Machine
