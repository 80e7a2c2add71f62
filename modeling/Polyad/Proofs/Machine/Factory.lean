import Polyad.Proofs.Machine.Tuples

/-!
# The factory

What `tuple_of` gives in a loaded family: the tuple of its arguments, without a warning. It is the
null tuple for none, an open-ended one for too many, and otherwise the table of constructors is
asked at the place before their number.
-/

namespace Polyad.Machine

open Code Generated

namespace Context

variable {cx : Context} {locals : Locals} {h h' : Heap}

/-! ## Statements and expressions of the factory -/

/-- A spread tuple is as many arguments as it has items. -/
theorem evalArguments_spread {e : Expr} {vs : List Datum} {label : Nat}
    (step : cx.eval locals e h = (.ok (.tuple vs label), h')) :
    cx.evalArguments locals [.spread e] h = (.ok vs, h') := by
  have items : (cx.eval locals e >>= cx.iterate) h = (.ok vs, h') := by
    rw [Exec.bind_ok step]
    rfl
  have eq : cx.evalArguments locals [.spread e] = cx.eval locals e >>= cx.iterate := by
    simp [evalArguments]
  rw [eq, items]

theorem less_int (a b : Int) : cx.less (.int a) (.int b) = pure (decide (a < b)) := by
  have number : (Number.ofInt a).less (.ofInt b) = decide (a < b) := by
    exact decide_eq_decide.2 Rat.intCast_lt_intCast
  simp only [less, Datum.number?, number]

/-- The values that a family can hold are all at positions. -/
theorem isPosition_natCast {i : Nat} (le : i ≤ 999) : isPosition i = true := by
  have most : Int64.maxValue.toInt = 9223372036854775807 := by decide
  have least : Int64.minValue.toInt = -9223372036854775808 := by decide
  rw [isPosition, most, least]
  simp only [Bool.and_eq_true, decide_eq_true_eq]
  omega

/-- The item of a tuple at a position that a machine word holds. -/
theorem item_tuple {items : List Datum} {i : Nat} (lt : i < items.length)
    (position : isPosition i = true) (label : Nat) (h : Heap) :
    cx.item (.tuple items label) (.int i) h = (.ok items[i], h) := by
  have found : itemAt? items i = some items[i] := by
    have nonneg : ¬(i : Int) < 0 := by omega
    rw [itemAt?, if_neg nonneg, if_neg nonneg, Int.toNat_natCast, List.getElem?_eq_getElem lt]
  simp only [item, sequenceItem, Datum.whole?, position, found]
  rfl

/-! ## Asking for the arguments -/

variable {label : Nat} {vs : List Datum}

theorem eval_values : cx.eval [("values", .tuple vs label)] (.name "values") h =
    (.ok (.tuple vs label), h) := by
  rw [eval_name (.local rfl)]
  rfl

/-- A call with the arguments of the factory. -/
theorem eval_call_values {e : Expr} {callee : Datum}
    (step : cx.eval [("values", .tuple vs label)] e h = (.ok callee, h)) :
    cx.eval [("values", .tuple vs label)] (.call e [.spread (.name "values")]) h =
      cx.call callee vs h := by
  rw [eval, Exec.bind_ok step, Exec.bind_ok (evalArguments_spread eval_values)]

theorem eval_isEmpty : cx.eval [("values", .tuple vs label)] (.negate (.name "values")) h =
    (.ok (.bool vs.isEmpty), h) := by
  rw [eval, Exec.bind_ok eval_values]
  show (Except.ok (Datum.bool !(!vs.isEmpty)), h) = _
  rw [Bool.not_not]

theorem eval_count (len : cx.program.Means [("values", .tuple vs label)] "len" (.builtin .len)) :
    cx.eval [("values", .tuple vs label)] (.calls "len" [.name "values"]) h =
      (.ok (.int vs.length), h) := by
  rw [eval_calls_one len eval_values]
  rfl

theorem eval_isOver (len : cx.program.Means [("values", .tuple vs label)] "len" (.builtin .len))
    (bound : Int) :
    cx.eval [("values", .tuple vs label)] (.more (.calls "len" [.name "values"]) (.int bound)) h =
      (.ok (.bool (decide (bound < vs.length))), h) := by
  rw [eval, Exec.bind_ok (eval_count len), eval, pure_bind, greater, less_int, pure_bind]
  rfl

/-- The item before the number of arguments. -/
theorem eval_constructor {items : List Datum} {table : Nat}
    (len : cx.program.Means [("values", .tuple vs label)] "len" (.builtin .len))
    (constructors : cx.program.Means [("values", .tuple vs label)] "_CONSTRUCTORS"
      (.tuple items table)) {i : Nat} (count : vs.length = i + 1) (lt : i < items.length)
    (position : isPosition i = true) :
    cx.eval [("values", .tuple vs label)] (.index (.name "_CONSTRUCTORS")
        (.minus (.calls "len" [.name "values"]) (.int 1))) h = (.ok items[i], h) := by
  have place : cx.eval [("values", .tuple vs label)]
      (.minus (.calls "len" [.name "values"]) (.int 1)) h = (.ok (.int i), h) := by
    rw [eval, Exec.bind_ok (eval_count len), eval, pure_bind]
    show (Except.ok (Datum.int (vs.length - 1)), h) = _
    have eq : (vs.length : Int) - 1 = i := by omega
    rw [eq]
  rw [eval, eval_name constructors, pure_bind, Exec.bind_ok place, item_tuple lt position]

/-! ## The body of the factory -/

variable {f : Family} {runtime : String} {x : Datum}

/-- A name that the files do not bind has its usual meaning in the factory. -/
theorem means_builtin (u : cx.program.Undisturbed) {name : String} {v : Datum}
    (bound : Program.builtins.lookup name = some v) (ne : name ≠ "values") :
    cx.program.Means [("values", .tuple vs label)] name v := by
  refine .global ?_ (u.names name v bound)
  rw [List.lookup_cons, beq_false_of_ne ne]
  rfl

/-- Without arguments the factory gives what the name of the null tuple stands for. -/
theorem runBody_factory_nil (bound : cx.program.lookup nullInstance = some x) :
    cx.runBody [("values", .tuple [] label)] (factoryFunction f runtime).body h = (.ok x, h) := by
  have name : cx.eval [("values", .tuple [] label)] (.name nullInstance) h = (.ok x, h) := by
    rw [eval_name (.global rfl bound)]
    rfl
  refine runBody_done ?_ _
  rw [runStmt_when_true eval_isEmpty, runStmt_ret name]

/-- With more arguments than there are classes for, the factory makes an open-ended tuple. -/
theorem runBody_factory_over (u : cx.program.Undisturbed) (ne : vs ≠ [])
    (beyond : f.maxArity < vs.length)
    (made : cx.construct Support.openClass vs h = (.ok x, h')) :
    cx.runBody [("values", .tuple vs label)] (factoryFunction f runtime).body h = (.ok x, h') := by
  have empty : cx.eval [("values", .tuple vs label)] (.negate (.name "values")) h =
      (.ok (.bool false), h) := by
    rw [eval_isEmpty, List.isEmpty_eq_false_iff.2 ne]
  have isOver : cx.eval [("values", .tuple vs label)]
      (.more (.calls "len" [.name "values"]) (.int f.maxArity)) h = (.ok (.bool true), h) := by
    rw [eval_isOver (means_builtin u rfl (by decide)), decide_eq_true beyond]
  have name : cx.eval [("values", .tuple vs label)] (.name "TupleN") h =
      (.ok (.type Support.openClass), h) := by
    rw [eval_name (means_builtin u (v := .type Support.openClass) rfl (by decide))]
    rfl
  refine (runBody_cons (runStmt_when_false empty _) _).trans (runBody_done ?_ _)
  rw [runStmt_when_true isOver]
  exact runStmt_ret ((eval_call_values name).trans made)

/-- The factory makes an instance of the class that the table has for the number of arguments. -/
theorem runBody_factory_within (u : cx.program.Undisturbed) {items : List Datum} {table i : Nat}
    (constructors : cx.program.lookup "_CONSTRUCTORS" = some (.tuple items table))
    (count : vs.length = i + 1) (within : ¬f.maxArity < vs.length) (lt : i < items.length)
    (position : isPosition i = true) {className : String} (entry : items[i] = .type className)
    (made : cx.construct className vs h = (.ok x, h')) :
    cx.runBody [("values", .tuple vs label)] (factoryFunction f runtime).body h = (.ok x, h') := by
  have filled : vs.isEmpty = false := by
    rw [List.isEmpty_eq_false_iff, ← List.length_pos_iff]
    omega
  have empty : cx.eval [("values", .tuple vs label)] (.negate (.name "values")) h =
      (.ok (.bool false), h) := by
    rw [eval_isEmpty, filled]
  have isOver : cx.eval [("values", .tuple vs label)]
      (.more (.calls "len" [.name "values"]) (.int f.maxArity)) h = (.ok (.bool false), h) := by
    rw [eval_isOver (means_builtin u rfl (by decide)), decide_eq_false within]
  have picked : cx.eval [("values", .tuple vs label)] (.index (.name "_CONSTRUCTORS")
      (.minus (.calls "len" [.name "values"]) (.int 1))) h = (.ok (.type className), h) := by
    rw [eval_constructor (means_builtin u rfl (by decide)) (.global rfl constructors) count lt
      position, entry]
  refine (runBody_cons (runStmt_when_false empty _) _).trans ?_
  refine (runBody_cons (runStmt_when_false isOver _) _).trans (runBody_done ?_ _)
  exact runStmt_ret ((eval_call_values picked).trans made)

end Context

/-! ## The factory of a loaded family -/

variable {f : Family} {null next : Member} {package : String} {h : Heap} {vs : List Datum}

/-- A tuple of native values leaves a label behind at most. -/
theorem Exec.tuple_eq (vs : List Datum) (h : Heap) :
    ∃ label g, Exec.tuple vs h = (.ok (.tuple vs label), g) ∧ g.instances = h.instances ∧
      g.warnings = h.warnings := by
  by_cases nil : vs = []
  · subst nil
    exact ⟨0, h, rfl, rfl, rfl⟩
  · exact ⟨_, _, Exec.tuple_ok nil h, rfl, rfl⟩

/-- The table of constructors has the class of a number of values at the place before it. -/
theorem getElem_table (members : f.members = null :: f.proper) {i : Nat}
    (lt : (i : Int) < f.maxArity) :
    ∃ m ∈ f.proper, m.arity = (i + 1 : Nat) ∧ ∃ hi : i < (Program.table f).length,
      (Program.table f)[i] = .type m.className := by
  have length := Family.length_members f
  rw [members, List.length_cons] at length
  have hi : i < f.proper.length := by omega
  have own : i + 1 < f.members.length := by
    rw [members, List.length_cons]
    omega
  have arity := Family.arity_getElem f own
  have eq : f.members[i + 1] = f.proper[i] := by simp only [members, List.getElem_cons_succ]
  rw [eq] at arity
  refine ⟨f.proper[i], List.getElem_mem hi, arity, ?_, ?_⟩
  · rw [Program.table, List.length_map]
    exact hi
  · simp [Program.table]

namespace Loadable

variable (l : Loadable f) (members : f.members = null :: f.proper)

include l members

/-- Making an instance of the class for some values makes their tuple. -/
theorem construct_makes (package : String) (next : Member) {m : Member} (mem : m ∈ f.proper)
    (arity : m.arity = vs.length) (h : Heap) (n : Nat) :
    ∃ x h', Makes f ((Context.loaded package f null next (n + 2)).construct m.className vs) h vs []
      x h' := by
  have e := l.emitted_afterLoading members package next mem
  have size : vs.length = m.labels.length := by
    have := e.length_labels
    omega
  exact ⟨_, _, e.construct_eq size h n, .proper mem (e.holds_new size h), .push h _,
    (List.append_nil _).symm⟩

/-- More values than there are classes for make an open-ended tuple. -/
theorem construct_open_makes (package : String) (next : Member) (beyond : f.maxArity < vs.length)
    (h : Heap) (n : Nat) :
    ∃ x h', Makes f ((Context.loaded package f null next (n + 1)).construct Support.openClass vs) h
      vs [] x h' := by
  have ne : vs ≠ [] := by
    rintro rfl
    have := l.pos
    rw [List.length_nil] at beyond
    omega
  exact ⟨_, _, (l.undisturbed_afterLoading members package next).construct_open ne n,
    .openEnded beyond (holdsOpen_new h vs), .withOpen h vs, (List.append_nil _).symm⟩

/-- The body of the factory makes the tuple of the arguments. -/
theorem runBody_factory_makes (package : String) (next : Member) (zero : null.arity = 0)
    (started : Holds h 0 null []) (vs : List Datum) (label n : Nat) :
    ∃ x h', Makes f ((Context.loaded package f null next (n + 2)).runBody
      [("values", .tuple vs label)] (factoryFunction f Support.home).body) h vs [] x h' := by
  have u : (Context.loaded package f null next (n + 2)).program.Undisturbed := by
    rw [Context.program_withDepth]
    exact l.undisturbed_afterLoading members package next
  by_cases nil : vs = []
  · subst nil
    have bound : (Context.loaded package f null next (n + 2)).program.lookup nullInstance =
        some (.object 0) := by
      rw [Context.program_withDepth, l.lookup_nullInstance members]
    exact ⟨_, _, Context.runBody_factory_nil bound, .null (null_mem members) zero started, .refl h,
      (List.append_nil _).symm⟩
  · by_cases beyond : f.maxArity < vs.length
    · obtain ⟨x, h', made⟩ := l.construct_open_makes members package next beyond h (n + 1)
      exact ⟨x, h', { made with ran := Context.runBody_factory_over u nil beyond made.ran }⟩
    · have pos := List.length_pos_iff.2 nil
      have := l.le
      have lt : ((vs.length - 1 : Nat) : Int) < f.maxArity := by omega
      have count : vs.length = vs.length - 1 + 1 := by omega
      have position := Context.isPosition_natCast (i := vs.length - 1) (by omega)
      have constructors : (Context.loaded package f null next (n + 2)).program.lookup
          "_CONSTRUCTORS" = some (.tuple (Program.table f) 1) := by
        rw [Context.program_withDepth, lookup_constructors]
      obtain ⟨m, mem, arity, held, entry⟩ := getElem_table members lt
      have size : m.arity = vs.length := by omega
      obtain ⟨x, h', made⟩ := l.construct_makes members package next mem size h n
      exact ⟨x, h', { made with
        ran := Context.runBody_factory_within u constructors count beyond held position entry
          made.ran }⟩

/-- The factory makes the tuple of its arguments. -/
theorem callNamed_factory (package : String) (next : Member) (zero : null.arity = 0)
    (started : Holds h 0 null []) (vs : List Datum) (n : Nat) :
    ∃ x h', Makes f ((Context.loaded package f null next (n + 3)).callNamed "tuple_of" vs) h vs []
      x h' := by
  obtain ⟨label, g, tupled, instances, warnings⟩ := Exec.tuple_eq vs h
  have within : h.Within g := .of_eq instances
  obtain ⟨x, h', made⟩ :=
    l.runBody_factory_makes members package next zero (within.holds started) vs label n
  have quiet : g.warnings = h.warnings ++ [] := by rw [warnings, List.append_nil]
  refine ⟨x, h', made.after ?_ within quiet⟩
  rw [Context.callNamed, Context.program_withDepth, lookup_factory]
  show ((Exec.tuple vs >>= fun t => pure [("values", t)]) >>= fun locals =>
    (Context.loaded package f null next (n + 2)).runBody locals
      (factoryFunction f Support.home).body) h = _
  rw [bind_assoc, Exec.bind_ok tupled, pure_bind]

end Loadable
end Polyad.Machine
