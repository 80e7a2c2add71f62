import Polyad.Proofs.Machine.Stored

/-!
# Reading and handing on values

An instance of an emitted class gives its values in order: by slot, accessor and component, in
iteration and conversion, to the functions handed to its transforms, and to the class that its
extension makes an instance of.
-/

namespace Polyad.Machine

open Code Generated

variable {p : Program} {m : Member} {f : Family} {runtime : String} {contract concrete : ClassDef}
variable {h : Heap} {id : Nat} {vs : List Datum} {locals : Locals}

/-- What leaving the family says. -/
def overflowNotice (m : Member) : String :=
  s!"Extending a {m.arity}-tuple creates a TupleN; static arity typing ends here"

/-- What a class without an extension says. -/
def refusalNotice (m : Member) : String := m.className ++ " does not support chain-extension"

namespace Program.Emitted

variable (e : p.Emitted m f runtime contract concrete)

include e

/-! ## Slots and accessors -/

/-- The slots of a value that is an instance hold its values in order. -/
theorem evaluates_slots (held : Holds h id m vs) {owner : String}
    (bound : locals.lookup owner = some (.object id)) (n : Nat) :
    (Context.withDepth p n).Evaluates locals h (Expr.attrs owner (slots m)) vs := by
  obtain ⟨i, found, class_eq, values⟩ := held
  refine Context.evaluates_attrs bound ?_ values
  intro slot mem v value
  obtain ⟨l, hl, rfl⟩ := List.mem_map.1 mem
  refine Context.getAttribute_slot found ?_ value
  rw [Context.program_withDepth, class_eq, e.find?_slot hl]

theorem getAttribute_label {i : Instance} (found : h.get? id = some i)
    (class_eq : i.className = m.className) {l : String} (mem : l ∈ m.labels) {v : Datum}
    (value : i.slot? (slotName l) = some v) (n : Nat) :
    (Context.withDepth p (n + 1)).getAttribute (.object id) l h = (.ok v, h) := by
  obtain ⟨fn, answer, params, body⟩ := e.find?_label mem
  have property : (Context.withDepth p (n + 1)).program.find? i.className l =
      some (.property (.written fn)) := by
    rw [Context.program_withDepth, class_eq, answer]
  rw [Context.getAttribute_object found property]
  show (Context.withDepth p n).runFunction fn [.object id] h = _
  have own : (Context.withDepth p n).eval [("self", .object id)] (.name "self") h =
      (.ok (.object id), h) := by
    rw [Context.eval_name (.local rfl)]
    rfl
  rw [Context.runFunction_ret body (by simp [params, selfParameter]) (by simp [params]), params]
  refine (Context.eval_attr own _).trans ?_
  refine Context.getAttribute_slot found ?_ value
  rw [Context.program_withDepth, class_eq, e.find?_slot mem]

/-- The accessors of an instance give its values in order. -/
theorem evaluates_labels (held : Holds h id m vs) {owner : String}
    (bound : locals.lookup owner = some (.object id)) (n : Nat) :
    (Context.withDepth p (n + 1)).Evaluates locals h (Expr.attrs owner m.labels) vs := by
  obtain ⟨i, found, class_eq, values⟩ := held
  have table : m.labels.map (fun l => i.slot? (slotName l)) = vs.map some := by
    rw [← values, slots, List.map_map]
    rfl
  refine Context.evaluates_attrs bound ?_ table
  intro l mem v value
  exact e.getAttribute_label found class_eq mem value n

/-- The accessor of a position gives the value there. -/
theorem getAttribute_getElem (held : Holds h id m vs) {j : Nat} (hl : j < m.labels.length)
    (hv : j < vs.length) (n : Nat) :
    (Context.withDepth p (n + 1)).getAttribute (.object id) m.labels[j] h = (.ok vs[j], h) := by
  obtain ⟨i, found, class_eq, values⟩ := held
  refine e.getAttribute_label found class_eq (List.getElem_mem hl) ?_ n
  have hj : j < (vs.map some).length := by simpa using hv
  have entry := List.getElem_of_eq values.symm hj
  simpa [slots] using entry.symm

/-! ## Methods -/

theorem ne_nil (held : Holds h id m vs) : vs ≠ [] := by
  intro nil
  have := held.length
  have := e.length_labels
  have := e.proper
  rw [nil, List.length_nil] at *
  omega

omit e in
/-- A method runs its body one call further in. -/
theorem callMethod_body (held : Holds h id m vs) (fn : Function) (args : List Datum)
    (found : p.find? m.className fn.name = some (.method (.written fn)))
    (plain : fn.parameters.all (!·.variadic) = true)
    (length : fn.parameters.length = args.length + 1) (n : Nat) :
    (Context.withDepth p (n + 1)).callMethod (.object id) fn.name args h =
      (Context.withDepth p n).runBody
        ((fn.parameters.map Parameter.name).zip (.object id :: args)) fn.body h := by
  obtain ⟨i, there, class_eq, -⟩ := held
  have answer : (Context.withDepth p (n + 1)).program.find? i.className fn.name =
      some (.method (.written fn)) := by
    rw [Context.program_withDepth, class_eq, found]
  rw [Context.callMethod_object there answer]
  show (Context.withDepth p n).runFunction fn (.object id :: args) h = _
  rw [Context.runFunction_eq (bindArguments_eq plain (by rw [length, List.length_cons]))]

omit e in
/-- A method with one expression for a body gives the value of the expression. -/
theorem callMethod_ret (held : Holds h id m vs) (fn : Function) {expr : Expr} (args : List Datum)
    (found : p.find? m.className fn.name = some (.method (.written fn)))
    (body : fn.body = [.ret expr]) (plain : fn.parameters.all (!·.variadic) = true)
    (length : fn.parameters.length = args.length + 1) (n : Nat) :
    (Context.withDepth p (n + 1)).callMethod (.object id) fn.name args h =
      (Context.withDepth p n).eval ((fn.parameters.map Parameter.name).zip (.object id :: args))
        expr h := by
  rw [callMethod_body held fn args found plain length, body, Context.runBody_ret]

omit e in
/-- The same for a special method, sent to an instance. -/
theorem send_ret (held : Holds h id m vs) {fn : Function} {expr : Expr}
    (found : p.find? m.className fn.name = some (.method (.written fn)))
    (body : fn.body = [.ret expr]) (params : fn.parameters = [selfParameter]) (n : Nat) :
    (Context.withDepth p (n + 1)).send id fn.name [] h =
      (Context.withDepth p n).eval [("self", .object id)] expr h := by
  obtain ⟨i, there, class_eq, -⟩ := held
  have answer : (Context.withDepth p (n + 1)).program.find? i.className fn.name =
      some (.method (.written fn)) := by
    rw [Context.program_withDepth, class_eq, found]
  rw [Context.send_ok there answer trivial]
  show (Context.withDepth p n).runFunction fn [.object id] h = _
  rw [Context.runFunction_ret body (by simp [params, selfParameter]) (by simp [params]), params]
  rfl

omit e in
theorem eval_self (n : Nat) :
    (Context.withDepth p n).eval (("self", .object id) :: locals) (.name "self") h =
      (.ok (.object id), h) := by
  rw [Context.eval_name (.local List.lookup_cons_self)]
  rfl

theorem callMethod_component (held : Holds h id m vs) {j : Nat} (hv : j < vs.length) (n : Nat) :
    (Context.withDepth p (n + 2)).callMethod (.object id) ("component" ++ toString (j + 1)) [] h =
      (.ok vs[j], h) := by
  have length := held.length
  have params := e.length_typeParams
  have hl : j < m.labels.length := by omega
  have hc : j < (components m).length := by
    simp only [components, List.length_mapIdx, List.length_zip]
    omega
  have hp : j < m.typeParams.length := by omega
  have eq : (components m)[j] = component (j + 1) m.labels[j] m.typeParams[j] := by
    simp [components]
  have found := e.find?_contract (components m)[j]
    (by simp [List.getElem_mem hc])
  rw [eq] at found
  refine (callMethod_ret held _ [] found rfl rfl rfl (n + 1)).trans ?_
  refine (Context.eval_attr (eval_self (n + 1)) _).trans ?_
  exact e.getAttribute_getElem held hl hv n

/-- The length of an instance is the number of its values. -/
theorem length_object (held : Holds h id m vs) (n : Nat) :
    (Context.withDepth p (n + 1)).length (.object id) h = (.ok vs.length, h) := by
  have found := e.find?_contract (lengthMethod m) (by simp [iteration])
  have sent := send_ret held found rfl rfl n
  have arity : m.arity.toNat = vs.length := by
    have := held.length
    have := e.length_labels
    omega
  have answer : (Context.withDepth p (n + 1)).send id "__len__" [] h = (.ok (.int m.arity), h) := by
    refine sent.trans ?_
    rw [Context.eval]
    rfl
  rw [Context.length, Exec.bind_ok answer]
  show (Except.ok m.arity.toNat, h) = _
  rw [arity]

/-- Going through an instance meets its values in order. -/
theorem iterate_object (held : Holds h id m vs) (n : Nat) :
    (Context.withDepth p (n + 2)).iterate (.object id) h = (.ok vs, h.labelled) := by
  have found := e.find?_contract (iterMethod m) (by simp [iteration])
  have sent := send_ret held found rfl rfl (n + 1)
  have values : (Context.withDepth p (n + 1)).Evaluates [("self", .object id)] h
      (ofSelf m.labels) vs := e.evaluates_labels held rfl n
  have iter : p.Means [("self", .object id)] "iter" (.builtin .iter) :=
    .global rfl (e.undisturbed.names "iter" _ rfl)
  have answer : (Context.withDepth p (n + 2)).send id "__iter__" [] h =
      (.ok (.iterator vs), h.labelled) := by
    refine sent.trans ?_
    rw [Context.eval_calls_one (by rwa [Context.program_withDepth])
      (Context.eval_tuple values (e.ne_nil held))]
    rfl
  rw [Context.iterate, Exec.bind_ok answer]
  rfl

theorem callMethod_toList (held : Holds h id m vs) (has : m.has .listProjection = true) (n : Nat) :
    (Context.withDepth p (n + 2)).callMethod (.object id) "to_list" [] h =
      (.ok (.list vs h.labels), h.labelled) := by
  have proper : m.isNull = false := by
    have := e.arity_ne_zero
    simpa [Member.isNull] using this
  have eq : toListMethod m = properToList m := by
    rw [toListMethod, proper, if_neg (by decide)]
  have found := e.find?_contract (toListMethod m) (by simp [conversions, has])
  rw [eq] at found
  refine (callMethod_ret held _ [] found rfl rfl rfl (n + 1)).trans ?_
  exact Context.eval_list (e.evaluates_labels held rfl n)

/-! ## Transforms -/

/-- The values reach a function in order. -/
theorem eval_applied (held : Holds h id m vs) {function : String} {g : Datum}
    (bound : locals.lookup function = some g) (self : locals.lookup "self" = some (.object id))
    (n : Nat) :
    (Context.withDepth p n).eval locals (applied m function) h =
      (Context.withDepth p n).call g vs h :=
  Context.eval_calls (.local bound) (e.evaluates_slots held self n)

theorem callMethod_fold (held : Holds h id m vs) (g : Datum) (n : Nat) :
    (Context.withDepth p (n + 1)).callMethod (.object id) "fold" [g] h =
      (Context.withDepth p n).call g vs h := by
  have found := e.find?_concrete (foldTransform m) (by simp [basicTransforms])
  refine (callMethod_ret held _ [g] found rfl rfl rfl n).trans ?_
  exact e.eval_applied held rfl rfl n

theorem callMethod_flatMap (held : Holds h id m vs) (g : Datum) (n : Nat) :
    (Context.withDepth p (n + 1)).callMethod (.object id) "flat_map" [g] h =
      (Context.withDepth p n).call g vs h := by
  have found := e.find?_concrete (flatMapTransform m) (by simp [basicTransforms])
  refine (callMethod_ret held _ [g] found rfl rfl rfl n).trans ?_
  exact e.eval_applied held rfl rfl n

theorem callMethod_any (held : Holds h id m vs) (g : Datum) (n : Nat) :
    (Context.withDepth p (n + 1)).callMethod (.object id) "any" [g] h =
      (do
        let answer ← (Context.withDepth p n).call g vs
        return Datum.bool (← (Context.withDepth p n).truth answer)) h := by
  have found := e.find?_concrete (predicateTransform m "any" fun e => .calls "bool" [e])
    (by simp [basicTransforms])
  have bool : (Context.withDepth p n).program.Means [("self", .object id), ("predicate", g)] "bool"
      (.builtin .bool) := by
    rw [Context.program_withDepth]
    exact .global rfl (e.undisturbed.names "bool" _ rfl)
  refine (callMethod_ret held _ [g] found rfl rfl rfl n).trans ?_
  refine (congrFun (Context.eval_calls_call bool ..) h).trans ?_
  exact Exec.bind_congr (e.eval_applied held rfl rfl n) _

theorem callMethod_none (held : Holds h id m vs) (g : Datum) (n : Nat) :
    (Context.withDepth p (n + 1)).callMethod (.object id) "none" [g] h =
      (do
        let answer ← (Context.withDepth p n).call g vs
        return Datum.bool !(← (Context.withDepth p n).truth answer)) h := by
  have found := e.find?_concrete (predicateTransform m "none" .negate) (by simp [basicTransforms])
  refine (callMethod_ret held _ [g] found rfl rfl rfl n).trans ?_
  show (Context.withDepth p n).eval [("self", .object id), ("predicate", g)]
    (.negate (applied m "predicate")) h = _
  rw [Context.eval]
  exact Exec.bind_congr (e.eval_applied held rfl rfl n) _

/-! ## Extension -/

omit e in
/-- The operator of extension asks for the method of that name. -/
theorem add_plus (held : Holds h id m vs)
    (found : p.find? m.className "__add__" =
      some (.method (.written (plusOperator (contractExtension m f runtime)))))
    (that : Datum) (n : Nat) :
    (Context.withDepth p (n + 1)).add (.object id) that h =
      (Context.withDepth p n).callMethod (.object id) "to" [that] h := by
  obtain ⟨i, there, class_eq, -⟩ := held
  obtain ⟨type, params⟩ := parameters_plusOperator m f runtime
  have own : (Context.withDepth p n).eval [("self", .object id), ("that", that)] (.name "self") =
      pure (.object id) := Context.eval_name (.local rfl)
  have argument : (Context.withDepth p n).evalArguments [("self", .object id), ("that", that)]
      [.name "that"] = pure [that] := by
    rw [Context.evalArguments, Context.evalArguments, Context.eval_name (.local rfl)]
    · rfl
    · intros; contradiction
    · intros; contradiction
  have answer : (Context.withDepth p (n + 1)).program.find? i.className "__add__" =
      some (.method (.written (plusOperator (contractExtension m f runtime)))) := by
    rw [Context.program_withDepth, class_eq, found]
  rw [Context.add_object there answer trivial]
  show (Context.withDepth p n).runFunction _ [.object id, that] h = _
  rw [Context.runFunction_ret rfl (by rw [params]; rfl) (by rw [params]; rfl), params]
  show (Context.withDepth p n).eval [("self", .object id), ("that", that)] _ h = _
  rw [Context.eval, Context.eval, own, argument, Context.callMethod]
  simp

theorem find?_extension_of_has (has : m.has .chainExtension = true) :
    ∃ next, f.successor? m = some next ∧
      p.find? m.className "to" = some (.method (.written (concreteExtension m next))) := by
  obtain ⟨next, succ, found⟩ := get?_extension_of_successor e.emits_concrete e.usable.apart has
  exact ⟨next, succ, e.find?_of_mem_concrete (mem_of_get? found).1⟩

theorem find?_extension_of_not (no : m.has .chainExtension = false) :
    p.find? m.className "to" = some (.method (.written (contractExtension m f runtime))) := by
  have none := get?_extension_eq_none e.emits_concrete e.usable.apart no
  have held : .function (contractExtension m f runtime) ∈ contract.items := by
    obtain ⟨cs, -, -, rfl⟩ := fullContract_eq_ok e.arity_ne_zero e.emits_contract
    rw [mem_items_contractOutline, contractFunctions]
    simp [extensions]
  have name := name_contractExtension m f runtime
  have found := e.find?_of_mem_contract held
    (by rw [name]; exact List.mem_append_left _ (by decide))
    (by rw [name]; exact get?_eq_none_iff.1 none)
  have plain : (contractExtension m f runtime).decorators = [] := by
    unfold contractExtension
    split <;> rfl
  rw [name, plain] at found
  exact found

/-- The extension of a class hands its values and the new one to the next class. -/
theorem callMethod_extension (held : Holds h id m vs) (has : m.has .chainExtension = true)
    {next : Member} (succ : f.successor? m = some next) {that d : Datum}
    (means : p.Means [("self", .object id), ("that", that)] next.className d) (n : Nat) :
    (Context.withDepth p (n + 1)).callMethod (.object id) "to" [that] h =
      (Context.withDepth p n).call d (vs ++ [that]) h := by
  obtain ⟨next', succ', found⟩ := e.find?_extension_of_has has
  rw [succ] at succ'
  cases succ'
  refine (callMethod_ret held (concreteExtension m next) [that] found rfl rfl rfl n).trans ?_
  refine Context.eval_calls (by rwa [Context.program_withDepth]) ?_
  refine (e.evaluates_slots held rfl n).append (.one ?_)
  rw [Context.eval_name (.local rfl)]
  rfl

/-- The extension that leaves the family warns first. -/
theorem callMethod_overflow (held : Holds h id m vs) (no : m.has .chainExtension = false)
    (last : f.successor? m = none) (that : Datum) (n : Nat) :
    (Context.withDepth p (n + 2)).callMethod (.object id) "to" [that] h =
      (Context.withDepth p (n + 1)).construct Support.openClass (vs ++ [that])
        (h.warned Support.overflowClass (overflowNotice m)) := by
  have found := e.find?_extension_of_not no
  rw [contractExtension, last] at found
  dsimp only at found
  refine (callMethod_body held (overflowExtension m runtime) [that] found rfl rfl (n + 1)).trans ?_
  have global {name : String} {v : Datum} (bound : Program.builtins.lookup name = some v)
      (free : [("self", Datum.object id), ("that", that)].lookup name = none) :
      (Context.withDepth p (n + 1)).program.Means [("self", .object id), ("that", that)] name
        v := by
    rw [Context.program_withDepth]
    exact .global free (e.undisturbed.names name v bound)
  have warned : (Context.withDepth p (n + 1)).runStmt [("self", .object id), ("that", that)]
      (.callByLine (.attr (.name "warnings") "warn") [.literal (overflowNotice m),
        .name "TupleOverflowWarning", .keyword "stacklevel" (.int 2)]) h =
      (.ok (.next [("self", .object id), ("that", that)]),
        h.warned Support.overflowClass (overflowNotice m)) := by
    have warnings : (Context.withDepth p (n + 1)).program.Means
        [("self", .object id), ("that", that)] "warnings" (.builtin .warnings) := global rfl rfl
    have kind : (Context.withDepth p (n + 1)).program.Means
        [("self", .object id), ("that", that)] "TupleOverflowWarning"
        (.type Support.overflowClass) := global rfl rfl
    rw [Context.runStmt, Exec.bind_ok (Context.eval_warn warnings kind)]
    rfl
  refine (Context.runBody_cons warned _).trans ?_
  rw [Context.runBody_ret]
  have later : Holds (h.warned Support.overflowClass (overflowNotice m)) id m vs := held.of_get? rfl
  have openTuple : (Context.withDepth p (n + 1)).program.Means
      [("self", .object id), ("that", that)] "TupleN" (.type Support.openClass) := global rfl rfl
  refine Context.eval_calls openTuple ?_
  refine (e.evaluates_labels later rfl n).append (.one ?_)
  rw [Context.eval_name (.local rfl)]
  rfl

/-- A class that could have an extension of its own but has none refuses. -/
theorem callMethod_refusal (held : Holds h id m vs) (no : m.has .chainExtension = false)
    {next : Member} (succ : f.successor? m = some next) (that : Datum) (n : Nat) :
    (Context.withDepth p (n + 1)).callMethod (.object id) "to" [that] h =
      (.error (.unsupported (refusalNotice m)), h) := by
  have found := e.find?_extension_of_not no
  rw [contractExtension, succ] at found
  dsimp only at found
  refine (callMethod_body held (typedExtension m next) [that] found rfl rfl n).trans ?_
  obtain ⟨i, there, class_eq, -⟩ := held
  have global {name : String} {v : Datum} (bound : Program.builtins.lookup name = some v)
      (free : [("self", Datum.object id), ("that", that)].lookup name = none) :
      (Context.withDepth p n).program.Means [("self", .object id), ("that", that)] name v := by
    rw [Context.program_withDepth]
    exact .global free (e.undisturbed.names name v bound)
  have type : (Context.withDepth p n).program.Means [("self", .object id), ("that", that)] "type"
      (.builtin .type) := global rfl rfl
  have failure : (Context.withDepth p n).program.Means [("self", .object id), ("that", that)]
      "NotImplementedError" (.builtin .unsupported) := global rfl rfl
  have kind : (Context.withDepth p n).eval [("self", .object id), ("that", that)]
      (.calls "type" [.name "self"]) h = (.ok (.type m.className), h) := by
    have name : (Context.withDepth p n).typeName (.object id) h = (.ok m.className, h) := by
      rw [Context.typeName, Context.className_ok there, class_eq]
    refine (Context.eval_calls_one type (eval_self n)).trans ?_
    show ((Context.withDepth p n).typeName (.object id) >>= fun s => pure (Datum.type s)) h = _
    rw [Exec.bind_ok name]
    rfl
  have name : (Context.withDepth p n).eval [("self", .object id), ("that", that)]
      (.attr (.calls "type" [.name "self"]) "__name__") h = (.ok (.text m.className), h) := by
    rw [Context.eval_attr kind]
    rfl
  have text : (Context.withDepth p n).eval [("self", .object id), ("that", that)]
      (.template [.attr (.calls "type" [.name "self"]) "__name__",
        .literal " does not support chain-extension"]) h = (.ok (.text (refusalNotice m)), h) := by
    have parts : (Context.withDepth p n).evalParts [("self", .object id), ("that", that)]
        [.attr (.calls "type" [.name "self"]) "__name__",
          .literal " does not support chain-extension"] h =
        (.ok [m.className, " does not support chain-extension"], h) := by
      rw [Context.evalParts, Exec.bind_ok name, Context.evalParts, Context.evalParts, Context.eval]
      rfl
    rw [Context.eval, Exec.bind_ok parts, String.intercalate_cons_cons,
      String.intercalate_singleton, String.append_empty]
    rfl
  have raised : (Context.withDepth p n).runStmt [("self", .object id), ("that", that)]
      (.fail (.calls "NotImplementedError" [.template [
        .attr (.calls "type" [.name "self"]) "__name__",
        .literal " does not support chain-extension"]])) h =
      (.error (.unsupported (refusalNotice m)), h) := by
    rw [Context.runStmt, Exec.bind_ok (Context.eval_calls_one failure text)]
    rfl
  exact Exec.bind_error raised

end Program.Emitted
end Polyad.Machine
