import Polyad.Proofs.Machine.KeepingCalls

/-!
# Runs that keep the heap

Harmless bodies, and what supporting classes do themselves: the methods of the open-ended tuple but
its initialiser, those of the marker, which only ever raise, and those that every class has got but
the one that sets attributes.
-/

namespace Polyad.Machine

open Code Exec

/-- Local names that stand for harmless values. -/
def Locals.Harmless (locals : Locals) : Prop := ∀ entry ∈ locals, entry.2.Harmless

/-- Where running goes on with harmless values. -/
def Flow.Harmless : Flow → Prop
  | next locals => locals.Harmless
  | done result => result.Harmless

theorem harmless_zip {names : List String} {vs : List Datum} (each : AllHarmless vs) :
    Locals.Harmless (names.zip vs) := fun _ mem => each _ (List.of_mem_zip mem).2

namespace Context.Keeps

variable {cx : Context} (k : cx.Keeps) {locals : Locals}

/-! ## Expressions -/

include k

theorem nameValue (harmless : locals.Harmless) (name : String) :
    (cx.nameValue locals name).Keeps Datum.Harmless := by
  unfold Context.nameValue
  split
  · next v found =>
    refine keeps_pure ?_
    rcases Option.or_eq_some_iff.1 found with own | ⟨-, bound⟩
    · obtain ⟨before, after, eq, -⟩ := List.lookup_eq_some_iff.1 own
      exact harmless (name, v) (by simp [eq])
    · exact k.program.names _ _ bound
  · exact keeps_throw

omit k

mutual

/-- The value of a harmless expression, by the expression. -/
theorem eval (k : cx.Keeps) (harmless : locals.Harmless) :
    ∀ e : Expr, NoSetters e.attributes → (cx.eval locals e).Keeps Datum.Harmless
  | .name s, _ => k.nameValue harmless s
  | .int n, _ => keeps_pure (Datum.harmless_of_plain rfl)
  | .literal s, _ => keeps_pure (harmless_text s)
  | .attr e field, plain => by
    obtain ⟨named, plain⟩ := noSetters_cons.1 plain
    refine (eval k harmless e plain).bind fun x _ => ?_
    exact (k.getAttribute x field).imp fun v given => given named
  | .call f args, plain => by
    obtain ⟨first, second⟩ := noSetters_append.1 plain
    refine (eval k harmless f first).bind fun callee hf => ?_
    exact (evalArguments k harmless args second).bind fun vs each => k.call hf each
  | .tuple items, plain =>
    (evalArguments k harmless items plain).bind fun _ each => keeps_tuple each
  | .list items, plain =>
    (evalArguments k harmless items plain).bind fun _ each => keeps_list each
  | .dict entries, plain => by
    refine (evalEntries k harmless entries plain).bind fun es each => ?_
    exact (k.putEntries each).bind fun es each => keeps_dict each
  | .index e i, plain => by
    obtain ⟨first, second⟩ := noSetters_append.1 plain
    refine (eval k harmless e first).bind fun x hx => ?_
    exact (eval k harmless i second).bind fun i hi => k.item hx hi
  | .identical a b, plain => by
    obtain ⟨first, second⟩ := noSetters_append.1 plain
    refine (eval k harmless a first).bind fun x _ => ?_
    refine (eval k harmless b second).bind fun y _ => ?_
    exact keeps_pure (Datum.harmless_of_plain rfl)
  | .equal a b, plain => by
    obtain ⟨first, second⟩ := noSetters_append.1 plain
    refine (eval k harmless a first).bind fun x hx => ?_
    refine (eval k harmless b second).bind fun y hy => (k.equal hx hy).bind fun _ _ => ?_
    exact keeps_pure (Datum.harmless_of_plain rfl)
  | .more a b, plain => by
    obtain ⟨first, second⟩ := noSetters_append.1 plain
    refine (eval k harmless a first).bind fun x hx => ?_
    refine (eval k harmless b second).bind fun y hy => (k.less hy hx).bind fun _ _ => ?_
    exact keeps_pure (Datum.harmless_of_plain rfl)
  | .minus a b, plain => by
    obtain ⟨first, second⟩ := noSetters_append.1 plain
    refine (eval k harmless a first).bind fun x _ => ?_
    refine (eval k harmless b second).bind fun y _ => ?_
    unfold subtract
    split
    · exact keeps_pure (Datum.harmless_of_plain rfl)
    · exact keeps_throw
  | .negate e, plain => by
    refine (eval k harmless e plain).bind fun x _ => (k.truth x).bind fun _ _ => ?_
    exact keeps_pure (Datum.harmless_of_plain rfl)
  | .template parts, plain =>
    (evalParts k harmless parts plain).bind fun _ _ => keeps_pure (harmless_text _)
  | .shown e, plain =>
    (eval k harmless e plain).bind fun x _ => (k.shown x).bind fun _ _ =>
      keeps_pure (harmless_text _)
  | .spread _, _ => keeps_throw
  | .keyword _ _, _ => keeps_throw

theorem evalArguments (k : cx.Keeps) (harmless : locals.Harmless) :
    ∀ es : List Expr, NoSetters (Expr.attributesAll es) →
      (cx.evalArguments locals es).Keeps AllHarmless
  | [], _ => keeps_pure allHarmless_nil
  | e :: rest, plain => by
    obtain ⟨first, second⟩ := noSetters_append.1 plain
    have tail := evalArguments k harmless rest second
    have head := eval k harmless e first
    cases e
    case spread e =>
      refine (eval k harmless e first).bind fun x hx => (k.iterate hx).bind fun vs each => ?_
      exact tail.bind fun ws each' => keeps_pure (allHarmless_append.2 ⟨each, each'⟩)
    case keyword s e => exact (eval k harmless e first).bind fun _ _ => tail
    all_goals
      exact head.bind fun v hv => tail.bind fun vs each =>
        keeps_pure (allHarmless_cons.2 ⟨hv, each⟩)

theorem evalEntries (k : cx.Keeps) (harmless : locals.Harmless) :
    ∀ es : List (Expr × Expr), NoSetters (Expr.attributesEntries es) →
      (cx.evalEntries locals es).Keeps fun es => ∀ e ∈ es, e.1.Harmless ∧ e.2.Harmless
  | [], _ => keeps_pure (by simp)
  | (key, value) :: rest, plain => by
    obtain ⟨⟨first, second⟩, others⟩ := (noSetters_append.1 plain).imp_left noSetters_append.1
    refine (eval k harmless key first).bind fun x hx => ?_
    refine (eval k harmless value second).bind fun y hy => ?_
    refine (evalEntries k harmless rest others).bind fun es each => keeps_pure ?_
    exact List.forall_mem_cons.2 ⟨⟨hx, hy⟩, each⟩

theorem evalParts (k : cx.Keeps) (harmless : locals.Harmless) :
    ∀ es : List Expr, NoSetters (Expr.attributesAll es) →
      (cx.evalParts locals es).Keeps fun _ => True
  | [], _ => keeps_pure trivial
  | e :: rest, plain => by
    obtain ⟨first, second⟩ := noSetters_append.1 plain
    refine (eval k harmless e first).bind fun x _ => (k.plainText x).bind fun _ _ => ?_
    exact (evalParts k harmless rest second).bind fun _ _ => keeps_pure trivial

end

/-! ## Statements -/

include k

theorem unpackInto (harmless : locals.Harmless) (targets : List String) {x : Datum}
    (hx : x.Harmless) : (cx.unpackInto locals targets x).Keeps Locals.Harmless := by
  unfold Context.unpackInto
  refine (k.iterate hx).bind fun items each => ?_
  dsimp only
  split
  · exact keeps_throw_bind
  · split
    · exact keeps_throw_bind
    · refine keeps_pure fun entry mem => ?_
      rcases List.mem_append.1 mem with unpacked | own
      · exact harmless_zip each entry unpacked
      · exact harmless entry own

theorem runStmt (harmless : locals.Harmless) (s : Stmt) (plain : NoSetters s.attributes) :
    (cx.runStmt locals s).Keeps Flow.Harmless := by
  induction s with
  | expr e => exact (k.eval harmless e plain).bind fun _ _ => keeps_pure harmless
  | ret e => exact (k.eval harmless e plain).bind fun v hv => keeps_pure hv
  | fail e =>
    refine (k.eval harmless e plain).bind fun v _ => ?_
    unfold raise
    split
    · exact keeps_throw
    · exact keeps_throw
  | unpack targets e =>
    refine (k.eval harmless e plain).bind fun x hx => ?_
    exact (k.unpackInto harmless targets hx).bind fun ls each => keeps_pure each
  | «when» c s ih =>
    obtain ⟨first, second⟩ := noSetters_append.1 plain
    refine (k.eval harmless c first).bind fun v _ => (k.truth v).bind fun _ _ => ?_
    exact keeps_ite (ih second) (keeps_pure harmless)
  | callByLine f args =>
    exact (k.eval harmless (.call f args) plain).bind fun _ _ => keeps_pure harmless
  | raw line => exact keeps_throw

/-- The body of a function, by its statements. -/
theorem runBody (harmless : locals.Harmless) (ss : List Stmt)
    (plain : NoSetters (ss.flatMap Stmt.attributes)) :
    (cx.runBody locals ss).Keeps Datum.Harmless := by
  induction ss generalizing locals with
  | nil => exact keeps_pure (Datum.harmless_of_plain rfl)
  | cons s ss ih =>
    rw [List.flatMap_cons, noSetters_append] at plain
    refine (k.runStmt harmless s plain.1).bind fun flow given => ?_
    split
    · exact ih given plain.2
    · exact keeps_pure given

omit k in
theorem bindArguments {ps : List Parameter} {args : List Datum} (each : AllHarmless args) :
    (bindArguments ps args).Keeps Locals.Harmless := by
  induction ps generalizing args with
  | nil =>
    cases args with
    | nil => exact keeps_pure fun _ mem => absurd mem List.not_mem_nil
    | cons v vs => exact keeps_throw
  | cons p ps ih =>
    unfold Machine.bindArguments
    split
    · refine (keeps_tuple each).bind fun v hv => (ih allHarmless_nil).bind fun ls rest => ?_
      exact keeps_pure (List.forall_mem_cons.2 ⟨hv, rest⟩)
    · split
      · exact keeps_throw
      · obtain ⟨hv, hvs⟩ := allHarmless_cons.1 each
        exact (ih hvs).bind fun ls rest => keeps_pure (List.forall_mem_cons.2 ⟨hv, rest⟩)

theorem runFunction {f : Function} (plain : NoSetters f.attributes) {args : List Datum}
    (each : AllHarmless args) : (cx.runFunction f args).Keeps Datum.Harmless :=
  (bindArguments each).bind fun _ harmless => k.runBody harmless f.body plain

/-! ## Supporting classes -/

open Support

variable {self that index : Datum}

theorem valueTuple (self : Datum) : (valueTuple cx self).Keeps Datum.Harmless :=
  (k.getAttribute self valuesSlot).imp fun _ given => given (by decide)

theorem values (self : Datum) : (values cx self).Keeps AllHarmless := by
  refine (k.valueTuple self).bind fun v harmless => ?_
  split
  · exact keeps_pure (Datum.harmless_tuple.1 harmless)
  · exact keeps_throw

theorem checkIndex (self index : Datum) : (checkIndex cx self index).Keeps fun _ => True := by
  refine (k.values self).bind fun vs _ => ?_
  dsimp only
  split
  · exact keeps_throw
  · split
    · exact (k.plainText index).bind fun _ _ => keeps_throw
    · exact keeps_pure trivial

theorem getNullable (hi : index.Harmless) (self kind : Datum) :
    (getNullable cx self index kind).Keeps Datum.Harmless := by
  refine (k.checkIndex self index).bind fun _ _ => (k.valueTuple self).bind fun t ht => ?_
  refine (k.item ht hi).bind fun v hv => ?_
  split
  · exact keeps_pure hv
  · exact keeps_pure hv
  · refine (isInstance v _).bind fun _ _ => keeps_ite (keeps_pure hv) ?_
    exact (k.plainText index).bind fun _ _ => keeps_throw
  · exact keeps_throw

theorem get (hi : index.Harmless) (self kind : Datum) :
    (get cx self index kind).Keeps Datum.Harmless := by
  refine (k.getNullable hi self kind).bind fun v hv => ?_
  split
  · exact (k.plainText index).bind fun _ _ => keeps_throw
  · exact keeps_pure hv

theorem extend (self : Datum) (hthat : that.Harmless) :
    (extend cx self that).Keeps Datum.Harmless := by
  refine (keeps_warn _ _).bind fun _ _ => (k.values self).bind fun vs each => ?_
  exact k.construct _ _ (allHarmless_append.2 ⟨each, by simp [hthat]⟩)

theorem equalOpen (self other : Datum) : (equalOpen cx self other).Keeps Datum.Harmless := by
  have bool : ∀ b, (Datum.bool b).Harmless := fun b => Datum.harmless_of_plain rfl
  unfold Support.equalOpen
  split
  · exact keeps_pure (bool true)
  · refine (isInstance other _).bind fun _ _ => ?_
    split
    · exact keeps_pure (Datum.harmless_of_plain rfl)
    · refine (k.valueTuple self).bind fun s hs => (k.valueTuple other).bind fun o ho => ?_
      exact (k.equal hs ho).bind fun _ _ => keeps_pure (bool _)

/-- The methods of the open-ended tuple but its initialiser. -/
theorem runOpen {name : String} (other : name ≠ "__init__") {args : List Datum}
    (each : AllHarmless args) : (runOpen cx name args).Keeps Datum.Harmless := by
  have int : ∀ n, (Datum.int n).Harmless := fun n => Datum.harmless_of_plain rfl
  unfold Support.runOpen
  split
  · exact absurd rfl other
  · exact (k.values _).bind fun _ _ => keeps_pure (int _)
  · exact k.valueTuple _
  · exact (k.checkIndex _ _).bind fun _ _ => keeps_pure (Datum.harmless_of_plain rfl)
  · exact k.getNullable (each _ (by simp)) _ _
  · exact k.getNullable (each _ (by simp)) _ _
  · exact k.get (each _ (by simp)) _ _
  · exact k.get (each _ (by simp)) _ _
  · exact k.extend _ (each _ (by simp))
  · exact k.callMethod _ (by decide) fun v mem => each v (List.mem_cons_of_mem _ mem)
  · exact (k.values _).bind fun vs harmless => keeps_list harmless
  · exact (k.valueTuple _).bind fun t ht => k.item ht (each _ (by simp))
  · exact (k.values _).bind fun _ _ => keeps_pure (int _)
  · exact (k.values _).bind fun vs harmless => keeps_pure (Datum.harmless_iterator.2 harmless)
  · exact k.equalOpen _ _
  · exact (k.valueTuple _).bind fun _ _ => (k.digest _).bind fun _ _ =>
      keeps_pure (Datum.harmless_of_plain rfl)
  · exact (k.values _).bind fun _ _ => (k.shownItems _).bind fun _ _ =>
      keeps_pure (harmless_text _)
  · refine (k.valueTuple _).bind fun t ht => keeps_tuple ?_
    simp [ht, Datum.harmless_of_plain (v := .type openClass) rfl]
  · exact keeps_throw

/-- The marker only ever raises. -/
theorem runMarker (name : String) (args : List Datum) :
    (runMarker cx name args).Keeps Datum.Harmless := by
  unfold Support.runMarker
  split
  · exact (typeName _).bind fun _ _ => (k.shown _).bind fun _ _ => keeps_throw
  · exact (typeName _).bind fun _ _ => (k.shown _).bind fun _ _ => keeps_throw
  · exact keeps_throw

omit k in
/-- What an instance holds is harmless. -/
theorem heldSlots (id : Nat) :
    (heldSlots cx id).Keeps fun slots => ∀ slot ∈ slots, slot.2.Harmless := by
  intro h harmless
  cases found : h.get? id with
  | some i =>
    rw [Support.heldSlots, bind_ok (getInstance_eq_ok found)]
    refine keeps_pure (fun slot mem => ?_) h harmless
    obtain ⟨name, -, eq⟩ := List.mem_filterMap.1 mem
    obtain ⟨v, held, rfl⟩ := Option.map_eq_some_iff.1 eq
    exact harmless_slot? harmless found held
  | none =>
    have missing : instance? id h = (.ok none, h) := by rw [instance?, found]
    have absent : getInstance id h = (.error .noAttribute, h) := by
      rw [getInstance, bind_ok missing]
      rfl
    rw [Support.heldSlots, bind_error absent]
    exact ⟨.refl h, harmless, fun v eq => by cases eq⟩

omit k in
theorem state (id : Nat) : (state cx id).Keeps Datum.Harmless := by
  refine (heldSlots id).bind fun held each => ?_
  dsimp only
  split
  · exact keeps_pure (Datum.harmless_of_plain rfl)
  · refine (keeps_dict fun e mem => ?_).bind fun d hd => keeps_tuple ?_
    · obtain ⟨slot, there, rfl⟩ := List.mem_map.1 mem
      exact ⟨harmless_text _, each slot there⟩
    · simp [hd, Datum.harmless_of_plain (v := .null) rfl]

omit k in
theorem sizeOf (id : Nat) : (sizeOf cx id).Keeps fun _ => True :=
  (keeps_className id).bind fun _ _ => keeps_pure trivial

/-- The methods that every class has got, but the one that sets any attribute. What the one that
finds any attribute gives may be harmful. -/
theorem runCommon {name : String} (set : name ≠ "__setattr__") {args : List Datum}
    (each : AllHarmless args) :
    (runCommon cx name args).Keeps fun v => name ≠ "__getattribute__" → v.Harmless := by
  have bool : ∀ b, (Datum.bool b).Harmless := fun b => Datum.harmless_of_plain rfl
  have unknown : Datum.notImplemented.Harmless := Datum.harmless_of_plain rfl
  have always : ∀ {m : Exec Datum} {other : Prop}, m.Keeps Datum.Harmless →
      m.Keeps fun v => other → v.Harmless := fun keeps => keeps.imp fun v harmless _ => harmless
  unfold Support.runCommon
  split
  · exact absurd rfl set
  · exact always (keeps_pure (Datum.harmless_of_plain rfl))
  · exact always (keeps_pure (Datum.harmless_of_plain rfl))
  · exact always (keeps_pure unknown)
  -- The name that is asked for can be that of a setter.
  · exact (k.getAttribute _ _).imp fun _ _ other => absurd rfl other
  · exact always (state _)
  · exact always ((sizeOf _).bind fun _ _ => keeps_pure (Datum.harmless_of_plain rfl))
  · exact always (k.callMethod _ (by decide) allHarmless_nil)
  · refine always ((k.ask (each _ (by simp)) (each _ (by simp))).bind fun r _ => ?_)
    split
    · exact keeps_pure unknown
    · exact (k.truth _).bind fun _ _ => keeps_pure (bool _)
  · refine always (keeps_pure ?_)
    split
    · exact bool true
    · exact unknown
  · exact always (keeps_pure (Datum.harmless_of_plain rfl))
  · exact always ((k.shown _).bind fun _ _ => keeps_pure (harmless_text _))
  · exact always ((k.shown _).bind fun _ _ => keeps_pure (harmless_text _))
  · exact always ((k.shown _).bind fun _ _ => keeps_pure (harmless_text _))
  · exact always (keeps_ite (keeps_pure unknown) keeps_throw)
  · exact always keeps_throw

/-- Calling harmless code on harmless values keeps the heap if the calls inside do. -/
theorem runRoutine {r : Routine} (harmless : r.Harmless) {args : List Datum}
    (each : AllHarmless args) : (cx.runRoutine r args).Keeps Datum.Harmless := by
  cases r with
  | written f => exact k.runFunction harmless each
  | support owner name =>
    have other : Routine.support owner name ∉ setters := harmless
    simp only [setters, List.mem_cons, List.not_mem_nil, or_false, not_or,
      Routine.support.injEq, not_and] at other
    obtain ⟨init, set, find⟩ := other
    unfold Context.runRoutine Support.run
    dsimp only
    split
    · next eq => exact k.runOpen (init (eq_of_beq eq)) each
    · split
      · exact k.runMarker name args
      · split
        · next eq =>
          have other := find (eq_of_beq eq)
          exact (k.runCommon (set (eq_of_beq eq)) each).imp fun v given => given other
        · exact keeps_throw

end Context.Keeps
end Polyad.Machine
