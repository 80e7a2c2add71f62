import Polyad.Proofs.Machine.Identity

/-!
# Values are stored once and read back in order

An emitted class writes each argument of its initialiser into one slot, and whatever an instance is
asked for afterwards presents those values, all of them and in order.
-/

namespace Polyad.Machine

open Code Generated

/-- The initialiser of a class writes each slot once: it has one statement for each argument, which
writes it into the slot at the same place, and nothing else happens. -/
structure WritesOnce (inner : Context) (m : Member) (concrete : ClassDef) (id : Nat)
    (vs : List Datum) : Prop where
  declared : slotNames concrete = slots m
  distinct : (slots m).Nodup
  initialised : concrete.get? "__init__" = some (.function (initialiser m))
  bound : bindArguments (initialiser m).parameters (.object id :: vs) =
    pure (("self", .object id) :: m.labels.zip vs)
  count : (initialiser m).body.length = vs.length ∧ (slots m).length = vs.length
  writes : ∀ g i j, g.get? id = some i → i.className = m.className →
    ∀ (hb : j < (initialiser m).body.length) (hs : j < (slots m).length) (hv : j < vs.length),
      inner.runStmt (("self", .object id) :: m.labels.zip vs) (initialiser m).body[j] g =
        (.ok (.next (("self", .object id) :: m.labels.zip vs)),
          g.modify id (·.setSlot (slots m)[j] vs[j]))

/-- What an instance of an emitted class gives when it is asked in `outer`, whose calls run in
`inner`: the given values in order. -/
structure ReadsBack (outer inner : Context) (m : Member) (f : Family) (h : Heap) (id : Nat)
    (vs : List Datum) : Prop where
  arity : m.arity = vs.length
  accessors : ∀ j (hl : j < m.labels.length) (hv : j < vs.length),
    outer.getAttribute (.object id) m.labels[j] h = (.ok vs[j], h)
  components : ∀ j (hv : j < vs.length),
    outer.callMethod (.object id) ("component" ++ toString (j + 1)) [] h = (.ok vs[j], h)
  length : outer.length (.object id) h = (.ok vs.length, h)
  iteration : outer.iterate (.object id) h = (.ok vs, h.labelled)
  toList : m.has .listProjection = true →
    outer.callMethod (.object id) "to_list" [] h = (.ok (.list vs h.labels), h.labelled)
  fold : ∀ g, outer.callMethod (.object id) "fold" [g] h = inner.call g vs h
  flatMap : ∀ g, outer.callMethod (.object id) "flat_map" [g] h = inner.call g vs h
  any : ∀ g, outer.callMethod (.object id) "any" [g] h =
    (do
      let answer ← inner.call g vs
      return Datum.bool (← inner.truth answer)) h
  none : ∀ g, outer.callMethod (.object id) "none" [g] h =
    (do
      let answer ← inner.call g vs
      return Datum.bool !(← inner.truth answer)) h
  /-- A class with an extension of its own hands on to what the name of the next class stands for. -/
  extension : m.has .chainExtension = true → ∀ next, f.successor? m = some next → ∀ that d,
    outer.program.Means [("self", .object id), ("that", that)] next.className d →
      outer.callMethod (.object id) "to" [that] h = inner.call d (vs ++ [that]) h
  /-- Without one, the last class of a family hands on to the open-ended tuple. -/
  overflow : m.has .chainExtension = false → f.successor? m = Option.none → ∀ that,
    outer.callMethod (.object id) "to" [that] h =
      inner.construct Support.openClass (vs ++ [that])
        (h.warned Support.overflowClass (overflowNotice m))
  /-- Any other class without one makes nothing. -/
  refusal : m.has .chainExtension = false → ∀ next, f.successor? m = some next → ∀ that,
    outer.callMethod (.object id) "to" [that] h = (.error (.unsupported (refusalNotice m)), h)
  equality : ∀ other ws, Holds h other m ws → id ≠ other →
    outer.program.Means [("self", .object id), ("other", .object other)] m.className
      (.type m.className) →
    outer.callMethod (.object id) "__eq__" [.object other] h =
      (do return Datum.bool (← inner.equal (.tuple vs h.labels) (.tuple ws (h.labels + 1))))
        h.labelled.labelled
  hash : outer.callMethod (.object id) "__hash__" [] h =
    (do return Datum.digest (← inner.digest (.tuple vs h.labels))) h.labelled
  reconstruction : ∀ c, outer.program.Means [("self", .object id)] m.className c →
    outer.callMethod (.object id) "__reduce__" [] h =
      (.ok (.tuple [c, .tuple vs h.labels] (h.labels + 1)), h.labelled.labelled)
  /-- The text is a template that shows the values in order. -/
  pieces : ∃ fn parts, outer.program.find? m.className "__repr__" = some (.method (.written fn)) ∧
    fn.parameters = [selfParameter] ∧ fn.body = [.ret (.template parts)] ∧
    inner.Evaluates [("self", .object id)] h (parts.filterMap shown?) vs
  /-- The text is made of those of the values, if showing them leaves the instance as it is. -/
  text : (∀ v ∈ vs, ∀ g s g', Holds g id m vs → inner.shown v g = (.ok s, g') → Holds g' id m vs) →
    outer.callMethod (.object id) "__repr__" [] h =
      (do
        let texts ← inner.shownItems vs
        return Datum.text ("(" ++ ", ".intercalate texts ++ ")")) h

variable {p : Program} {m : Member} {f : Family} {runtime : String} {contract concrete : ClassDef}
variable {h : Heap} {id : Nat} {vs : List Datum}

namespace Program.Emitted

variable (e : p.Emitted m f runtime contract concrete)

include e

theorem writesOnce (length : vs.length = m.labels.length) (id n : Nat) :
    WritesOnce (Context.withDepth p (n + 1)) m concrete id vs := by
  have keys := map_fst_locals length (.object id)
  have nodup : (((("self", Datum.object id) :: m.labels.zip vs)).map Prod.fst).Nodup := by
    rw [keys]
    exact e.nodup_locals
  refine ⟨e.slotNames_concrete, nodup_slots e.nodup_labels, ?_, e.bindArguments_initialiser length _,
    ⟨?_, ?_⟩, ?_⟩
  · have held : .function (initialiser m) ∈ concrete.items := by
      obtain ⟨doc, ext, ts, -, -, -, rfl⟩ := concreteClass_eq_ok e.emits_concrete
      simp [mem_items_concreteOutline, concreteFunctions]
    exact get?_of_nodup (.function (initialiser m)) e.nodup_concrete held
  · rw [body_initialiser, List.length_map, length]
  · rw [slots, List.length_map, length]
  · intro g i j found class_eq hb hs hv
    have hl : j < m.labels.length := by omega
    have statement : (initialiser m).body[j] = slotWrite m.labels[j] := by
      simp [body_initialiser]
    have slot : (slots m)[j] = slotName m.labels[j] := by
      simp [slots]
    have entry : (m.labels[j], vs[j]) ∈ m.labels.zip vs := by
      have hz : j < (m.labels.zip vs).length := by
        rw [List.length_zip]
        omega
      have mem := List.getElem_mem hz
      rwa [List.getElem_zip] at mem
    rw [statement, slot]
    refine e.runStmt_slotWrite (List.getElem_mem hl) found class_eq rfl ?_ ?_ n
    · refine lookup_eq_none_of_not_mem ?_
      rw [keys, List.mem_cons, not_or]
      exact ⟨by decide, fun mem => e.usable.needed _ mem (by decide)⟩
    · exact lookup_of_nodup nodup (List.mem_cons_of_mem _ entry)

theorem readsBack (held : Holds h id m vs) (n : Nat) :
    ReadsBack (Context.withDepth p (n + 2)) (Context.withDepth p (n + 1)) m f h id vs where
  arity := by
    have := held.length
    have := e.length_labels
    omega
  accessors j hl hv := e.getAttribute_getElem held hl hv (n + 1)
  components j hv := e.callMethod_component held hv n
  length := e.length_object held (n + 1)
  iteration := e.iterate_object held n
  toList has := e.callMethod_toList held has n
  fold g := e.callMethod_fold held g (n + 1)
  flatMap g := e.callMethod_flatMap held g (n + 1)
  any g := e.callMethod_any held g (n + 1)
  none g := e.callMethod_none held g (n + 1)
  extension has next succ that d means := by
    rw [Context.program_withDepth] at means
    exact e.callMethod_extension held has succ means (n + 1)
  overflow no last that := e.callMethod_overflow held no last that n
  refusal no next succ that := e.callMethod_refusal held no succ that (n + 1)
  equality other ws theirs ne means := by
    rw [Context.program_withDepth] at means
    exact e.callMethod_equal held theirs ne means (n + 1)
  hash := e.callMethod_hash held (n + 1)
  reconstruction c means := by
    rw [Context.program_withDepth] at means
    exact e.callMethod_reduce held means (n + 1)
  pieces := by
    have found := e.find?_concrete (reprMethod m) (by simp [valueIdentity])
    refine ⟨reprMethod m, shownParts (slots m), ?_, rfl, rfl, ?_⟩
    · rw [Context.program_withDepth]
      exact found
    · rw [filterMap_shownParts]
      exact e.evaluates_slots held rfl (n + 1)
  text quiet := e.callMethod_repr held (n + 1) quiet

end Program.Emitted

/-- Making an instance of an emitted class writes each of its slots once, leaves all other instances
alone, and gives one that reads its values back as long as it holds them. -/
theorem construct_reads_back (e : p.Emitted m f runtime contract concrete)
    (length : (vs.length : Int) = m.arity) (h : Heap) (n : Nat) :
    ∃ id h', (Context.withDepth p (n + 2)).construct m.className vs h = (.ok (.object id), h') ∧
      (∀ other < h.instances.length, h'.get? other = h.get? other) ∧ h.get? id = none ∧
      WritesOnce (Context.withDepth p (n + 1)) m concrete id vs ∧ Holds h' id m vs ∧
      ∀ g, Holds g id m vs →
        ReadsBack (Context.withDepth p (n + 2)) (Context.withDepth p (n + 1)) m f g id vs := by
  have size : vs.length = m.labels.length := by
    have := e.length_labels
    omega
  refine ⟨h.instances.length, _, e.construct_eq size h n, ?_, ?_, e.writesOnce size _ n,
    e.holds_new size h, fun g held => e.readsBack held n⟩
  · intro other lt
    exact Heap.get?_push_of_lt lt _
  · rw [Heap.get?, List.getElem?_eq_none (by omega)]

theorem built_pair_reads_back :
    ∃ contract concrete id h',
      fullContract (Family.builtMember 3 2) (Family.built 3) "runtime" = .ok contract ∧
      concreteClass (Family.builtMember 3 2) (Family.built 3) = .ok concrete ∧
      (Context.withDepth { classes := [contract, concrete] } 2).construct
        (Family.builtMember 3 2).className [.int 1, .text "b"] {} = (.ok (.object id), h') ∧
      ReadsBack (Context.withDepth { classes := [contract, concrete] } 2)
        (Context.withDepth { classes := [contract, concrete] } 1) (Family.builtMember 3 2)
        (Family.built 3) h' id [.int 1, .text "b"] := by
  have three : 3 ≤ Naming.letterBudget := by decide
  have mem : Family.builtMember 3 2 ∈ (Family.built 3).members :=
    Family.mem_built_iff.2 ⟨2, by decide, rfl⟩
  obtain ⟨base, hb⟩ := exists_contract "runtime" (Family.derived_built three) mem
  obtain ⟨concrete, hc⟩ := exists_concreteClass (Family.derived_built three) (by decide) mem
  have hi : fullContract (Family.builtMember 3 2) (Family.built 3) "runtime" =
      .ok (withConversions base (Family.builtMember 3 2)) := Error.bind_eq_ok_iff.2 ⟨base, hb, rfl⟩
  have names : (withConversions base (Family.builtMember 3 2)).name = "Tuple2" ∧
      concrete.name = "Duad" := by
    obtain ⟨cs, -, -, eq⟩ := fullContract_eq_ok (by decide) hi
    obtain ⟨doc, ext, ts, -, -, -, rfl⟩ := concreteClass_eq_ok hc
    exact ⟨by rw [eq]; rfl, rfl⟩
  generalize withConversions base (Family.builtMember 3 2) = contract at hi names
  have undisturbed : ({ classes := [contract, concrete] } : Program).Undisturbed := by
    refine ⟨fun name given => ?_, fun name v bound => bound⟩
    have apart : ∀ name ∈ Program.givenClasses, name ≠ "Tuple2" ∧ name ≠ "Duad" := by decide
    obtain ⟨first, second⟩ := apart name given
    simp [Program.class?, names, first.symm, second.symm]
  have installed : ({ classes := [contract, concrete] } : Program).Installed contract concrete :=
    ⟨by simp [Program.class?], by simp [Program.class?, names]⟩
  have size : (([.int 1, .text "b"] : List Datum).length : Int) =
      (Family.builtMember 3 2).arity := rfl
  obtain ⟨id, h', made, -, -, -, held, reads⟩ := construct_reads_back
    ⟨by decide, usableLabels_built 3 2, hi, hc, undisturbed, installed⟩ size {} 0
  exact ⟨contract, concrete, id, h', hi, hc, made, reads h' held⟩

end Polyad.Machine
