import Polyad.Proofs.Machine.Emitted
import Polyad.Proofs.Machine.Steps

/-!
# Making instances

The initialiser of an emitted class is one statement for each label, and the statement of a label
writes its argument into the slot behind it. So a new instance holds the arguments in order, in
slots that are each written once.
-/

namespace Polyad.Machine

open Code Generated

/-- A slot that was not set comes to the others. -/
theorem Instance.setSlot_of_not_mem {i : Instance} {name : String} (v : Datum)
    (new : name ∉ i.slots.map Prod.fst) :
    i.setSlot name v = { i with slots := (name, v) :: i.slots } := by
  have kept : i.slots.filter (·.1 != name) = i.slots := by
    refine List.filter_eq_self.2 fun slot mem => ?_
    have ne : slot.1 ≠ name := fun eq => new (eq ▸ List.mem_map_of_mem mem)
    simpa using ne
  rw [setSlot, kept]

/-- An instance of a class on the heap, with values in the slots of a member. -/
def Holds (h : Heap) (id : Nat) (m : Member) (vs : List Datum) : Prop :=
  ∃ i, h.get? id = some i ∧ i.className = m.className ∧ (slots m).map i.slot? = vs.map some

theorem Holds.length {h : Heap} {id : Nat} {m : Member} {vs : List Datum} (held : Holds h id m vs) :
    vs.length = m.labels.length := by
  obtain ⟨i, -, -, values⟩ := held
  have size := congrArg List.length values
  rw [List.length_map, List.length_map, slots, List.length_map] at size
  omega

/-- What an instance holds depends on what is on the heap under its number only. -/
theorem Holds.of_get? {g h : Heap} {id : Nat} {m : Member} {vs : List Datum}
    (held : Holds h id m vs) (same : g.get? id = h.get? id) : Holds g id m vs := by
  obtain ⟨i, found, rest⟩ := held
  exact ⟨i, same.trans found, rest⟩

/-- The statement of the initialiser that writes the slot of a label. -/
def slotWrite (label : String) : Stmt :=
  .expr (.call (.attr (.name "object") "__setattr__")
    [.name "self", .literal (slotName label), .name label])

theorem body_initialiser (m : Member) : (initialiser m).body = m.labels.map slotWrite := rfl

variable {p : Program} {m : Member} {f : Family} {runtime : String} {contract concrete : ClassDef}

/-- The class of everything sets attributes past the class of an instance. -/
theorem Program.Undisturbed.find?_setattr (u : p.Undisturbed) :
    p.find? "object" "__setattr__" = some (.method (.support "object" "__setattr__")) := by
  have none : p.class? "object" = none := u.classes _ (by decide)
  have parents : p.parents "object" = [] := u.parents (by decide)
  have lineage : p.lineage "object" = ["object", "object"] := by
    rw [Program.lineage, Program.generations, parents]
    rfl
  rw [Program.find?_eq (by decide), lineage, List.findSome?_cons, Program.ownAttribute?, none]
  rfl

theorem plain_initialiser (m : Member) : (initialiser m).parameters.all (!·.variadic) = true := by
  refine List.all_eq_true.2 fun q hq => ?_
  rcases List.mem_cons.1 hq with rfl | hq
  · rfl
  · obtain ⟨i, hi, rfl⟩ := List.getElem_of_mem hq
    simp [typedParameter]

/-- The statement of a label calls the method that sets attributes past the class. -/
theorem Program.Undisturbed.runStmt_slotWrite_eq (u : p.Undisturbed) {locals : Locals}
    {label : String} {x v : Datum} (self : locals.lookup "self" = some x)
    (free : locals.lookup "object" = none) (value : locals.lookup label = some v) (n : Nat)
    (h : Heap) :
    (Context.withDepth p n).runStmt locals (slotWrite label) h =
      ((Context.withDepth p n).run (.support "object" "__setattr__")
        [x, .text (slotName label), v] >>= fun _ => pure (.next locals)) h := by
  have object : p.Means locals "object" (.type "object") := .global free (u.names "object" _ rfl)
  have callee : (Context.withDepth p n).eval locals (.attr (.name "object") "__setattr__") h =
      (.ok (.routine (.support "object" "__setattr__")), h) := by
    have own : (Context.withDepth p n).eval locals (.name "object") h =
        (.ok (.type "object"), h) := by
      rw [Context.eval_name (by rwa [Context.program_withDepth])]
      rfl
    rw [Context.eval_attr own, Context.getAttribute, Context.typeAttribute,
      Context.program_withDepth, u.find?_setattr]
    rfl
  have arguments : Context.Evaluates (Context.withDepth p n) locals h
      [.name "self", .literal (slotName label), .name label] [x, .text (slotName label), v] := by
    refine .cons ?_ (.cons rfl (.one ?_))
    · rw [Context.eval_name (.local self)]
      rfl
    · rw [Context.eval_name (.local value)]
      rfl
  rw [slotWrite, Context.runStmt]
  exact Exec.bind_congr (Context.eval_call callee arguments) _

/-- The names in a call of the initialiser. -/
theorem map_fst_locals {vs : List Datum} (length : vs.length = m.labels.length) (self : Datum) :
    ((("self", self) :: m.labels.zip vs).map Prod.fst) = "self" :: m.labels := by
  rw [List.map_cons, List.map_fst_zip (by omega)]

namespace Program.Emitted

variable (e : p.Emitted m f runtime contract concrete)

include e

/-- The statement of a label writes the slot behind it, and nothing else. -/
theorem runStmt_slotWrite {label : String} (mem : label ∈ m.labels) {h : Heap} {id : Nat}
    {i : Instance} (found : h.get? id = some i) (class_eq : i.className = m.className)
    {locals : Locals} {v : Datum} (self : locals.lookup "self" = some (.object id))
    (free : locals.lookup "object" = none) (value : locals.lookup label = some v) (n : Nat) :
    (Context.withDepth p (n + 1)).runStmt locals (slotWrite label) h =
      (.ok (.next locals), h.modify id (·.setSlot (slotName label) v)) := by
  have past : (Context.withDepth p n).setPast (.object id) (slotName label) v h =
      (.ok (), h.modify id (·.setSlot (slotName label) v)) := by
    rw [Context.setPast, Exec.bind_ok (Context.className_ok found), class_eq,
      Context.program_withDepth, e.find?_slot mem]
    rfl
  have written : (Context.withDepth p (n + 1)).run (.support "object" "__setattr__")
      [.object id, .text (slotName label), v] h =
        (.ok .null, h.modify id (·.setSlot (slotName label) v)) := by
    show ((Context.withDepth p n).setPast (.object id) (slotName label) v >>= fun _ =>
      pure Datum.null) h = _
    rw [Exec.bind_ok past]
    rfl
  rw [e.undisturbed.runStmt_slotWrite_eq self free value, Exec.bind_ok written]
  rfl

/-- The statements of some labels fill the slots behind them one by one. The induction is on the
labels that are left, and `done` holds what was written before. -/
theorem runBody_slotWrites {labels : List String} {vs : List Datum}
    {done : List (String × Datum)} (h : Heap) {locals : Locals}
    (self : locals.lookup "self" = some (.object h.instances.length))
    (free : locals.lookup "object" = none) (subset : labels ⊆ m.labels) (nodup : labels.Nodup)
    (length : labels.length = vs.length)
    (values : ∀ entry ∈ labels.zip vs, locals.lookup entry.1 = some entry.2)
    (new : ∀ l ∈ labels, slotName l ∉ done.map Prod.fst) (n : Nat) :
    (Context.withDepth p (n + 1)).runBody locals (labels.map slotWrite)
        (h.push ⟨m.className, done⟩) =
      (.ok .null, h.push ⟨m.className, ((labels.map slotName).zip vs).reverse ++ done⟩) := by
  induction labels generalizing vs done with
  | nil => rfl
  | cons label labels ih =>
    cases vs with
    | nil => cases length
    | cons v vs =>
      obtain ⟨head, tail⟩ := List.cons_subset.1 subset
      rw [List.nodup_cons] at nodup
      have written := e.runStmt_slotWrite head (Heap.get?_push_self h ⟨m.className, done⟩) rfl self
        free (values (label, v) List.mem_cons_self) n
      rw [Heap.modify_push_self, Instance.setSlot_of_not_mem v (new label List.mem_cons_self)]
        at written
      have fresh : ∀ l ∈ labels, slotName l ∉ ((slotName label, v) :: done).map Prod.fst := by
        intro l hl mem
        rcases List.mem_cons.1 mem with eq | mem
        · exact nodup.1 (slotName_injective eq ▸ hl)
        · exact new l (List.mem_cons_of_mem _ hl) mem
      rw [List.map_cons, Context.runBody_cons written]
      refine (ih tail nodup.2 (Nat.succ.inj length)
        (fun entry mem => values entry (List.mem_cons_of_mem _ mem)) fresh).trans ?_
      simp

theorem nodup_locals : ("self" :: m.labels).Nodup :=
  List.nodup_cons.2 ⟨fun mem => e.usable.needed _ mem (by decide), e.nodup_labels⟩

theorem bindArguments_initialiser {vs : List Datum} (length : vs.length = m.labels.length)
    (self : Datum) :
    bindArguments (initialiser m).parameters (self :: vs) =
      pure (("self", self) :: m.labels.zip vs) := by
  have params := parameterNames_initialiser e.length_typeParams
  have size := congrArg List.length params
  rw [List.length_map, List.length_cons] at size
  rw [bindArguments_eq (plain_initialiser m) (by rw [size, List.length_cons, length]), params]
  rfl

/-- No parameter of the initialiser hides `object`. -/
theorem lookup_object {vs : List Datum} (length : vs.length = m.labels.length) (self : Datum) :
    (("self", self) :: m.labels.zip vs).lookup "object" = none := by
  refine lookup_eq_none_of_not_mem ?_
  rw [map_fst_locals length self, List.mem_cons, not_or]
  exact ⟨by decide, fun mem => e.usable.needed _ mem (by decide)⟩

/-- Making an instance puts it on the heap with the arguments in its slots. -/
theorem construct_eq {vs : List Datum} (length : vs.length = m.labels.length) (h : Heap) (n : Nat) :
    (Context.withDepth p (n + 2)).construct m.className vs h =
      (.ok (.object h.instances.length), h.push ⟨m.className, ((slots m).zip vs).reverse⟩) := by
  have found : p.find? m.className "__init__" = some (.method (.written (initialiser m))) :=
    e.find?_concrete (initialiser m) (by simp)
  have keys := map_fst_locals length (.object h.instances.length)
  have ran : (Context.withDepth p (n + 1)).runFunction (initialiser m)
      (.object h.instances.length :: vs) (h.push ⟨m.className, []⟩) =
        (.ok .null, h.push ⟨m.className, ((slots m).zip vs).reverse⟩) := by
    rw [Context.runFunction_eq (e.bindArguments_initialiser length _), body_initialiser]
    refine (e.runBody_slotWrites h rfl (e.lookup_object length _) (List.Subset.refl _)
      e.nodup_labels length.symm ?_ (by simp) n).trans ?_
    · intro entry mem
      exact lookup_of_nodup (keys ▸ e.nodup_locals) (List.mem_cons_of_mem _ mem)
    · rw [List.append_nil]
      rfl
  refine Context.construct_ok (r := .written (initialiser m)) ?_ ?_ trivial ran
  · rw [Context.program_withDepth, e.isConcrete]
  · rw [Context.program_withDepth, found]

/-- The new instance holds the arguments. -/
theorem holds_new {vs : List Datum} (length : vs.length = m.labels.length) (h : Heap) :
    Holds (h.push ⟨m.className, ((slots m).zip vs).reverse⟩) h.instances.length m vs := by
  refine ⟨_, Heap.get?_push_self .., rfl, ?_⟩
  have size : (slots m).length = vs.length := by
    rw [slots, List.length_map, length]
  have keys : (((slots m).zip vs).reverse.map Prod.fst).Nodup := by
    rw [List.map_reverse, List.map_fst_zip (by omega)]
    exact List.pairwise_reverse.2 ((nodup_slots e.nodup_labels).imp Ne.symm)
  refine List.ext_getElem (by simp [size]) fun j hj hj' => ?_
  rw [List.length_map] at hj hj'
  rw [List.getElem_map, List.getElem_map]
  refine lookup_of_nodup keys (List.mem_reverse.2 ?_)
  have lt : j < ((slots m).zip vs).length := by
    rw [List.length_zip]
    omega
  have entry := List.getElem_mem lt
  rwa [List.getElem_zip] at entry

end Program.Emitted
end Polyad.Machine
