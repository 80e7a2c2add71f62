import Polyad.Proofs.Machine.Harmless

/-!
# What harmless code keeps

Running harmless code on harmless values leaves every instance on the heap as it is, puts nothing
on it that is not harmless, and gives a harmless value. This is shown along the definitions of
comparing, hashing, showing and calling, under the assumption that it holds of the calls inside.
-/

namespace Polyad.Machine

open Code

namespace Exec

/-- Running something keeps the heap: instances stay as they are, nothing harmful gets on it, and
what is given is as told. -/
def Keeps {α : Type} (m : Exec α) (P : α → Prop) : Prop :=
  ∀ h : Heap, h.Harmless → h.Within (m h).2 ∧ (m h).2.Harmless ∧ ∀ a, (m h).1 = .ok a → P a

variable {α β : Type} {P : α → Prop} {Q : β → Prop}

theorem keeps_pure {a : α} (holds : P a) : (pure a : Exec α).Keeps P := by
  intro h harmless
  refine ⟨.refl h, harmless, fun b eq => ?_⟩
  cases eq
  exact holds

theorem keeps_throw {e : Fault} : (throw e : Exec α).Keeps P := by
  intro h harmless
  exact ⟨.refl h, harmless, fun b eq => by cases eq⟩

/-- What is known of the result of the first step can be used in the second. -/
theorem Keeps.bind {m : Exec α} {f : α → Exec β} (first : m.Keeps P)
    (next : ∀ a, P a → (f a).Keeps Q) : (m >>= f).Keeps Q := by
  intro h harmless
  obtain ⟨within, kept, given⟩ := first h harmless
  rcases step : m h with ⟨result, g⟩
  rw [step] at within kept given
  cases result with
  | error e =>
    rw [bind_error step]
    exact ⟨within, kept, fun b eq => by cases eq⟩
  | ok a =>
    obtain ⟨within', kept', given'⟩ := next a (given a rfl) g kept
    rw [bind_ok step]
    exact ⟨within.trans within', kept', given'⟩

/-- Nothing comes after a fault. -/
theorem keeps_throw_bind {e : Fault} {f : α → Exec β} :
    ((throw e : Exec α) >>= f).Keeps Q :=
  Keeps.bind (P := fun _ => False) keeps_throw fun _ absurd => absurd.elim

theorem Keeps.imp {P' : α → Prop} {m : Exec α} (keeps : m.Keeps P) (weaker : ∀ a, P a → P' a) :
    m.Keeps P' := by
  intro h harmless
  obtain ⟨within, kept, given⟩ := keeps h harmless
  exact ⟨within, kept, fun a eq => weaker a (given a eq)⟩

theorem keeps_ite {c : Prop} [Decidable c] {m n : Exec α} (first : m.Keeps P)
    (second : n.Keeps P) : (if c then m else n).Keeps P := by
  split
  · exact first
  · exact second

theorem keeps_find? {test : α → Exec Bool} {xs : List α}
    (each : ∀ x ∈ xs, (test x).Keeps fun _ => True) :
    (find? test xs).Keeps fun found => ∀ x, found = some x → x ∈ xs := by
  induction xs with
  | nil => exact keeps_pure fun x eq => by cases eq
  | cons x xs ih =>
    obtain ⟨head, tail⟩ := List.forall_mem_cons.1 each
    refine head.bind fun passes _ => keeps_ite (keeps_pure fun y eq => ?_) ?_
    · cases eq
      exact List.mem_cons_self
    · exact (ih tail).imp fun found mem y eq => List.mem_cons_of_mem _ (mem y eq)

theorem keeps_foldlM {step : β → α → Exec β} {xs : List α} {init : β} (start : Q init)
    (each : ∀ b, ∀ x ∈ xs, Q b → (step b x).Keeps Q) : (xs.foldlM step init).Keeps Q := by
  induction xs generalizing init with
  | nil => exact keeps_pure start
  | cons x xs ih =>
    rw [List.foldlM_cons]
    exact (each init x List.mem_cons_self start).bind fun b holds =>
      ih holds fun b y mem => each b y (List.mem_cons_of_mem _ mem)

/-! ## Steps on the heap -/

theorem harmless_slot? {h : Heap} (harmless : h.Harmless) {id : Nat} {i : Instance}
    (found : h.get? id = some i) {name : String} {v : Datum} (held : i.slot? name = some v) :
    v.Harmless := by
  have stored : (name, v) ∈ i.slots := by
    obtain ⟨before, after, eq, -⟩ := List.lookup_eq_some_iff.1 held
    rw [eq]
    exact List.mem_append_right _ List.mem_cons_self
  exact harmless i (List.mem_of_getElem? found) _ stored

theorem keeps_getInstance (id : Nat) : (getInstance id).Keeps fun _ => True := by
  intro h harmless
  cases found : h.get? id with
  | some i =>
    rw [getInstance_eq_ok found]
    exact ⟨.refl h, harmless, fun _ _ => trivial⟩
  | none =>
    have missing : instance? id h = (.ok none, h) := by rw [instance?, found]
    rw [getInstance, bind_ok missing]
    exact keeps_throw h harmless

theorem keeps_getSlot (id : Nat) (name : String) : (getSlot id name).Keeps Datum.Harmless := by
  intro h harmless
  cases found : h.get? id with
  | some i =>
    rw [getSlot, bind_ok (getInstance_eq_ok found)]
    cases held : i.slot? name with
    | some v => exact keeps_pure (harmless_slot? harmless found held) h harmless
    | none => exact keeps_throw h harmless
  | none =>
    have missing : instance? id h = (.ok none, h) := by rw [instance?, found]
    have absent : getInstance id h = (.error .noAttribute, h) := by
      rw [getInstance, bind_ok missing]
      rfl
    rw [getSlot, bind_error absent]
    exact ⟨.refl h, harmless, fun v eq => by cases eq⟩

theorem keeps_label : label.Keeps fun _ => True :=
  fun _ harmless => ⟨.of_eq rfl, harmless, fun _ _ => trivial⟩

theorem keeps_warn (category message : String) : (warn category message).Keeps fun _ => True :=
  fun _ harmless => ⟨.of_eq rfl, harmless, fun _ _ => trivial⟩

variable {vs : List Datum}

theorem keeps_list (each : AllHarmless vs) : (list vs).Keeps Datum.Harmless :=
  keeps_label.bind fun _ _ => keeps_pure (Datum.harmless_list.2 each)

theorem keeps_tuple (each : AllHarmless vs) : (tuple vs).Keeps Datum.Harmless := by
  unfold tuple
  refine keeps_ite (keeps_pure (Datum.harmless_of_plain rfl)) ?_
  exact keeps_label.bind fun _ _ => keeps_pure (Datum.harmless_tuple.2 each)

theorem keeps_dict {es : List (Datum × Datum)} (each : ∀ e ∈ es, e.1.Harmless ∧ e.2.Harmless) :
    (dict es).Keeps Datum.Harmless :=
  keeps_label.bind fun _ _ => keeps_pure (Datum.harmless_dict.2 each)

theorem keeps_float (x : Float) : (float x).Keeps Datum.Harmless :=
  keeps_label.bind fun _ _ => keeps_pure (Datum.harmless_of_plain rfl)

end Exec

/-! ## Programs and contexts -/

/-- A program in which code finds nothing but harmless code under all other names. -/
structure Program.Harmless (p : Program) : Prop where
  names : ∀ name v, p.lookup name = some v → v.Harmless
  attributes : ∀ c name a, name ∉ setterNames → p.find? c name = some a → a.Harmless
  /-- Reading an attribute runs harmless code, whatever its name. -/
  properties : ∀ c name r, p.find? c name = some (.property r) → r.Harmless

/-- A context in which the calls inside keep the heap. -/
structure Context.Keeps (cx : Context) : Prop where
  program : cx.program.Harmless
  run : ∀ r args, r.Harmless → AllHarmless args → (cx.run r args).Keeps Datum.Harmless
  construct : ∀ name args, AllHarmless args → (cx.construct name args).Keeps Datum.Harmless

/-- Values one by one. -/
@[simp] theorem allHarmless_nil : AllHarmless [] := by simp [AllHarmless]

@[simp] theorem allHarmless_cons {v : Datum} {vs : List Datum} :
    AllHarmless (v :: vs) ↔ v.Harmless ∧ AllHarmless vs := by
  simp only [AllHarmless, List.forall_mem_cons]

@[simp] theorem allHarmless_append {vs ws : List Datum} :
    AllHarmless (vs ++ ws) ↔ AllHarmless vs ∧ AllHarmless ws := by
  simp only [AllHarmless, List.mem_append, or_imp, forall_and]

theorem harmless_object (id : Nat) : (Datum.object id).Harmless := Datum.harmless_of_plain rfl

theorem harmless_text (s : String) : (Datum.text s).Harmless := Datum.harmless_of_plain rfl

namespace Context

open Exec

variable {cx : Context} (k : cx.Keeps)

/-! ## Methods -/

theorem keeps_className (id : Nat) : (className id).Keeps fun _ => True :=
  (keeps_getInstance id).bind fun _ _ => keeps_pure trivial

namespace Keeps

include k

theorem method? (id : Nat) {name : String} (plain : name ∉ setterNames) :
    (cx.method? id name).Keeps fun found => ∀ r, found = some r → r.Harmless := by
  unfold Context.method?
  refine (keeps_className id).bind fun c _ => ?_
  split
  · next r found =>
    refine keeps_pure fun s eq => ?_
    cases eq
    exact k.program.attributes c name _ plain found
  · exact keeps_pure fun s eq => by cases eq

theorem special? (id : Nat) {name : String} (plain : name ∉ setterNames) :
    (cx.special? id name).Keeps fun found => ∀ r, found = some r → r.Harmless := by
  unfold Context.special?
  refine (k.method? id plain).bind fun found harmless => ?_
  split
  · exact keeps_pure fun s eq => by cases eq
  · exact keeps_pure harmless

theorem send (id : Nat) {name : String} (plain : name ∉ setterNames) {args : List Datum}
    (each : AllHarmless args) : (cx.send id name args).Keeps Datum.Harmless := by
  unfold Context.send
  refine (k.special? id plain).bind fun found harmless => ?_
  split
  · exact k.run _ _ (harmless _ rfl) (allHarmless_cons.2 ⟨harmless_object id, each⟩)
  · exact keeps_throw

/-! ## Truth, length and items -/

theorem length (v : Datum) : (cx.length v).Keeps fun _ => True := by
  unfold Context.length
  split
  · exact keeps_pure trivial
  · exact keeps_pure trivial
  · exact keeps_pure trivial
  · exact keeps_pure trivial
  · refine (k.send _ (by decide) allHarmless_nil).bind fun v _ => ?_
    split
    · exact keeps_pure trivial
    · exact keeps_throw
  · exact keeps_throw

theorem truth (v : Datum) : (cx.truth v).Keeps fun _ => True := by
  unfold Context.truth
  split
  · refine (k.special? _ (by decide)).bind fun found _ => ?_
    split
    · exact (k.length _).bind fun n _ => keeps_pure trivial
    · exact keeps_pure trivial
  · exact keeps_pure trivial

theorem iterate {v : Datum} (harmless : v.Harmless) : (cx.iterate v).Keeps AllHarmless := by
  unfold Context.iterate
  split
  · refine keeps_pure fun w mem => ?_
    obtain ⟨c, -, rfl⟩ := List.mem_map.1 mem
    exact harmless_text _
  · exact keeps_pure (Datum.harmless_list.1 harmless)
  · exact keeps_pure (Datum.harmless_tuple.1 harmless)
  · refine keeps_pure fun w mem => ?_
    obtain ⟨e, there, rfl⟩ := List.mem_map.1 mem
    exact (Datum.harmless_dict.1 harmless e there).1
  · exact keeps_pure (Datum.harmless_iterator.1 harmless)
  · refine (k.send _ (by decide) allHarmless_nil).bind fun v given => ?_
    split
    · exact keeps_pure (Datum.harmless_iterator.1 given)
    · exact keeps_throw
  · exact keeps_throw

/-! ## Equality -/

variable {x y : Datum}

theorem ask (hx : x.Harmless) (hy : y.Harmless) : (cx.ask x y).Keeps Datum.Harmless := by
  have unknown : Datum.notImplemented.Harmless := Datum.harmless_of_plain rfl
  unfold Context.ask
  split
  · refine (k.special? _ (by decide)).bind fun found harmless => ?_
    split
    · exact k.run _ _ (harmless _ rfl) (by simp [hx, hy])
    · exact keeps_pure unknown
  · exact keeps_pure unknown

theorem negotiate (hx : x.Harmless) (hy : y.Harmless) :
    (cx.negotiate x y).Keeps fun _ => True := by
  unfold Context.negotiate
  refine (k.ask hx hy).bind fun v _ => ?_
  split
  · refine (k.ask hy hx).bind fun w _ => ?_
    split
    · exact keeps_pure trivial
    · exact k.truth _
  · exact k.truth _

theorem equalLeaf (hx : x.Harmless) (hy : y.Harmless) :
    (cx.equalLeaf x y).Keeps fun _ => True := by
  unfold Context.equalLeaf
  split
  · exact k.negotiate hx hy
  · exact k.negotiate hx hy
  · split
    · exact keeps_pure trivial
    · exact keeps_pure trivial

omit k

mutual

theorem equal (k : cx.Keeps) {x y : Datum} (hx : x.Harmless) (hy : y.Harmless) :
    (cx.equal x y).Keeps fun _ => True := by
  unfold Context.equal
  split
  · exact keeps_ite (equalItems k _ _ (Datum.harmless_list.1 hx) (Datum.harmless_list.1 hy))
      (keeps_pure trivial)
  · exact keeps_ite (equalItems k _ _ (Datum.harmless_tuple.1 hx) (Datum.harmless_tuple.1 hy))
      (keeps_pure trivial)
  · exact keeps_ite (containsEntries k _ _ (Datum.harmless_dict.1 hy) (Datum.harmless_dict.1 hx))
      (keeps_pure trivial)
  · obtain ⟨start, stop, step⟩ := Datum.harmless_slice.1 hx
    obtain ⟨start', stop', step'⟩ := Datum.harmless_slice.1 hy
    refine (equal k start start').bind fun _ _ => keeps_ite ?_ (keeps_pure trivial)
    refine (equal k stop stop').bind fun _ _ => keeps_ite ?_ (keeps_pure trivial)
    exact equal k step step'
  · exact k.equalLeaf hx hy

theorem equalItems (k : cx.Keeps) (xs ys : List Datum) (hx : AllHarmless xs) (hy : AllHarmless ys) :
    (cx.equalItems xs ys).Keeps fun _ => True := by
  unfold Context.equalItems
  split
  · obtain ⟨hx, hxs⟩ := allHarmless_cons.1 hx
    obtain ⟨hy, hys⟩ := allHarmless_cons.1 hy
    refine (keeps_ite (keeps_pure trivial) (equal k hx hy)).bind fun _ _ => ?_
    exact keeps_ite (equalItems k _ _ hxs hys) (keeps_pure trivial)
  · exact keeps_pure trivial
  · exact keeps_pure trivial

theorem containsEntries (k : cx.Keeps) (ys xs : List (Datum × Datum))
    (hy : ∀ e ∈ ys, e.1.Harmless ∧ e.2.Harmless) (hx : ∀ e ∈ xs, e.1.Harmless ∧ e.2.Harmless) :
    (cx.containsEntries ys xs).Keeps fun _ => True := by
  unfold Context.containsEntries
  split
  · exact keeps_pure trivial
  · obtain ⟨⟨hk, hv⟩, rest⟩ := List.forall_mem_cons.1 hx
    refine (keeps_find? fun e mem => ?_).bind fun found mem => ?_
    · exact keeps_ite (keeps_pure trivial) (equal k hk (hy e mem).1)
    · split
      · have hw := (hy _ (mem _ rfl)).2
        refine (keeps_ite (keeps_pure trivial) (equal k hv hw)).bind fun _ _ => ?_
        exact keeps_ite (containsEntries k _ _ hy rest) (keeps_pure trivial)
      · exact keeps_pure trivial

end

include k

theorem same (hx : x.Harmless) (hy : y.Harmless) : (cx.same x y).Keeps fun _ => True :=
  keeps_ite (keeps_pure trivial) (k.equal hx hy)

/-! ## Hashing -/

omit k in
theorem leafDigest (v : Datum) : (leafDigest v).Keeps fun _ => True := by
  unfold Context.leafDigest
  repeat' split
  all_goals first | exact keeps_pure trivial | exact keeps_throw

theorem instanceDigest (id : Nat) : (cx.instanceDigest id).Keeps fun _ => True := by
  unfold Context.instanceDigest
  refine (k.special? id (by decide)).bind fun found harmless => ?_
  split
  · refine (k.run _ _ (harmless _ rfl) (by simp [harmless_object])).bind fun v _ => ?_
    split
    · exact keeps_pure trivial
    · split
      · exact keeps_pure trivial
      · exact keeps_throw
  · exact keeps_pure trivial

omit k

mutual

theorem digest (k : cx.Keeps) (v : Datum) : (cx.digest v).Keeps fun _ => True := by
  unfold Context.digest
  split
  · exact (digests k _).bind fun _ _ => keeps_pure trivial
  · exact k.instanceDigest _
  · exact leafDigest _

theorem digests (k : cx.Keeps) (vs : List Datum) : (cx.digests vs).Keeps fun _ => True := by
  unfold Context.digests
  split
  · exact keeps_pure trivial
  · exact (digest k _).bind fun _ _ => (digests k _).bind fun _ _ => keeps_pure trivial

end

include k

/-! ## Mappings -/

variable {es : List (Datum × Datum)}

theorem putEntry (hx : x.Harmless) (hy : y.Harmless)
    (each : ∀ e ∈ es, e.1.Harmless ∧ e.2.Harmless) :
    (cx.putEntry x y es).Keeps fun es => ∀ e ∈ es, e.1.Harmless ∧ e.2.Harmless := by
  induction es with
  | nil => exact keeps_pure (by simp [hx, hy])
  | cons e es ih =>
    obtain ⟨⟨hk, hv⟩, rest⟩ := List.forall_mem_cons.1 each
    refine (k.same hk hx).bind fun _ _ => keeps_ite ?_ ?_
    · exact keeps_pure (List.forall_mem_cons.2 ⟨⟨hk, hy⟩, rest⟩)
    · exact (ih rest).bind fun es' each' =>
        keeps_pure (List.forall_mem_cons.2 ⟨⟨hk, hv⟩, each'⟩)

theorem putEntries (each : ∀ e ∈ es, e.1.Harmless ∧ e.2.Harmless) :
    (cx.putEntries es).Keeps fun es => ∀ e ∈ es, e.1.Harmless ∧ e.2.Harmless := by
  refine keeps_foldlM (by simp) fun done e mem harmless => ?_
  refine (k.digest _).bind fun _ _ => ?_
  exact k.putEntry (each e mem).1 (each e mem).2 harmless

theorem lookupEntry (hx : x.Harmless) (each : ∀ e ∈ es, e.1.Harmless ∧ e.2.Harmless) :
    (cx.lookupEntry x es).Keeps fun found => ∀ v, found = some v → v.Harmless := by
  unfold Context.lookupEntry
  refine (k.digest _).bind fun _ _ => ?_
  refine (keeps_find? fun e mem => k.same (each e mem).1 hx).bind fun found mem => ?_
  refine keeps_pure fun v eq => ?_
  obtain ⟨e, rfl, rfl⟩ := Option.map_eq_some_iff.1 eq
  exact (each e (mem e rfl)).2

/-! ## Text -/

theorem instanceText (id : Nat) : (cx.instanceText id).Keeps fun _ => True := by
  unfold Context.instanceText
  refine (k.special? id (by decide)).bind fun found harmless => ?_
  split
  · refine (k.run _ _ (harmless _ rfl) (by simp [harmless_object])).bind fun v _ => ?_
    split
    · exact keeps_pure trivial
    · exact keeps_throw
  · exact (keeps_className id).bind fun _ _ => keeps_pure trivial

omit k

mutual

theorem shown (k : cx.Keeps) (v : Datum) : (cx.shown v).Keeps fun _ => True := by
  unfold Context.shown
  split
  · exact (shownItems k _).bind fun _ _ => keeps_pure trivial
  · exact (shownItems k _).bind fun _ _ => keeps_pure trivial
  · exact (shownEntries k _).bind fun _ _ => keeps_pure trivial
  · exact (shown k _).bind fun _ _ => (shown k _).bind fun _ _ =>
      (shown k _).bind fun _ _ => keeps_pure trivial
  · exact k.instanceText _
  · exact keeps_pure trivial
  · exact keeps_pure trivial

theorem shownItems (k : cx.Keeps) (vs : List Datum) :
    (cx.shownItems vs).Keeps fun _ => True := by
  unfold Context.shownItems
  split
  · exact keeps_pure trivial
  · exact (shown k _).bind fun _ _ => (shownItems k _).bind fun _ _ => keeps_pure trivial

theorem shownEntries (k : cx.Keeps) (es : List (Datum × Datum)) :
    (cx.shownEntries es).Keeps fun _ => True := by
  unfold Context.shownEntries
  split
  · exact keeps_pure trivial
  · exact (shown k _).bind fun _ _ => (shown k _).bind fun _ _ =>
      (shownEntries k _).bind fun _ _ => keeps_pure trivial

end

include k

theorem plainText (v : Datum) : (cx.plainText v).Keeps fun _ => True := by
  unfold Context.plainText
  split
  · exact keeps_pure trivial
  · exact k.shown v

/-! ## Classes -/

omit k in
theorem typeName (v : Datum) : (cx.typeName v).Keeps fun _ => True := by
  unfold Context.typeName
  split
  · exact keeps_className _
  · exact keeps_pure trivial
  · exact keeps_pure trivial

omit k in
theorem isInstance (v : Datum) (kind : String) : (cx.isInstance v kind).Keeps fun _ => True := by
  unfold Context.isInstance
  split
  · exact (keeps_className _).bind fun _ _ => keeps_pure trivial
  · exact keeps_pure trivial

end Keeps
end Context
end Polyad.Machine
