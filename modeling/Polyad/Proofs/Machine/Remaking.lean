import Polyad.Proofs.Machine.Rebuilding

/-!
# Making values again

A deep copy and a pickled copy of a value is that value rebuilt, whatever was made before it, if the
labels of collections tell them apart. The one thing that stands in the way is a null tuple besides
that of the file: no value that holds one can be pickled, and all others can.
-/

namespace Polyad.Machine

open Code Generated

/-! ## Values -/

/-- A null tuple that is not the one of the file, or a value with one in it. -/
inductive HoldsStray (f : Family) (h : Heap) : Datum → Prop
  | null {id : Nat} {c : String} : Stores f h id c [] → IsNullClass f c → id ≠ 0 →
      HoldsStray f h (.object id)
  | object {id : Nat} {c : String} {vs : List Datum} {v : Datum} : Stores f h id c vs → v ∈ vs →
      HoldsStray f h v → HoldsStray f h (.object id)
  | list {xs : List Datum} {x : Datum} (label : Nat) : x ∈ xs → HoldsStray f h x →
      HoldsStray f h (.list xs label)
  | tuple {xs : List Datum} {x : Datum} (label : Nat) : x ∈ xs → HoldsStray f h x →
      HoldsStray f h (.tuple xs label)
  | key {es : List (Datum × Datum)} {e : Datum × Datum} (label : Nat) : e ∈ es →
      HoldsStray f h e.1 → HoldsStray f h (.dict es label)
  | value {es : List (Datum × Datum)} {e : Datum × Datum} (label : Nat) : e ∈ es →
      HoldsStray f h e.2 → HoldsStray f h (.dict es label)

/-- What a way of making values again does not make. -/
def Refused (f : Family) (h : Heap) (kind : CopyKind) (v : Datum) : Prop :=
  kind = .pickled ∧ HoldsStray f h v

variable {p : Program} {f : Family} {h g : Heap} {table : Nat → Datum} {kind : CopyKind}
variable {m : Made} {v : Datum} {xs : List Datum} {es : List (Datum × Datum)} {label : Nat}
variable {α β : Type}

section Refused

theorem not_refused_whole (single : v.hasParts = false) : ¬Refused f h kind v := by
  rintro ⟨-, stray⟩
  cases stray <;> cases single

theorem refused_list_iff (label : Nat) :
    Refused f h kind (.list xs label) ↔ ∃ x ∈ xs, Refused f h kind x := by
  constructor
  · rintro ⟨pickled, stray⟩
    cases stray with
    | list _ mem stray => exact ⟨_, mem, pickled, stray⟩
  · rintro ⟨x, mem, pickled, stray⟩
    exact ⟨pickled, .list _ mem stray⟩

theorem refused_tuple_iff (label : Nat) :
    Refused f h kind (.tuple xs label) ↔ ∃ x ∈ xs, Refused f h kind x := by
  constructor
  · rintro ⟨pickled, stray⟩
    cases stray with
    | tuple _ mem stray => exact ⟨_, mem, pickled, stray⟩
  · rintro ⟨x, mem, pickled, stray⟩
    exact ⟨pickled, .tuple _ mem stray⟩

theorem refused_dict_iff (label : Nat) : Refused f h kind (.dict es label) ↔
    ∃ e ∈ es, Refused f h kind e.1 ∨ Refused f h kind e.2 := by
  constructor
  · rintro ⟨pickled, stray⟩
    cases stray with
    | key _ mem stray => exact ⟨_, mem, .inl ⟨pickled, stray⟩⟩
    | value _ mem stray => exact ⟨_, mem, .inr ⟨pickled, stray⟩⟩
  · rintro ⟨e, mem, ⟨pickled, stray⟩ | ⟨pickled, stray⟩⟩
    · exact ⟨pickled, .key _ mem stray⟩
    · exact ⟨pickled, .value _ mem stray⟩

end Refused

/-! ## Steps in a row -/

namespace Copying

theorem bind_ok {run : Copying α} {next : α → Copying β} {a : α} {m' : Made} {g' : Heap}
    (ran : run m g = (.ok (a, m'), g')) : (run >>= next) m g = next a m' g' :=
  Exec.bind_ok (f := fun r : α × Made => next r.1 r.2) ran

theorem bind_error {run : Copying α} {next : α → Copying β} {e : Fault} {g' : Heap}
    (ran : run m g = (.error e, g')) : (run >>= next) m g = (.error e, g') :=
  Exec.bind_error (f := fun r : α × Made => next r.1 r.2) ran

theorem lift_ok {run : Exec α} {a : α} {g' : Heap} (ran : run g = (.ok a, g')) :
    (liftM run : Copying α) m g = (.ok (a, m), g') := Exec.bind_ok ran

end Copying

/-- What was made so far is what it was made from, rebuilt, and none of it is refused. New labels
may be noted too, those of tuples that were only put together to be written down. -/
structure Tracks (f : Family) (h : Heap) (table : Nat → Datum) (kind : CopyKind) (m : Made)
    (g : Heap) : Prop where
  within : h.Within g
  labels : h.labels ≤ g.labels
  instances : ∀ e ∈ m.instances,
    Rebuilt f g (.object e.1) e.2 ∧ ¬Refused f h kind (.object e.1)
  collections : ∀ e ∈ m.collections, e.1 ≠ 0 ∧ e.1 < g.labels ∧
    (e.1 < h.labels → Rebuilt f g (table e.1) e.2 ∧ ¬Refused f h kind (table e.1))

/-- Making something again either gives something good, or it is refused for a reason. -/
inductive Remakes (f : Family) (h : Heap) (table : Nat → Datum) (kind : CopyKind)
    (run : Copying α) (m : Made) (g : Heap) (good : Heap → α → Prop) (reason : Prop) : Prop
  | made {a : α} {m' : Made} {g' : Heap} : run m g = (.ok (a, m'), g') →
      Tracks f h table kind m' g' → g.Within g' → g.labels ≤ g'.labels → good g' a → ¬reason →
      Remakes f h table kind run m g good reason
  | refused {g' : Heap} : run m g = (.error .notReconstructible, g') → reason →
      Remakes f h table kind run m g good reason

theorem Tracks.mono {g' : Heap} (t : Tracks f h table kind m g) (within : g.Within g')
    (labels : g.labels ≤ g'.labels) : Tracks f h table kind m g' where
  within := t.within.trans within
  labels := Nat.le_trans t.labels labels
  instances e mem := ⟨(t.instances e mem).1.mono within, (t.instances e mem).2⟩
  collections e mem := by
    obtain ⟨nonzero, lt, known⟩ := t.collections e mem
    exact ⟨nonzero, Nat.lt_of_lt_of_le lt labels,
      fun old => ⟨(known old).1.mono within, (known old).2⟩⟩

namespace Remakes

theorem lift {run : Exec α} {a : α} {g' : Heap} {good : Heap → α → Prop} {reason : Prop}
    (t : Tracks f h table kind m g) (ran : run g = (.ok a, g')) (within : g.Within g')
    (labels : g.labels ≤ g'.labels) (is : good g' a) (fine : ¬reason) :
    Remakes f h table kind (liftM run) m g good reason :=
  .made (Copying.lift_ok ran) (t.mono within labels) within labels is fine

/-- What only takes a label leaves the instances as they are. -/
theorem labelled {run : Exec Datum} {w : Datum} {reason : Prop} (t : Tracks f h table kind m g)
    (ran : run g = (.ok w, g.labelled)) (is : Rebuilt f g v w) (fine : ¬reason) :
    Remakes f h table kind (liftM run) m g (fun g w => Rebuilt f g v w) reason :=
  .lift t ran (.of_eq rfl) (Nat.le_succ _) (is.mono (.of_eq rfl)) fine

variable {run : Copying α} {next : α → Copying β} {good : Heap → α → Prop}
variable {good' : Heap → β → Prop} {reason reason' : Prop}

theorem pure {a : α} (t : Tracks f h table kind m g) (is : good g a) (fine : ¬reason) :
    Remakes f h table kind (Pure.pure a) m g good reason :=
  .made rfl t (.refl g) (Nat.le_refl _) is fine

theorem congr (r : Remakes f h table kind run m g good reason) (iff : reason ↔ reason') :
    Remakes f h table kind run m g good reason' := by
  rwa [propext iff] at r

/-- The reason of a row of steps is that of one of them. -/
theorem bind (first : Remakes f h table kind run m g good reason)
    (rest : ∀ a m' g', Tracks f h table kind m' g' → g.Within g' → g.labels ≤ g'.labels →
      good g' a → Remakes f h table kind (next a) m' g' good' reason') :
    Remakes f h table kind (run >>= next) m g good' (reason ∨ reason') := by
  cases first with
  | refused ran why => exact .refused (Copying.bind_error ran) (.inl why)
  | made ran tracks within labels is fine =>
    cases rest _ _ _ tracks within labels is with
    | refused ran' why => exact .refused ((Copying.bind_ok ran).trans ran') (.inr why)
    | made ran' tracks' within' labels' is' fine' =>
      exact .made ((Copying.bind_ok ran).trans ran') tracks' (within.trans within')
        (Nat.le_trans labels labels') is' (not_or.2 ⟨fine, fine'⟩)

/-- The rest of a run in which nothing can be refused any more. -/
theorem andThen (first : Remakes f h table kind run m g good reason)
    (rest : ∀ a m' g', Tracks f h table kind m' g' → g.Within g' → g.labels ≤ g'.labels →
      good g' a → ¬reason → Remakes f h table kind (next a) m' g' good' False) :
    Remakes f h table kind (run >>= next) m g good' reason := by
  cases first with
  | refused ran why => exact .refused (Copying.bind_error ran) why
  | made ran tracks within labels is fine =>
    cases rest _ _ _ tracks within labels is fine with
    | refused _ why => exact why.elim
    | made ran' tracks' within' labels' is' _ =>
      exact .made ((Copying.bind_ok ran).trans ran') tracks' (within.trans within')
        (Nat.le_trans labels labels') is' fine

/-- A first step that nothing comes of but a value and some labels. -/
theorem after {a : α} {g' : Heap} (ran : run m g = (.ok (a, m), g')) (within : g.Within g')
    (labels : g.labels ≤ g'.labels)
    (rest : Remakes f h table kind (next a) m g' good' reason) :
    Remakes f h table kind (run >>= next) m g good' reason := by
  cases rest with
  | refused ran' why => exact .refused ((Copying.bind_ok ran).trans ran') why
  | made ran' tracks within' labels' is fine =>
    exact .made ((Copying.bind_ok ran).trans ran') tracks (within.trans within')
      (Nat.le_trans labels labels') is fine

end Remakes

/-! ## Labels -/

theorem mem_of_lookup {entries : List (Nat × Datum)} {key : Nat}
    (found : entries.lookup key = some v) : (key, v) ∈ entries := by
  obtain ⟨before, after, eq, -⟩ := List.lookup_eq_some_iff.1 found
  simp [eq]

/-- A label that a collection may have while values are made again. -/
structure Fits (f : Family) (h : Heap) (table : Nat → Datum) (kind : CopyKind) (m : Made)
    (g : Heap) (label : Nat) (v : Datum) : Prop where
  lt : label < g.labels
  old : label < h.labels → table label = v
  known : ∀ w, m.collections.lookup label = some w →
    Rebuilt f g v w ∧ ¬Refused f h kind v

section Labels

variable {w : Datum} {g' : Heap}

theorem Tracks.fits (t : Tracks f h table kind m g) (lt : label < h.labels)
    (is : table label = v) : Fits f h table kind m g label v where
  lt := Nat.lt_of_lt_of_le lt t.labels
  old _ := is
  known _ found := is ▸ (t.collections _ (mem_of_lookup found)).2.2 lt

/-- The next label fits anything. -/
theorem Tracks.fits_new (t : Tracks f h table kind m g) (labels : g.labels < g'.labels)
    (v : Datum) : Fits f h table kind m g' g.labels v where
  lt := labels
  old lt := absurd lt (Nat.not_lt.2 t.labels)
  known _ found := absurd (t.collections _ (mem_of_lookup found)).2.1 (Nat.lt_irrefl _)

theorem Remakes.keep (t : Tracks f h table kind m g) (nonzero : label ≠ 0) (lt : label < g.labels)
    (old : label < h.labels → table label = v) (is : Rebuilt f g v w)
    (fine : ¬Refused f h kind v) :
    Remakes f h table kind (Copying.keep label w) m g (fun g w => Rebuilt f g v w) False := by
  have kept : Copying.keep label w m g =
      (.ok (w, { m with collections := (label, w) :: m.collections }), g) := rfl
  refine .made kept ?_ (.refl g) (Nat.le_refl _) is id
  refine ⟨t.within, t.labels, t.instances, fun e mem => ?_⟩
  rcases List.mem_cons.1 mem with rfl | mem
  · exact ⟨nonzero, lt, fun known => by rw [old known]; exact ⟨is, fine⟩⟩
  · exact t.collections e mem

/-- A new collection is noted. -/
theorem Remakes.keep_new {run : Exec Datum} (t : Tracks f h table kind m g)
    (ran : run g = (.ok w, g.labelled)) (nonzero : label ≠ 0) (lt : label < g.labels)
    (old : label < h.labels → table label = v) (is : Rebuilt f g v w)
    (fine : ¬Refused f h kind v) :
    Remakes f h table kind (liftM run >>= Copying.keep label) m g (fun g w => Rebuilt f g v w)
      False :=
  (Remakes.labelled t ran is id).andThen fun _ _ _ t' _ labels made _ =>
    .keep t' nonzero (Nat.lt_of_lt_of_le lt labels) old made fine

/-- What was made before is made no more. -/
theorem Remakes.once {make : Copying Datum} (t : Tracks f h table kind m g)
    (known : ∀ w, m.collections.lookup label = some w → Rebuilt f g v w ∧ ¬Refused f h kind v)
    (made : Remakes f h table kind make m g (fun g w => Rebuilt f g v w) (Refused f h kind v)) :
    Remakes f h table kind (Copying.once label make) m g (fun g w => Rebuilt f g v w)
      (Refused f h kind v) := by
  have got : (get : Copying Made) m g = (.ok (m, m), g) := rfl
  cases found : m.collections.lookup label with
  | none =>
    have step : Copying.once label make m g = make m g := by
      rw [Copying.once, Copying.bind_ok got, found]
    cases made with
    | made ran tracks within labels is fine =>
      exact .made (step.trans ran) tracks within labels is fine
    | refused ran why => exact .refused (step.trans ran) why
  | some w =>
    have step : Copying.once label make m g = (.ok (w, m), g) := by
      rw [Copying.once, Copying.bind_ok got, found]
      rfl
    obtain ⟨is, fine⟩ := known w found
    exact .made step t (.refl g) (Nat.le_refl _) is fine

/-- Nothing is noted for constants. -/
theorem Tracks.lookup_zero (t : Tracks f h table kind m g) : m.collections.lookup 0 = none := by
  rw [List.lookup_eq_none_iff]
  intro e mem
  simpa using (t.collections e mem).1.symm

end Labels

/-! ## Collections -/

/-- A value that is made again by means of a way to make instances again. -/
def Remade (f : Family) (h : Heap) (table : Nat → Datum) (kind : CopyKind)
    (again : Nat → Copying Datum) (v : Datum) : Prop :=
  ∀ m g, Tracks f h table kind m g → Remakes f h table kind (Context.remakeValue kind again v) m g
    (fun g w => Rebuilt f g v w) (Refused f h kind v)

section Collections

variable {again : Nat → Copying Datum} {ys : List Datum}

theorem remade_whole (single : v.hasParts = false) : Remade f h table kind again v := by
  intro m g t
  have fine : ¬Refused f h kind v := not_refused_whole single
  have same : Rebuilt f g v v := .whole single
  cases v
  case float x label =>
    cases kind with
    | deep =>
      rw [Context.remakeValue]
      exact .pure t same fine
    | pickled =>
      rw [Context.remakeValue]
      exact .labelled t (rfl : Exec.float x g = (.ok (.float x g.labels), g.labelled))
        (.float x label _) fine
  case list => cases single
  case tuple => cases single
  case dict => cases single
  case object => cases single
  all_goals
    rw [Context.remakeValue]
    · exact .pure t same fine
    all_goals
      intros
      contradiction

theorem remakes_values (each : ∀ x ∈ xs, Remade f h table kind again x)
    (t : Tracks f h table kind m g) :
    Remakes f h table kind (Context.remakeValues kind again xs) m g
      (fun g ys => List.Forall₂ (Rebuilt f g) xs ys) (∃ x ∈ xs, Refused f h kind x) := by
  induction xs generalizing m g with
  | nil =>
    rw [Context.remakeValues]
    exact .pure t .nil (by simp)
  | cons x xs ih =>
    rw [Context.remakeValues]
    refine Remakes.congr ?_ (List.exists_mem_cons_iff _ x xs).symm
    refine Remakes.bind (each x List.mem_cons_self m g t) fun v m₁ g₁ t₁ _ _ first => ?_
    refine Remakes.andThen (ih (fun y mem => each y (List.mem_cons_of_mem x mem)) t₁)
      fun vs m₂ g₂ t₂ within _ rest _ => ?_
    exact .pure t₂ (.cons (first.mono within) rest) id

theorem remakes_entries (keys : ∀ e ∈ es, Remade f h table kind again e.1)
    (values : ∀ e ∈ es, Remade f h table kind again e.2) (t : Tracks f h table kind m g) :
    Remakes f h table kind (Context.remakeEntries kind again es) m g
      (fun g es' => List.Forall₂ (fun e e' => Rebuilt f g e.1 e'.1 ∧ Rebuilt f g e.2 e'.2) es es')
      (∃ e ∈ es, Refused f h kind e.1 ∨ Refused f h kind e.2) := by
  induction es generalizing m g with
  | nil =>
    rw [Context.remakeEntries]
    exact .pure t .nil (by simp)
  | cons e es ih =>
    obtain ⟨key, value⟩ := e
    rw [Context.remakeEntries]
    refine Remakes.congr ?_ ((List.exists_mem_cons_iff _ _ es).trans or_assoc).symm
    refine Remakes.bind (keys _ List.mem_cons_self m g t) fun k m₁ g₁ t₁ _ _ first => ?_
    refine Remakes.bind (values _ List.mem_cons_self m₁ g₁ t₁)
      fun v m₂ g₂ t₂ within _ second => ?_
    have tail := ih (fun e mem => keys e (List.mem_cons_of_mem _ mem))
      (fun e mem => values e (List.mem_cons_of_mem _ mem)) t₂
    refine tail.andThen fun es' m₃ g₃ t₃ within' _ rest _ => ?_
    exact .pure t₃ (.cons ⟨(first.mono within).mono within', second.mono within'⟩ rest) id

theorem remade_list (nonzero : label ≠ 0) (denotes : Denotes h table label (.list xs label))
    (each : ∀ x ∈ xs, Remade f h table kind again x) :
    Remade f h table kind again (.list xs label) := by
  intro m g t
  obtain ⟨lt, is⟩ := denotes nonzero
  rw [Context.remakeValue]
  refine .once t (t.fits lt is).known ?_
  refine Remakes.congr ?_ (refused_list_iff label).symm
  refine Remakes.andThen (remakes_values each t) fun ys m₁ g₁ t₁ _ _ rebuilt fine => ?_
  have listed : Exec.list ys g₁ = (.ok (.list ys g₁.labels), g₁.labelled) := rfl
  exact .keep_new t₁ listed nonzero (Nat.lt_of_lt_of_le lt t₁.labels) (fun _ => is)
    (.of_forall₂_list rebuilt label _) (fine ∘ (refused_list_iff label).1)

theorem remade_dict (nonzero : label ≠ 0) (denotes : Denotes h table label (.dict es label))
    (keys : ∀ e ∈ es, Remade f h table kind again e.1)
    (values : ∀ e ∈ es, Remade f h table kind again e.2) :
    Remade f h table kind again (.dict es label) := by
  intro m g t
  obtain ⟨lt, is⟩ := denotes nonzero
  rw [Context.remakeValue]
  refine .once t (t.fits lt is).known ?_
  refine Remakes.congr ?_ (refused_dict_iff label).symm
  refine Remakes.andThen (remakes_entries keys values t) fun es' m₁ g₁ t₁ _ _ rebuilt fine => ?_
  have mapped : Exec.dict es' g₁ = (.ok (.dict es' g₁.labels), g₁.labelled) := rfl
  exact .keep_new t₁ mapped nonzero (Nat.lt_of_lt_of_le lt t₁.labels) (fun _ => is)
    (.of_forall₂_dict rebuilt label _) (fine ∘ (refused_dict_iff label).1)

/-- Items made again become a tuple made again: the old one if nothing has changed. -/
theorem remakes_tuple (t : Tracks f h table kind m g)
    (rebuilt : List.Forall₂ (Rebuilt f g) xs ys) (lt : label ≠ 0 → label < g.labels)
    (old : label ≠ 0 → label < h.labels → table label = .tuple xs label)
    (fine : ¬Refused f h kind (.tuple xs label)) :
    Remakes f h table kind (Copying.tuple kind xs ys label) m g
      (fun g w => Rebuilt f g (.tuple xs label) w) False := by
  rw [Copying.tuple]
  split
  · case isTrue unchanged =>
    refine .pure t (Rebuilt.of_forall₂_tuple ?_ label label) id
    rcases Bool.or_eq_true _ _ ▸ unchanged with empty | same
    · rw [List.isEmpty_iff.1 empty]
      exact .nil
    · rw [Bool.and_eq_true, Datum.identicalAll_iff] at same
      exact same.2 ▸ rebuilt
  · case isFalse changed =>
    have ne : ys ≠ [] := by
      rintro rfl
      rw [List.forall₂_nil_right_iff.1 rebuilt] at changed
      exact changed rfl
    have made := Rebuilt.of_forall₂_tuple rebuilt label g.labels
    by_cases zero : label = 0
    · subst zero
      exact (Remakes.labelled t (Exec.tuple_ok ne g) made id).andThen
        fun _ _ _ t' _ _ is _ => .pure t' is id
    · rw [beq_eq_false_iff_ne.2 zero]
      exact .keep_new t (Exec.tuple_ok ne g) zero (lt zero) (old zero) made fine

/-- A tuple that has the label of a tuple of the heap, or a label that was not noted yet. -/
theorem remakes_tupleValue (each : ∀ x ∈ xs, Remade f h table kind again x)
    (t : Tracks f h table kind m g)
    (fits : label ≠ 0 → Fits f h table kind m g label (.tuple xs label)) :
    Remakes f h table kind (Context.remakeValue kind again (.tuple xs label)) m g
      (fun g w => Rebuilt f g (.tuple xs label) w) (Refused f h kind (.tuple xs label)) := by
  rw [Context.remakeValue]
  refine .once t (fun w found => ?_) ?_
  · by_cases zero : label = 0
    · subst zero
      rw [t.lookup_zero] at found
      cases found
    · exact (fits zero).known w found
  · refine Remakes.congr ?_ (refused_tuple_iff label).symm
    refine Remakes.andThen (remakes_values each t) fun ys m₁ g₁ t₁ _ labels rebuilt fine => ?_
    exact remakes_tuple t₁ rebuilt (fun zero => Nat.lt_of_lt_of_le (fits zero).lt labels)
      (fun zero => (fits zero).old) (fine ∘ (refused_tuple_iff label).1)

theorem remakes_arguments (each : ∀ x ∈ xs, Remade f h table kind again x)
    (t : Tracks f h table kind m g)
    (fits : label ≠ 0 → Fits f h table kind m g label (.tuple xs label)) :
    Remakes f h table kind (Context.remakeArguments kind again xs label) m g
      (fun g ys => List.Forall₂ (Rebuilt f g) xs ys) (∃ x ∈ xs, Refused f h kind x) := by
  cases kind with
  | deep => exact remakes_values each t
  | pickled =>
    rw [Context.remakeArguments]
    refine Remakes.congr ?_ (refused_tuple_iff label)
    refine Remakes.andThen (remakes_tupleValue each t fits) fun w m₁ g₁ t₁ _ _ rebuilt _ => ?_
    obtain ⟨ys, j, rfl, items⟩ := rebuilt.tuple_cases
    exact .pure t₁ items id

end Collections

end Polyad.Machine
