import Polyad.Proofs.Machine.Reconstruction

/-!
# Soundness of labels

Labels stand for the identity of collections, which a copy goes by. Values are sound if a table says
which collection has a label. All values are that are made one after another in a program, from the
null tuple of the file on: what gets a label gets one that nothing has got yet.
-/

namespace Polyad.Machine

open Code Generated

/-- Values that are made again part by part. -/
def Datum.hasParts : Datum → Bool
  | .list .. | .tuple .. | .dict .. | .object _ => true
  | _ => false

/-- The collection with a label, unless it is that of constants. -/
def Denotes (h : Heap) (table : Nat → Datum) (label : Nat) (v : Datum) : Prop :=
  label ≠ 0 → label < h.labels ∧ table label = v

/-- Values whose collections are the ones that a table has under their labels. -/
inductive Sound (f : Family) (h : Heap) (table : Nat → Datum) : Datum → Prop
  | whole {v : Datum} : v.hasParts = false → Sound f h table v
  | list {xs : List Datum} {label : Nat} : label ≠ 0 → Denotes h table label (.list xs label) →
      (∀ x ∈ xs, Sound f h table x) → Sound f h table (.list xs label)
  | tuple {xs : List Datum} {label : Nat} : Denotes h table label (.tuple xs label) →
      (∀ x ∈ xs, Sound f h table x) → Sound f h table (.tuple xs label)
  | dict {es : List (Datum × Datum)} {label : Nat} : label ≠ 0 →
      Denotes h table label (.dict es label) → (∀ e ∈ es, Sound f h table e.1) →
      (∀ e ∈ es, Sound f h table e.2) → Sound f h table (.dict es label)
  | object {id : Nat} {c : String} {vs : List Datum} : Stores f h id c vs →
      (∀ label, OpenAt h id vs label → Denotes h table label (.tuple vs label)) →
      (∀ v ∈ vs, Sound f h table v) → Sound f h table (.object id)

variable {p : Program} {f : Family} {h h₀ g : Heap} {table : Nat → Datum} {v : Datum}
variable {id label : Nat} {c : String} {vs ws xs : List Datum}

/-- The tuple that an open-ended one holds was there from the start. -/
theorem OpenAt.of_within (held : OpenAt g id vs label) (s : Stores f h id c vs)
    (within : h.Within g) : OpenAt h id vs label := by
  obtain ⟨i, found, class_eq, value⟩ := held
  obtain ⟨j, there, -⟩ := s.exists_instance
  cases Option.some.inj (found.symm.trans (within.get?_eq_some there))
  exact ⟨i, there, class_eq, value⟩

/-- Only open-ended tuples hold a tuple that has a label. -/
theorem Stores.sound (s : Stores f h id c vs) (ne : c ≠ Support.openClass)
    (each : ∀ v ∈ vs, Sound f h table v) : Sound f h table (.object id) :=
  .object s (fun _ held => absurd held (s.not_openAt ne)) each

/-! ## Growing tables -/

/-- A table with what the next labels stand for. -/
def extend (h : Heap) (table new : Nat → Datum) (label : Nat) : Datum :=
  if label < h.labels then table label else new label

theorem Denotes.extend (d : Denotes h table label v) (labels : h.labels ≤ g.labels)
    (new : Nat → Datum) : Denotes g (extend h table new) label v := by
  intro nonzero
  obtain ⟨lt, is⟩ := d nonzero
  exact ⟨Nat.lt_of_lt_of_le lt labels, (if_pos lt).trans is⟩

/-- What was sound stays sound. -/
theorem Sound.extend (sound : Sound f h table v) (within : h.Within g)
    (labels : h.labels ≤ g.labels) (new : Nat → Datum) : Sound f g (extend h table new) v := by
  induction sound with
  | whole single => exact .whole single
  | list nonzero denotes _ ih => exact .list nonzero (denotes.extend labels new) ih
  | tuple denotes _ ih => exact .tuple (denotes.extend labels new) ih
  | dict nonzero denotes _ _ ihk ihv => exact .dict nonzero (denotes.extend labels new) ihk ihv
  | object s denotes _ ih =>
    exact .object (s.mono within)
      (fun label held => (denotes label (held.of_within s within)).extend labels new) ih

/-- A new tuple of sound values is sound, if new labels stand for the tuple of its values. -/
theorem Constructs.sound {run : Exec Datum} (made : Constructs f run c ws g h)
    (each : ∀ w ∈ ws, Sound f h table w)
    (new : ∀ label ≥ g.labels, table label = .tuple ws label) :
    Sound f h table (.object g.instances.length) := by
  refine .object made.stores (fun label held nonzero => ?_) each
  obtain ⟨old, lt⟩ := made.fresh label held nonzero
  exact ⟨lt, new label old⟩

/-! ## Values made one after another -/

/-- Values made one after another on a heap, the latest first: values without parts, collections of
earlier values, and tuples of all classes. -/
inductive Constructed (p : Program) (f : Family) (h₀ : Heap) : Heap → List Datum → Prop
  | start : Constructed p f h₀ h₀ [.object 0]
  | whole {h : Heap} {xs : List Datum} {v : Datum} : Constructed p f h₀ h xs →
      v.hasParts = false → Constructed p f h₀ h (v :: xs)
  | list {h g : Heap} {xs ys : List Datum} {v : Datum} : Constructed p f h₀ h xs → ys ⊆ xs →
      Exec.list ys h = (.ok v, g) → Constructed p f h₀ g (v :: xs)
  | tuple {h g : Heap} {xs ys : List Datum} {v : Datum} : Constructed p f h₀ h xs → ys ⊆ xs →
      Exec.tuple ys h = (.ok v, g) → Constructed p f h₀ g (v :: xs)
  | dict {h g : Heap} {xs : List Datum} {es : List (Datum × Datum)} {v : Datum} :
      Constructed p f h₀ h xs → (∀ e ∈ es, e.1 ∈ xs ∧ e.2 ∈ xs) →
      Exec.dict es h = (.ok v, g) → Constructed p f h₀ g (v :: xs)
  | object {h g : Heap} {xs ws : List Datum} {c : String} {n : Nat} {v : Datum} :
      Constructed p f h₀ h xs → ws ⊆ xs → Takes f c ws.length →
      (Context.withDepth p (n + 2)).construct c ws h = (.ok v, g) → Constructed p f h₀ g (v :: xs)

/-- Some table makes all values sound that were made so far. -/
def AllSound (f : Family) (h : Heap) (xs : List Datum) : Prop :=
  h.labels ≠ 0 ∧ ∃ table, ∀ x ∈ xs, Sound f h table x

/-- Making one more value leaves all values sound, if it is sound as soon as what it is made from
is and the new labels stand for something that can be chosen. -/
theorem AllSound.cons (all : AllSound f h xs) (within : h.Within g) (labels : h.labels ≤ g.labels)
    (new : Nat → Datum)
    (sound : ∀ table, (∀ x ∈ xs, Sound f g table x) →
      (∀ label ≥ h.labels, table label = new label) → Sound f g table v) :
    AllSound f g (v :: xs) := by
  obtain ⟨nonzero, table, each⟩ := all
  have kept := fun x mem => (each x mem).extend within labels new
  refine ⟨by omega, Machine.extend h table new, List.forall_mem_cons.2 ⟨?_, kept⟩⟩
  exact sound _ kept fun label old => if_neg (Nat.not_lt.2 old)

/-- What is made one after another is sound, if the null tuple at the start is. -/
theorem Constructed.allSound (o : p.Hosts f) (start : AllSound f h₀ [.object 0])
    (made : Constructed p f h₀ h xs) : AllSound f h xs := by
  induction made with
  | start => exact start
  | whole _ single ih =>
    exact ih.cons (.refl _) (Nat.le_refl _) (fun _ => .null) fun _ _ _ => .whole single
  | @list h g xs ys v _ earlier ran ih =>
    cases ran
    refine ih.cons (.of_eq rfl) (Nat.le_succ _) (.list ys) fun table each new => ?_
    exact .list ih.1 (fun _ => ⟨Nat.lt_succ_self _, new _ (Nat.le_refl _)⟩)
      fun y mem => each y (earlier mem)
  | @tuple h g xs ys v _ earlier ran ih =>
    by_cases empty : ys = []
    · subst empty
      cases ran
      refine ih.cons (.refl _) (Nat.le_refl _) (fun _ => .null) fun table each _ => ?_
      exact .tuple (fun nonzero => absurd rfl nonzero) fun y mem => each y (earlier mem)
    · cases (Exec.tuple_ok empty h).symm.trans ran
      refine ih.cons (.of_eq rfl) (Nat.le_succ _) (.tuple ys) fun table each new => ?_
      exact .tuple (fun _ => ⟨Nat.lt_succ_self _, new _ (Nat.le_refl _)⟩)
        fun y mem => each y (earlier mem)
  | @dict h g xs es v _ earlier ran ih =>
    cases ran
    refine ih.cons (.of_eq rfl) (Nat.le_succ _) (.dict es) fun table each new => ?_
    exact .dict ih.1 (fun _ => ⟨Nat.lt_succ_self _, new _ (Nat.le_refl _)⟩)
      (fun e mem => each _ (earlier e mem).1) fun e mem => each _ (earlier e mem).2
  | @object h g xs ws c n v _ earlier takes ran ih =>
    obtain ⟨g', makes⟩ := o.exists_constructs takes h
    cases (makes n).ran.symm.trans ran
    exact ih.cons (makes n).kept (makes n).labels (.tuple ws) fun table each new =>
      (makes n).sound (fun w mem => each w (earlier mem)) new

end Polyad.Machine
