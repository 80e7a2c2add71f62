import Polyad.Proofs.Machine.Hosting
import Polyad.Proofs.Machine.Remaking

/-!
# Round trips

Tuples of any classes, nested to any depth, come back as equal tuples of the same class when they
are copied, copied deeply, or pickled and read again. A null tuple says that it is the one of the
file, which pickling checks and finds wrong of any other: then the whole value is refused.
-/

namespace Polyad.Machine

open Code Generated

variable {p : Program} {f : Family} {h g : Heap} {table : Nat → Datum} {kind : CopyKind}
variable {m : Made} {v x : Datum} {label : Nat}

/-! ## Instances -/

/-- Pickling insists that the named value is the very instance. -/
theorem Context.namedInstance_pickled {cx : Context} {name : String}
    (bound : cx.program.lookup name = some v) (id : Nat) :
    cx.namedInstance .pickled id name =
      if v = .object id then pure v else throw .notReconstructible := by
  simp only [namedInstance, bound, Datum.identical_iff]

/-- The tuple of values that a tuple says has a label that fits. -/
theorem Tracks.fits_arguments {id : Nat} {c : String} {vs : List Datum} {g' : Heap}
    (t : Tracks f h table kind m g) (s : Stores f h id c vs)
    (denotes : ∀ label, OpenAt h id vs label → Denotes h table label (.tuple vs label))
    (written : label = g.labels ∧ g' = g.labelled.labelled ∨
      OpenAt g id vs label ∧ g' = g.labelled) :
    g.Within g' ∧ g.labels ≤ g'.labels ∧
      (label ≠ 0 → Fits f h table kind m g' label (.tuple vs label)) := by
  rcases written with ⟨rfl, rfl⟩ | ⟨held, rfl⟩
  · have lt : g.labels < g.labelled.labelled.labels := Nat.lt_add_of_pos_right Nat.two_pos
    exact ⟨.of_eq rfl, Nat.le_of_lt lt, fun _ => t.fits_new lt _⟩
  · have within : g.Within g.labelled := .of_eq rfl
    refine ⟨within, Nat.le_succ _, fun nonzero => ?_⟩
    obtain ⟨lt, is⟩ := denotes label (held.of_within s t.within) nonzero
    exact (t.mono within (Nat.le_succ _)).fits lt is

/-- A depth that suffices for each value of a list suffices for all of them. -/
theorem exists_depth {α : Type} {xs : List α} {Suits : Nat → α → Prop}
    (each : ∀ x ∈ xs, ∃ k, ∀ depth ≥ k, Suits depth x) :
    ∃ k, ∀ depth ≥ k, ∀ x ∈ xs, Suits depth x := by
  induction xs with
  | nil => exact ⟨0, by simp⟩
  | cons x xs ih =>
    obtain ⟨k, first⟩ := each x List.mem_cons_self
    obtain ⟨l, rest⟩ := ih fun y mem => each y (List.mem_cons_of_mem x mem)
    refine ⟨max k l, fun depth le y mem => ?_⟩
    rcases List.mem_cons.1 mem with rfl | mem
    · exact first depth (Nat.le_trans (Nat.le_max_left k l) le)
    · exact rest depth (Nat.le_trans (Nat.le_max_right k l) le) y mem

/-- A new instance is noted. -/
theorem Remakes.note {id : Nat} (t : Tracks f h table kind m g) (is : Rebuilt f g (.object id) v)
    (fine : ¬Refused f h kind (.object id)) :
    Remakes f h table kind
      (do modify fun m => { m with instances := (id, v) :: m.instances }; return v) m g
      (fun g w => Rebuilt f g (.object id) w) False := by
  have noted : Tracks f h table kind { m with instances := (id, v) :: m.instances } g :=
    ⟨t.within, t.labels, List.forall_mem_cons.2 ⟨⟨is, fine⟩, t.instances⟩, t.collections⟩
  exact .made rfl noted (.refl g) (Nat.le_refl _) is not_false

namespace Program.Hosts

variable (o : p.Hosts f) {id : Nat} {c : String} {vs : List Datum}

include o

/-- A null tuple is refused if it is to be pickled and is not the one of the file. -/
theorem refused_null_iff (s : Stores f h id c vs) (null : IsNullClass f c) :
    Refused f h kind (.object id) ↔ kind = .pickled ∧ id ≠ 0 := by
  obtain rfl := o.values_of_isNullClass s null
  constructor
  · rintro ⟨pickled, stray⟩
    refine ⟨pickled, ?_⟩
    cases stray with
    | null _ _ stray => exact stray
    | object s' mem _ =>
      obtain ⟨-, rfl⟩ := o.stores_unique s s'
      cases mem
  · rintro ⟨pickled, stray⟩
    exact ⟨pickled, .null s null stray⟩

/-- Any other tuple is refused if one of its values is. -/
theorem refused_kin_iff (s : Stores f h id c vs) (nonnull : ¬IsNullClass f c) :
    Refused f h kind (.object id) ↔ ∃ v ∈ vs, Refused f h kind v := by
  constructor
  · rintro ⟨pickled, stray⟩
    cases stray with
    | null s' null _ =>
      obtain ⟨rfl, -⟩ := o.stores_unique s s'
      exact absurd null nonnull
    | object s' mem stray =>
      obtain ⟨-, rfl⟩ := o.stores_unique s s'
      exact ⟨_, mem, pickled, stray⟩
  · rintro ⟨v, mem, pickled, stray⟩
    exact ⟨pickled, .object s mem stray⟩

/-- The name that a null tuple says is that of the null tuple of the file, which has number 0. -/
theorem remakes_named (bound : p.lookup nullInstance = some (.object 0)) (n : Nat)
    (s : Stores f h id c vs) (null : IsNullClass f c) (t : Tracks f h table kind m g) :
    Remakes f h table kind (liftM ((Context.withDepth p n).namedInstance kind id nullInstance))
      m g (fun g w => Rebuilt f g (.object id) w) (Refused f h kind (.object id)) := by
  refine Remakes.congr ?_ (o.refused_null_iff s null).symm
  obtain rfl := o.values_of_isNullClass s null
  have same : Rebuilt f g (.object id) (.object id) :=
    .of_forall₂_object (s.mono t.within) (s.mono t.within) .nil
  cases kind with
  | deep =>
    exact .lift t (rfl : (Pure.pure (.object id) : Exec Datum) g = _) (.refl g) (Nat.le_refl _) same
      (by simp)
  | pickled =>
    have named : (Context.withDepth p n).program.lookup nullInstance = some (.object 0) := by
      rw [Context.program_withDepth]
      exact bound
    rw [Context.namedInstance_pickled named]
    by_cases own : id = 0
    · subst own
      exact .lift t (by rw [if_pos rfl]; rfl) (.refl g) (Nat.le_refl _) same (by simp)
    · rw [if_neg fun eq => own (Datum.object.inj eq).symm]
      exact .refused rfl ⟨rfl, own⟩

/-- An instance is made again if its values are. -/
theorem remakes_instance (bound : p.lookup nullInstance = some (.object 0)) {depth n : Nat}
    (s : Stores f h id c vs)
    (denotes : ∀ label, OpenAt h id vs label → Denotes h table label (.tuple vs label))
    (each : ∀ v ∈ vs,
      Remade f h table kind ((Context.withDepth p (n + 2)).remakeInstance kind depth) v)
    (t : Tracks f h table kind m g) :
    Remakes f h table kind ((Context.withDepth p (n + 2)).remakeInstance kind (depth + 1) id) m g
      (fun g w => Rebuilt f g (.object id) w) (Refused f h kind (.object id)) := by
  rw [Context.remakeInstance]
  refine .after (rfl : (get : Copying Made) m g = (.ok (m, m), g)) (.refl g) (Nat.le_refl _) ?_
  cases found : m.instances.lookup id with
  | some w =>
    obtain ⟨is, fine⟩ := t.instances (id, w) (mem_of_lookup found)
    exact .pure t is fine
  | none =>
    by_cases null : IsNullClass f c
    · have recipe := o.recipe_nullClass (s.mono t.within) null (n + 1)
      refine .after (Copying.lift_ok recipe) (.refl g) (Nat.le_refl _) ?_
      exact o.remakes_named bound _ s null t
    · obtain ⟨label, g₁, recipe, written⟩ := o.recipe_kin (s.mono t.within) null (n + 1)
      obtain ⟨within, le, fits⟩ := t.fits_arguments s denotes written
      refine .after (Copying.lift_ok recipe) within le ?_
      refine Remakes.congr ?_ (o.refused_kin_iff s null).symm
      refine Remakes.andThen (remakes_arguments each (t.mono within le) fits)
        fun ws m₂ g₂ t₂ _ _ rebuilt fine => ?_
      obtain ⟨g₃, makes⟩ := o.exists_constructs (rebuilt.length_eq ▸ s.takes) g₂
      have made := makes n
      have t₃ := t₂.mono made.kept made.labels
      have is : Rebuilt f g₃ (.object id) (.object g₂.instances.length) :=
        .of_forall₂_object (s.mono t₃.within) made.stores
          (forall₂_imp rebuilt fun _ _ _ _ r => r.mono made.kept)
      refine .after (Copying.lift_ok made.ran) made.kept made.labels ?_
      exact .note t₃ is (fine ∘ (o.refused_kin_iff s null).1)

/-! ## Nested values -/

/-- Values are made again once instances may hold each other to a sufficient depth. -/
theorem remade_of_sound (bound : p.lookup nullInstance = some (.object 0))
    (sound : Sound f h table x) : ∃ k, ∀ depth ≥ k, ∀ n,
      Remade f h table kind ((Context.withDepth p (n + 2)).remakeInstance kind depth) x := by
  induction sound with
  | whole single => exact ⟨0, fun _ _ _ => remade_whole single⟩
  | list nonzero denotes _ ih =>
    obtain ⟨k, each⟩ := exists_depth ih
    exact ⟨k, fun depth le n => remade_list nonzero denotes fun x mem => each depth le x mem n⟩
  | tuple denotes _ ih =>
    obtain ⟨k, each⟩ := exists_depth ih
    refine ⟨k, fun depth le n m g t => ?_⟩
    exact remakes_tupleValue (fun x mem => each depth le x mem n) t
      fun nonzero => t.fits (denotes nonzero).1 (denotes nonzero).2
  | dict nonzero denotes _ _ ihk ihv =>
    obtain ⟨k, keys⟩ := exists_depth ihk
    obtain ⟨l, values⟩ := exists_depth ihv
    refine ⟨max k l, fun depth le n => remade_dict nonzero denotes ?_ ?_⟩
    · exact fun e mem => keys depth (Nat.le_trans (Nat.le_max_left k l) le) e mem n
    · exact fun e mem => values depth (Nat.le_trans (Nat.le_max_right k l) le) e mem n
  | object s denotes _ ih =>
    obtain ⟨k, each⟩ := exists_depth ih
    refine ⟨k + 1, fun depth le n m g t => ?_⟩
    obtain ⟨depth, rfl⟩ : ∃ d, depth = d + 1 := ⟨depth - 1, by omega⟩
    rw [Context.remakeValue]
    exact o.remakes_instance bound s denotes
      (fun v mem => each depth (Nat.le_of_succ_le_succ le) v mem n) t

/-- Making a value again from nothing gives it rebuilt, unless it is refused. -/
theorem remake_cases (bound : p.lookup nullInstance = some (.object 0)) (kind : CopyKind)
    (sound : Sound f h table x) : ∃ k, ∀ depth ≥ k, ∀ n ≥ 2,
      (¬Refused f h kind x ∧ ∃ y g, (Context.withDepth p n).remake kind depth x h = (.ok y, g) ∧
        h.Within g ∧ Rebuilt f g x y) ∨
      (Refused f h kind x ∧ ∃ g,
        (Context.withDepth p n).remake kind depth x h = (.error .notReconstructible, g)) := by
  obtain ⟨k, remade⟩ : ∃ k, ∀ depth ≥ k, ∀ n, Remade f h table kind
      ((Context.withDepth p (n + 2)).remakeInstance kind depth) x := o.remade_of_sound bound sound
  refine ⟨k, fun depth le n two => ?_⟩
  obtain ⟨n, rfl⟩ : ∃ j, n = j + 2 := ⟨n - 2, by omega⟩
  have start : Tracks f h table kind {} h := ⟨.refl h, Nat.le_refl _, by simp, by simp⟩
  cases remade depth le n {} h start with
  | made ran _ within _ rebuilt fine =>
    exact .inl ⟨fine, _, _, Exec.bind_ok ran, within, rebuilt⟩
  | refused ran why => exact .inr ⟨why, _, Exec.bind_error ran⟩

end Program.Hosts

/-! ## Families -/

/-- What comes of making a tuple of some class again, in any of the three ways. The depth is that of
instances that hold each other. -/
structure RoundTrips (p : Program) (f : Family) (h : Heap) (c : String) (x : Datum) : Prop where
  copied : ComesBack p f h c x fun cx => cx.copy x
  deeply : ∃ k, ∀ depth ≥ k, ComesBack p f h c x fun cx => cx.remake .deep depth x
  pickled : ¬HoldsStray f h x →
    ∃ k, ∀ depth ≥ k, ComesBack p f h c x fun cx => cx.remake .pickled depth x
  refused : HoldsStray f h x → ∃ k, ∀ depth ≥ k, ∃ l, ∀ n ≥ l, ∃ g,
    (Context.withDepth p n).remake .pickled depth x h = (.error .notReconstructible, g)

namespace Program.Hosts

variable (o : p.Hosts f) {id : Nat} {c : String} {vs : List Datum}

include o

/-- A tuple that is not refused comes back. -/
theorem comesBack_remake (bound : p.lookup nullInstance = some (.object 0))
    (t : IsTuple f h (Steady p f h) id c vs) (sound : Sound f h table (.object id))
    (fine : ¬Refused f h kind (.object id)) : ∃ k, ∀ depth ≥ k,
      ComesBack p f h c (.object id) fun cx => cx.remake kind depth (.object id) := by
  obtain ⟨k, outcome⟩ := o.remake_cases bound kind sound
  refine ⟨k, fun depth le => ⟨2, fun n two => ?_⟩⟩
  rcases outcome depth le n two with ⟨-, y, g, ran, within, rebuilt⟩ | ⟨refused, -⟩
  · exact ⟨y, g, ran, within, o.isCopy_of_rebuilt t within rebuilt⟩
  · exact absurd refused fine

theorem roundTrips (bound : p.lookup nullInstance = some (.object 0))
    (t : IsTuple f h (Steady p f h) id c vs) (sound : Sound f h table (.object id)) :
    RoundTrips p f h c (.object id) where
  copied := o.comesBack_copy t.stores
  deeply := o.comesBack_remake bound t sound (by rintro ⟨⟨⟩, -⟩)
  pickled unspoilt := o.comesBack_remake bound t sound fun refused => unspoilt refused.2
  refused stray := by
    obtain ⟨k, outcome⟩ := o.remake_cases bound .pickled sound
    refine ⟨k, fun depth le => ⟨2, fun n two => ?_⟩⟩
    rcases outcome depth le n two with ⟨fine, -⟩ | ⟨-, fails⟩
    · exact absurd ⟨rfl, stray⟩ fine
    · exact fails

end Program.Hosts

/-- The null tuple of the file is sound, wherever it stands first. -/
theorem Program.Hosts.allSound_null (o : p.Hosts f) {null : Member} (mem : null ∈ f.members)
    (arity : null.arity = 0) (found : h.get? 0 = some ⟨null.className, []⟩)
    (labels : h.labels ≠ 0) : AllSound f h [.object 0] := by
  obtain ⟨_, _, _, e⟩ := o.null null mem arity
  have stores := Stores.null mem arity (e.holds found)
  have sound : Sound f h (fun _ => .null) (.object 0) :=
    stores.sound (o.className_ne_open mem) (by simp)
  exact ⟨labels, _, List.forall_mem_singleton.2 sound⟩

/-- In every family that can be loaded, and whose class names mean nothing else in a comparison,
copies and deep copies of all tuples are equal tuples of the same class, and so is what is read back
of a pickled one, if no null tuple in it is another than that of the file. Else it is not pickled
at all. Leaves are values that are equal to what they are rebuilt as. All tuples that can be
constructed are sound. The families that the builder makes are such, by `loadable_built` and
`className_not_mem_comparisonNames`. -/
theorem tuples_round_trip (l : Loadable f)
    (own : ∀ m ∈ f.members, m.className ∉ comparisonNames) (package : String) :
    ∃ p h₀, Program.ofFamily package f = .ok (.ok p, h₀) ∧
      (∀ h xs, Constructed p f h₀ h xs → ∃ table, ∀ x ∈ xs, Sound f h table x) ∧
      ∀ h table id c vs, IsTuple f h (Steady p f h) id c vs → Sound f h table (.object id) →
        RoundTrips p f h c (.object id) := by
  obtain ⟨null, next, members, zero, succ⟩ := l.exists_null
  have o := l.hosts members package zero succ own
  have start := o.allSound_null (h := (({} : Heap).push ⟨null.className, []⟩).labelled)
    (members ▸ List.mem_cons_self) zero rfl (Nat.succ_ne_zero _)
  exact ⟨_, _, l.ofFamily_eq members zero succ, fun h xs made => (made.allSound o start).2,
    fun h table id c vs t sound =>
      o.roundTrips (l.lookup_nullInstance members package next) t sound⟩

/-- A heap with the null tuple, another instance of its class, an open-ended tuple of the null tuple
and a list, and a tuple around the other instance. -/
def twoNullTuples : Heap where
  instances := [
    ⟨"NullTuple", []⟩,
    ⟨"NullTuple", []⟩,
    ⟨Support.openClass, [(Support.valuesSlot, .tuple [.object 0, .list [.int 1] 1] 2)]⟩,
    ⟨"Single", (slots (Family.builtMember 3 1)).zip [.object 1]⟩]
  labels := 3

/-- What the labels on the heap stand for. -/
def twoNullTuplesTable : Nat → Datum
  | 1 => .list [.int 1] 1
  | _ => .tuple [.object 0, .list [.int 1] 1] 2

/-- The open-ended tuple comes back from being pickled. The tuple around the other instance can be
copied deeply, but is refused when it is pickled. -/
theorem twoNullTuples_round_trip : ∃ p h₀,
    Program.ofFamily "shapes" (Family.built 3) = .ok (.ok p, h₀) ∧
      (∃ k, ∀ depth ≥ k, ComesBack p (.built 3) twoNullTuples Support.openClass (.object 2)
        fun cx => cx.remake .pickled depth (.object 2)) ∧
      (∃ k, ∀ depth ≥ k, ComesBack p (.built 3) twoNullTuples "Single" (.object 3)
        fun cx => cx.remake .deep depth (.object 3)) ∧
      ∃ k, ∀ depth ≥ k, ∃ l, ∀ n ≥ l, ∃ g, (Context.withDepth p n).remake .pickled depth
        (.object 3) twoNullTuples = (.error .notReconstructible, g) := by
  have l : Loadable (.built 3) := loadable_built (by decide) (by decide)
  have own := className_not_mem_comparisonNames (show 3 ≤ Naming.letterBudget by decide)
  have zero : (Family.builtMember 3 0).arity = 0 := rfl
  have succ : (Family.built 3).successor? (Family.builtMember 3 0) =
      some (Family.builtMember 3 1) := by decide +kernel
  obtain ⟨p, h₀, loaded, -, roundTrips⟩ := tuples_round_trip l own "shapes"
  have o : p.Hosts (.built 3) := by
    cases loaded.symm.trans (l.ofFamily_eq rfl zero succ)
    exact l.hosts rfl "shapes" zero succ own
  -- What is on the heap.
  have member (n : Nat) (le : n ≤ 3) : Family.builtMember 3 n ∈ (Family.built 3).members :=
    Family.mem_built_iff.2 ⟨n, le, rfl⟩
  have null (id : Nat) (found : twoNullTuples.get? id = some ⟨"NullTuple", []⟩) :
      Stores (.built 3) twoNullTuples id "NullTuple" [] :=
    .null (member 0 (by decide)) zero ⟨_, found, rfl, rfl⟩
  have single : Stores (.built 3) twoNullTuples 3 "Single" [.object 1] :=
    .proper (Family.mem_proper_iff.2 ⟨member 1 (by decide), by decide⟩) ⟨_, rfl, rfl, rfl⟩
  have openEnded : Stores (.built 3) twoNullTuples 2 Support.openClass
      [.object 0, .list [.int 1] 1] := .openEnded ⟨_, _, rfl, rfl, rfl⟩
  have isNull : IsNullClass (.built 3) "NullTuple" := by decide +kernel
  -- Its labels are sound.
  let IsSound := Sound (.built 3) twoNullTuples twoNullTuplesTable
  have soundNull (id : Nat) (found : twoNullTuples.get? id = some ⟨"NullTuple", []⟩) :
      IsSound (.object id) := (null id found).sound (by decide) (by simp)
  have soundList : IsSound (.list [.int 1] 1) :=
    .list (by decide) (fun _ => ⟨by decide, rfl⟩) (by simpa using .whole rfl)
  have soundSingle : IsSound (.object 3) :=
    single.sound (by decide) (by simpa using soundNull 1 rfl)
  have soundOpen : IsSound (.object 2) := by
    refine .object openEnded (fun label held _ => ?_) (by simpa using ⟨soundNull 0 rfl, soundList⟩)
    obtain ⟨i, found, -, value⟩ := held
    cases found
    cases value
    exact ⟨by decide, rfl⟩
  -- Its leaf is steady.
  let IsItem := IsValue (.built 3) twoNullTuples (Steady p (.built 3) twoNullTuples)
  have list : IsItem (.list [.int 1] 1) :=
    .leaf (steady_list (by simpa using steady_atom (.int 1) (by decide)) 1)
  have item (id : Nat) (found : twoNullTuples.get? id = some ⟨"NullTuple", []⟩) :
      IsItem (.object id) := .tuple (null id found) (by simp)
  have openTrips := roundTrips _ _ _ _ _
    ⟨openEnded, by simpa using ⟨item 0 rfl, list⟩⟩ soundOpen
  have singleTrips := roundTrips _ _ _ _ _ ⟨single, by simpa using item 1 rfl⟩ soundSingle
  have stray : HoldsStray (.built 3) twoNullTuples (.object 3) :=
    .object single List.mem_cons_self (.null (null 1 rfl) isNull (by decide))
  refine ⟨p, h₀, loaded, openTrips.pickled fun spoilt => ?_, singleTrips.deeply,
    singleTrips.refused stray⟩
  obtain ⟨v, mem, refused⟩ := (o.refused_kin_iff openEnded o.not_isNullClass_open).1 ⟨rfl, spoilt⟩
  rcases List.mem_cons.1 mem with rfl | mem
  · exact ((o.refused_null_iff (null 0 rfl) isNull).1 refused).2 rfl
  · obtain rfl : v = .list [.int 1] 1 := by simpa using mem
    obtain ⟨x, mem, refused⟩ := (refused_list_iff 1).1 refused
    obtain rfl : x = .int 1 := by simpa using mem
    exact not_refused_whole rfl refused

end Polyad.Machine
