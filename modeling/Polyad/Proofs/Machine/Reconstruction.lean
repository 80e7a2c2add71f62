import Polyad.Machine.Copy
import Polyad.Proofs.Machine.Comparing

/-!
# Reconstruction

What tuples say about how they can be made again: a tuple of a member its class and its values, an
open-ended one the same, and a null tuple the name of the one null tuple that a file has. So a plain
copy is a tuple of the same class that holds the same values, and is equal to the old one.
-/

namespace Polyad.Machine

open Code Generated

variable {p : Program} {f : Family} {m : Member} {h g : Heap} {id : Nat} {c : String}
variable {vs ws : List Datum} {x y : Datum}

/-! ## Recipes -/

namespace Context

variable {cx : Context} {i : Instance} {r : Routine} {name : String} {args : List Datum}

theorem recipe_named (found : h.get? id = some i)
    (answer : cx.program.find? i.className "__reduce__" = some (.method r)) (own : IsOwn r)
    (ran : cx.run r [.object id] h = (.ok (.text name), g)) :
    cx.recipe id h = (.ok (.named name), g) := by
  rw [recipe, Exec.bind_ok (special?_ok found answer own)]
  dsimp only
  rw [Exec.bind_ok ran]
  rfl

theorem recipe_made {label l : Nat} (found : h.get? id = some i)
    (answer : cx.program.find? i.className "__reduce__" = some (.method r)) (own : IsOwn r)
    (ran : cx.run r [.object id] h = (.ok (.tuple [.type name, .tuple args label] l), g)) :
    cx.recipe id h = (.ok (.made name args label), g) := by
  rw [recipe, Exec.bind_ok (special?_ok found answer own)]
  dsimp only
  rw [Exec.bind_ok ran]
  rfl

theorem copy_object (cx : Context) (id : Nat) :
    cx.copy (.object id) = (do
      match ← cx.recipe id with
      | .named _ => return .object id
      | .made name args _ => cx.construct name args) := rfl

end Context

/-- An open-ended tuple on the heap, with the values it holds and the label of their tuple. -/
structure OpenAt (h : Heap) (id : Nat) (vs : List Datum) (label : Nat) : Prop where
  holds : ∃ i, h.get? id = some i ∧ i.className = Support.openClass ∧
    i.slot? Support.valuesSlot = some (.tuple vs label)

theorem HoldsOpen.exists_openAt (held : HoldsOpen h id vs) : ∃ label, OpenAt h id vs label := by
  obtain ⟨i, label, rest⟩ := held
  exact ⟨label, ⟨i, rest⟩⟩

theorem Stores.mono (s : Stores f h id c vs) (w : h.Within g) : Stores f g id c vs := by
  cases s with
  | null mem arity held => exact .null mem arity (w.holds held)
  | proper mem held => exact .proper mem (w.holds held)
  | openEnded held => exact .openEnded (w.holdsOpen held)

namespace Program.Hosts

variable (o : p.Hosts f)

include o

/-- A class names itself where it is reconstructed. -/
theorem means_self (mem : m ∈ f.members) (x : Datum) :
    p.Means [("self", x)] m.className (.type m.className) := by
  have means := o.means m mem .null .null
  have free : m.className ∉ ["self", "other"] := by
    intro parameter
    rw [Means] at means
    rcases List.mem_cons.1 parameter with eq | parameter
    · rw [eq] at means
      cases means
    · rw [List.mem_singleton.1 parameter] at means
      cases means
  rw [Means, lookup_eq_none_of_not_mem free] at means
  refine .global (lookup_eq_none_of_not_mem fun parameter => free ?_) means
  exact List.mem_singleton.1 parameter ▸ List.mem_cons_self

/-- A tuple of a member says its class and its values, in a tuple of their own. -/
theorem recipe_proper (mem : m ∈ f.proper) (held : Holds h id m vs) (n : Nat) :
    (Context.withDepth p (n + 1)).recipe id h =
      (.ok (.made m.className vs h.labels), h.labelled.labelled) := by
  obtain ⟨contract, concrete, e⟩ := o.proper m mem
  have found := e.find?_concrete (reduceMethod m) (by simp [valueIdentity])
  have called := e.callMethod_reduce held (o.means_self (Family.mem_proper_iff.1 mem).1 _) n
  obtain ⟨i, there, class_eq, -⟩ := held
  have answer : (Context.withDepth p (n + 1)).program.find? i.className "__reduce__" =
      some (.method (.written (reduceMethod m))) := by
    rw [Context.program_withDepth, class_eq]
    exact found
  rw [Context.callMethod_object there answer] at called
  exact Context.recipe_made there answer trivial called

theorem recipe_open {label : Nat} (held : OpenAt h id vs label) (n : Nat) :
    (Context.withDepth p (n + 1)).recipe id h =
      (.ok (.made Support.openClass vs label), h.labelled) := by
  obtain ⟨i, there, class_eq, value⟩ := held
  have method : p.find? Support.openClass "__reduce__" =
      some (.method (.support Support.openClass "__reduce__")) :=
    o.undisturbed.find?_open (by decide) rfl
  have slot : p.find? Support.openClass Support.valuesSlot = some (.slot Support.valuesSlot) :=
    o.undisturbed.find?_open (by decide) rfl
  have read : Support.valueTuple (Context.withDepth p n) (.object id) h =
      (.ok (.tuple vs label), h) := by
    refine Context.getAttribute_slot there ?_ value
    rw [Context.program_withDepth, class_eq, slot]
  have answer : (Context.withDepth p (n + 1)).program.find? i.className "__reduce__" =
      some (.method (.support Support.openClass "__reduce__")) := by
    rw [Context.program_withDepth, class_eq, method]
  have ran : (Context.withDepth p (n + 1)).run (.support Support.openClass "__reduce__")
      [.object id] h =
        (.ok (.tuple [.type Support.openClass, .tuple vs label] h.labels), h.labelled) := by
    show (Support.valueTuple (Context.withDepth p n) (.object id) >>= fun t =>
      Exec.tuple [.type Support.openClass, t]) h = _
    rw [Exec.bind_ok read, Exec.tuple_ok (by simp)]
  exact Context.recipe_made there answer (isOwn_open _) ran

/-- A null tuple says a name only. -/
theorem recipe_null (mem : m ∈ f.members) (arity : m.arity = 0) (held : Holds h id m [])
    (n : Nat) : (Context.withDepth p (n + 1)).recipe id h = (.ok (.named nullInstance), h) := by
  obtain ⟨next, contract, concrete, e⟩ := o.null m mem arity
  let reduce := getter "__reduce__" (.name "str") [.ret (.literal nullInstance)]
  have own : reduce ∈ nullMethods m next := by simp [reduce, nullMethods]
  have found := e.find?_of_mem_concrete own
  obtain ⟨i, there, class_eq, -⟩ := held
  have answer : (Context.withDepth p (n + 1)).program.find? i.className "__reduce__" =
      some (.method (.written reduce)) := by
    rw [Context.program_withDepth, class_eq]
    exact found
  refine Context.recipe_named there answer trivial ?_
  show (Context.withDepth p n).runFunction reduce [.object id] h = _
  rw [Context.runFunction_ret rfl rfl rfl, Context.eval]
  rfl

/-- A tuple that is no null tuple says its class and its values. The tuple of the values is new, or
the one that an open-ended tuple holds. -/
theorem recipe_kin (s : Stores f h id c vs) (nonnull : ¬IsNullClass f c) (n : Nat) :
    ∃ label g, (Context.withDepth p (n + 1)).recipe id h = (.ok (.made c vs label), g) ∧
      (label = h.labels ∧ g = h.labelled.labelled ∨ OpenAt h id vs label ∧ g = h.labelled) := by
  cases s with
  | null mem arity _ => exact absurd ((o.isNullClass_iff mem).2 arity) nonnull
  | proper mem held => exact ⟨_, _, o.recipe_proper mem held n, .inl ⟨rfl, rfl⟩⟩
  | openEnded held =>
    obtain ⟨label, openAt⟩ := held.exists_openAt
    exact ⟨_, _, o.recipe_open openAt n, .inr ⟨openAt, rfl⟩⟩

/-- A null tuple says the name of the one of the file. -/
theorem recipe_nullClass (s : Stores f h id c vs) (null : IsNullClass f c) (n : Nat) :
    (Context.withDepth p (n + 1)).recipe id h = (.ok (.named nullInstance), h) := by
  cases s with
  | null mem arity held => exact o.recipe_null mem arity held n
  | proper mem _ =>
    obtain ⟨own, nonzero⟩ := Family.mem_proper_iff.1 mem
    exact absurd ((o.isNullClass_iff own).1 null) nonzero
  | openEnded _ => exact absurd null o.not_isNullClass_open

end Program.Hosts

/-! ## New instances -/

/-- How many values a class of tuples takes. -/
inductive Takes (f : Family) : String → Nat → Prop
  | null {m : Member} : m ∈ f.members → m.arity = 0 → Takes f m.className 0
  | proper {m : Member} : m ∈ f.proper → Takes f m.className m.labels.length
  | openEnded (count : Nat) : Takes f Support.openClass count

theorem Stores.takes (s : Stores f h id c vs) : Takes f c vs.length := by
  cases s with
  | null mem arity _ => exact .null mem arity
  | proper mem held => exact held.length ▸ .proper mem
  | openEnded _ => exact .openEnded _

/-- Making a tuple of a class of some values. If it is an open-ended one, the tuple of its values is
new, unless it is empty. -/
structure Constructs (f : Family) (run : Exec Datum) (c : String) (ws : List Datum) (g g' : Heap) :
    Prop where
  ran : run g = (.ok (.object g.instances.length), g')
  stores : Stores f g' g.instances.length c ws
  kept : g.Within g'
  labels : g.labels ≤ g'.labels
  fresh : ∀ label, OpenAt g' g.instances.length ws label → label ≠ 0 →
    g.labels ≤ label ∧ label < g'.labels

theorem Stores.not_openAt {label : Nat} (s : Stores f h id c vs) (ne : c ≠ Support.openClass) :
    ¬OpenAt h id ws label := by
  rintro ⟨i, found, class_eq, -⟩
  obtain ⟨j, there, name⟩ := s.exists_instance
  cases Option.some.inj (found.symm.trans there)
  exact ne (name.symm.trans class_eq)

theorem openAt_push {l label : Nat}
    (held : OpenAt (g.push ⟨Support.openClass, [(Support.valuesSlot, .tuple vs l)]⟩)
      g.instances.length vs label) : label = l := by
  obtain ⟨i, found, -, value⟩ := held
  cases (Heap.get?_push_self g _).symm.trans found
  cases value
  rfl

namespace Program.Hosts

variable (o : p.Hosts f)

include o

/-- A class makes a tuple of as many values as it takes. -/
theorem exists_constructs (takes : Takes f c ws.length) (g : Heap) :
    ∃ g', ∀ n, Constructs f ((Context.withDepth p (n + 2)).construct c ws) c ws g g' := by
  generalize count : ws.length = size at takes
  cases takes with
  | @null m mem arity =>
    obtain ⟨next, contract, concrete, e⟩ := o.null m mem arity
    obtain rfl := List.eq_nil_of_length_eq_zero count
    refine ⟨g.push ⟨m.className, []⟩, fun n => ?_⟩
    have stores := Stores.null mem arity (e.holds (Heap.get?_push_self g _))
    have initialiser : (Context.withDepth p (n + 2)).program.find? m.className "__init__" =
        some (.method (.support "object" "__init__")) := by
      rw [Context.program_withDepth, e.find?_initialiser]
    refine ⟨Context.construct_bare ?_ initialiser, stores, .push g _, Nat.le_refl _,
      fun _ held => absurd held (stores.not_openAt (o.className_ne_open mem))⟩
    rw [Context.program_withDepth, e.isConcrete]
  | proper mem =>
    obtain ⟨contract, concrete, e⟩ := o.proper _ mem
    have stores := Stores.proper mem (e.holds_new count g)
    have ne := o.className_ne_open (Family.mem_proper_iff.1 mem).1
    exact ⟨_, fun n => ⟨e.construct_eq count g n, stores, .push g _, Nat.le_refl _,
      fun _ held => absurd held (stores.not_openAt ne)⟩⟩
  | openEnded =>
    cases ws with
    | nil =>
      have tupled : Exec.tuple [] (g.push ⟨Support.openClass, []⟩) =
          (.ok (.tuple [] 0), g.push ⟨Support.openClass, []⟩) := rfl
      exact ⟨_, fun n => ⟨o.undisturbed.construct_open_of tupled rfl (n + 1),
        .openEnded ⟨_, 0, Heap.get?_push_self .., rfl, rfl⟩, .push g _, Nat.le_refl _,
        fun _ held nonzero => absurd (openAt_push held) nonzero⟩⟩
    | cons w ws =>
      refine ⟨_, fun n => ⟨o.undisturbed.construct_open (by simp) (n + 1),
        .openEnded (holdsOpen_new g _), .withOpen g _, Nat.le_succ _, fun label held _ => ?_⟩⟩
      obtain rfl : label = g.labels := openAt_push held
      exact ⟨Nat.le_refl _, Nat.lt_succ_self _⟩

end Program.Hosts

/-! ## Copies -/

/-- A tuple made again: of the class of the old one, and equal to it whichever side is asked. -/
structure IsCopy (p : Program) (f : Family) (h : Heap) (c : String) (x y : Datum) : Prop where
  kind : ∃ id ws, y = .object id ∧ Stores f h id c ws
  equal : EqualTo p h x y
  equalBack : EqualTo p h y x

/-- A way to make a tuple again succeeds at every sufficient depth of calls, with a tuple of the
same class that is equal to it. What was there stays there. -/
def ComesBack (p : Program) (f : Family) (h : Heap) (c : String) (x : Datum)
    (run : Context → Exec Datum) : Prop :=
  ∃ k, ∀ n ≥ k, ∃ y h', run (Context.withDepth p n) h = (.ok y, h') ∧ h.Within h' ∧
    IsCopy p f h' c x y

/-- Every tuple can be copied: a null tuple is its own copy, and any other one is made again from
the same values. -/
theorem Program.Hosts.comesBack_copy (o : p.Hosts f) (s : Stores f h id c vs) :
    ComesBack p f h c (.object id) fun cx => cx.copy (.object id) := by
  refine ⟨2, fun n le => ?_⟩
  obtain ⟨n, rfl⟩ : ∃ j, n = j + 2 := ⟨n - 2, by omega⟩
  by_cases null : IsNullClass f c
  · refine ⟨_, h, ?_, .refl h, ⟨id, vs, rfl, s⟩, o.equalTo_self s, o.equalTo_self s⟩
    show (Context.withDepth p (n + 2)).copy (.object id) h = _
    rw [Context.copy_object, Exec.bind_ok (o.recipe_nullClass s null (n + 1))]
    rfl
  · obtain ⟨label, g, recipe, after⟩ := o.recipe_kin s null (n + 1)
    have same : g.instances = h.instances := by
      rcases after with ⟨-, rfl⟩ | ⟨-, rfl⟩
      · rfl
      · rfl
    obtain ⟨h', makes⟩ := o.exists_constructs s.takes g
    have made := makes n
    have kept : h.Within h' := (Heap.Within.of_eq same).trans made.kept
    have values : List.Forall₂ (Same p h') vs vs := List.forall₂_same.2 fun v _ => .refl v
    refine ⟨_, h', ?_, kept, ⟨_, vs, rfl, made.stores⟩,
      o.equalTo_of_values (s.mono kept) made.stores values,
      o.equalTo_of_values made.stores (s.mono kept) values⟩
    show (Context.withDepth p (n + 2)).copy (.object id) h = _
    rw [Context.copy_object, Exec.bind_ok recipe]
    exact made.ran

end Polyad.Machine
