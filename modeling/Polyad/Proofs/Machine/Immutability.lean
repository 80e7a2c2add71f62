import Polyad.Proofs.Machine.Initialising
import Polyad.Proofs.Machine.Reconstruction
import Polyad.Proofs.Machine.Unpacking

/-!
# Immutability

What operations on a tuple do to it: its attributes are set and deleted, and its methods are called,
whether they succeed or not. The marker refuses to set and to delete, and no other code writes the
slots of an instance that is there already, except for an initialiser that is called again. So the
values of a tuple are those with which its initialiser was last called.
-/

namespace Polyad.Machine

open Code Generated

/-! ## Operations -/

/-- What can be done to an object. -/
inductive Operation where
  | set (field : String) (v : Datum)
  | delete (field : String)
  | call (name : String) (args : List Datum)

/-- Whether an initialiser of a class of tuples takes a number of values. -/
def Accepts (f : Family) (c : String) (count : Nat) : Prop :=
  c = Support.openClass ∨ ∃ m ∈ f.members, m.className = c ∧ m.labels.length = count

instance (f : Family) (c : String) (count : Nat) : Decidable (Accepts f c count) :=
  inferInstanceAs (Decidable (_ ∨ _))

namespace Operation

/-- Carries out an operation on an instance. What a call gives is not kept. -/
def run (cx : Context) (id : Nat) : Operation → Exec Unit
  | set field v => cx.setAttribute (.object id) field v
  | delete field => cx.deleteAttribute (.object id) field
  | call name args => do
    let _ ← cx.callMethod (.object id) name args

/-- The values that an operation hands over. -/
def handed : Operation → List Datum
  | set _ v => [v]
  | delete _ => []
  | call _ args => args

/-- The values of a tuple of a class after an operation, from those before: an initialiser that
takes as many arguments puts them in place of the old ones. -/
def valuesAfter (f : Family) (c : String) (vs : List Datum) : Operation → List Datum
  | set .. => vs
  | delete _ => vs
  | call name args => if name = "__init__" ∧ Accepts f c args.length then args else vs

end Operation

/-- The heaps after each of some operations. A fault ends its operation, not the ones after it. -/
def heapsAfter (cx : Context) (id : Nat) : List Operation → Heap → List Heap
  | [], _ => []
  | op :: ops, h => (op.run cx id h).2 :: heapsAfter cx id ops (op.run cx id h).2

/-- The values of a tuple after each of some operations. -/
def valuesAfter (f : Family) (c : String) : List Operation → List Datum → List (List Datum)
  | [], _ => []
  | op :: ops, vs => op.valuesAfter f c vs :: valuesAfter f c ops (op.valuesAfter f c vs)

/-- As long as no initialiser is called the values stay. -/
theorem valuesAfter_of_no_init {f : Family} {c : String} {ops : List Operation} {vs ws : List Datum}
    (none : ∀ args, .call "__init__" args ∉ ops) (mem : ws ∈ valuesAfter f c ops vs) : ws = vs := by
  induction ops with
  | nil => cases mem
  | cons op ops ih =>
    have kept : op.valuesAfter f c vs = vs := by
      cases op with
      | call name args =>
        refine if_neg fun init => none args ?_
        rw [init.1]
        exact List.mem_cons_self
      | _ => rfl
    rw [valuesAfter, kept] at mem
    rcases List.mem_cons.1 mem with eq | mem
    · exact eq
    · exact ih (fun args held => none args (List.mem_cons_of_mem _ held)) mem

/-! ## Calling an initialiser again -/

theorem Instance.slot?_setSlot_of_ne {name other : String} (ne : other ≠ name) (i : Instance)
    (v : Datum) : (i.setSlot name v).slot? other = i.slot? other := by
  rw [slot?, setSlot, List.lookup_cons, beq_false_of_ne ne]
  show (i.slots.filter (·.1 != name)).lookup other = i.slots.lookup other
  induction i.slots with
  | nil => rfl
  | cons slot slots ih =>
    by_cases eq : slot.1 = name
    · rw [List.filter_cons_of_neg (by simp [eq]), ih, List.lookup_cons, eq, beq_false_of_ne ne]
    · rw [List.filter_cons_of_pos (by simp [eq]), List.lookup_cons, List.lookup_cons, ih]

variable {p : Program} {f : Family} {m : Member} {h : Heap} {id : Nat} {i : Instance}
variable {c : String} {vs ws args : List Datum}

namespace Program.Emitted

variable {runtime : String} {contract concrete : ClassDef}
variable (e : p.Emitted m f runtime contract concrete)

include e

/-- The statements of some labels give the slots behind them new values, whatever was there, and
leave the others alone. -/
theorem runBody_slotRewrites {labels : List String} (found : h.get? id = some i)
    (class_eq : i.className = m.className) {locals : Locals}
    (self : locals.lookup "self" = some (.object id)) (free : locals.lookup "object" = none)
    (subset : labels ⊆ m.labels) (nodup : labels.Nodup) (length : labels.length = vs.length)
    (values : ∀ entry ∈ labels.zip vs, locals.lookup entry.1 = some entry.2) (n : Nat) :
    ∃ g j, (Context.withDepth p (n + 1)).runBody locals (labels.map slotWrite) h =
        (.ok .null, g) ∧ g.get? id = some j ∧ j.className = m.className ∧
      (labels.map slotName).map j.slot? = vs.map some ∧
      ∀ name ∉ labels.map slotName, j.slot? name = i.slot? name := by
  induction labels generalizing h i vs with
  | nil =>
    cases vs with
    | nil => exact ⟨h, i, rfl, found, class_eq, rfl, fun _ _ => rfl⟩
    | cons v vs => cases length
  | cons label labels ih =>
    cases vs with
    | nil => cases length
    | cons v vs =>
      obtain ⟨head, tail⟩ := List.cons_subset.1 subset
      obtain ⟨new, nodup⟩ := List.nodup_cons.1 nodup
      have written := e.runStmt_slotWrite head found class_eq self free
        (values (label, v) List.mem_cons_self) n
      have there : (h.modify id (·.setSlot (slotName label) v)).get? id =
          some (i.setSlot (slotName label) v) := by
        rw [Heap.get?_modify_self, found, Option.map_some]
      obtain ⟨g, j, ran, held, same, rest, others⟩ := ih there class_eq tail nodup
        (Nat.succ.inj length) fun entry mem => values entry (List.mem_cons_of_mem _ mem)
      -- The labels that follow have other slots, so this one keeps its value.
      have own : slotName label ∉ labels.map slotName := by
        intro mem
        obtain ⟨l, hl, eq⟩ := List.mem_map.1 mem
        exact new (slotName_injective eq ▸ hl)
      refine ⟨g, j, ?_, held, same, ?_, fun name absent => ?_⟩
      · rw [List.map_cons, Context.runBody_cons written, ran]
      · rw [List.map_cons, List.map_cons, List.map_cons, rest, others _ own,
          Instance.slot?_setSlot_self]
      · rw [List.map_cons, List.mem_cons, not_or] at absent
        rw [others name absent.2, Instance.slot?_setSlot_of_ne absent.1]

/-- Called again with as many values as there are labels, an initialiser stores them. -/
theorem runFunction_initialiser (found : h.get? id = some i) (class_eq : i.className = m.className)
    (length : args.length = m.labels.length) (n : Nat) :
    Holds ((Context.withDepth p (n + 1)).runFunction (initialiser m) (.object id :: args) h).2 id m
      args := by
  have keys := map_fst_locals length (.object id)
  obtain ⟨g, j, ran, held, same, slots, -⟩ := e.runBody_slotRewrites found class_eq rfl
    (e.lookup_object length _) (List.Subset.refl _) e.nodup_labels length.symm
    (fun entry mem => lookup_of_nodup (keys ▸ e.nodup_locals) (List.mem_cons_of_mem _ mem)) n
  rw [Context.runFunction_eq (e.bindArguments_initialiser length _), body_initialiser, ran]
  exact ⟨j, held, same, slots⟩

end Program.Emitted

/-- Called again, the initialiser of an open-ended tuple stores any values. -/
theorem Program.Undisturbed.holdsOpen_initialiser (u : p.Undisturbed) (found : h.get? id = some i)
    (class_eq : i.className = Support.openClass) (args : List Datum) (n : Nat) :
    HoldsOpen ((Context.withDepth p (n + 1)).run (.support Support.openClass "__init__")
      (.object id :: args) h).2 id args := by
  obtain ⟨label, g, tupled, same⟩ : ∃ label g,
      Exec.tuple args h = (.ok (.tuple args label), g) ∧ g.instances = h.instances := by
    by_cases nil : args = []
    · exact ⟨0, h, by rw [nil]; rfl, rfl⟩
    · exact ⟨_, _, Exec.tuple_ok nil h, rfl⟩
  have held : g.get? id = some i := by
    rw [Heap.get?, same]
    exact found
  rw [u.run_initialiser_open tupled held class_eq n]
  refine ⟨i.setSlot Support.valuesSlot (.tuple args label), label, ?_, class_eq,
    Instance.slot?_setSlot_self ..⟩
  rw [Heap.get?_modify_self, held, Option.map_some]

/-! ## What every tuple offers -/

namespace Program.Hosts

variable (o : p.Hosts f)

include o

/-- Setting an attribute is left to the marker, and finding one to what every class can do. -/
theorem find?_shared (mem : c ∈ tupleClasses f) {name : String}
    (listed : name ∈ ["__setattr__", "__getattribute__"]) : p.find? c name =
      [Support.markerClass, "object"].findSome? (Support.attribute? · name) := by
  have either : name = "__setattr__" ∨ name = "__getattribute__" := by simpa using listed
  rcases List.mem_cons.1 mem with rfl | mem
  · rcases either with rfl | rfl <;> exact (o.undisturbed.find?_open_support (by decide)).trans rfl
  · obtain ⟨m, own, rfl⟩ := List.mem_map.1 mem
    by_cases zero : m.arity = 0
    · obtain ⟨next, contract, concrete, e⟩ := o.null m own zero
      rcases either with rfl | rfl <;>
        exact (e.find?_support (by decide) (by decide) (by decide)).trans rfl
    · obtain ⟨contract, concrete, e⟩ := o.proper m (Family.mem_proper_iff.2 ⟨own, zero⟩)
      have setter : name ∈ setterNames := List.mem_cons_of_mem _ listed
      have label : name ∉ m.labels := fun mem => e.usable.noSetters_labels name mem setter
      have apart : ∀ n ∈ ["__setattr__", "__getattribute__"],
          n ∉ commonNames ∧ ¬"component".toList <+: n.toList := by decide
      obtain ⟨uncommon, start⟩ := apart name listed
      have fixed : name ∉ fixedNames m := by
        rw [fixedNames, List.mem_append, not_or]
        exact ⟨uncommon, not_mem_componentNames_of_start start⟩
      rcases either with rfl | rfl <;>
        exact (e.find?_support (by decide) label fixed (by decide)).trans rfl

theorem find?_setattr (mem : c ∈ tupleClasses f) : p.find? c "__setattr__" =
    some (.method (.support Support.markerClass "__setattr__")) :=
  (o.find?_shared mem (by decide)).trans rfl

theorem find?_getattribute (mem : c ∈ tupleClasses f) : p.find? c "__getattribute__" =
    some (.method (.support "object" "__getattribute__")) :=
  (o.find?_shared mem (by decide)).trans rfl

/-- The initialiser of a member takes as many values as it has labels. -/
theorem accepts_iff (mem : m ∈ f.members) (count : Nat) :
    Accepts f m.className count ↔ m.labels.length = count := by
  constructor
  · rintro (eq | ⟨m', mem', eq, length⟩)
    · exact absurd eq (o.className_ne_open mem)
    · cases o.eq_of_className mem' mem eq
      exact length
  · exact fun length => .inr ⟨m, mem, rfl, length⟩

end Program.Hosts

/-! ## One operation -/

/-- A method of a tuple is called on the tuple. -/
theorem Stores.callMethod_eq (s : Stores f h id c vs) {name : String} {r : Routine}
    (found : p.find? c name = some (.method r)) (args : List Datum) (n : Nat) :
    (Context.withDepth p n).callMethod (.object id) name args h =
      (Context.withDepth p n).run r (.object id :: args) h := by
  obtain ⟨i, there, class_eq⟩ := s.exists_instance
  refine Context.callMethod_object there ?_ args
  rw [Context.program_withDepth, class_eq, found]

/-- A tuple stands on a heap that is harmless. -/
structure Stands (f : Family) (h : Heap) (id : Nat) (c : String) (vs : List Datum) : Prop where
  harmless : h.Harmless
  stores : Stores f h id c vs

theorem Exec.Keeps.stands {α : Type} {run : Exec α} {P : α → Prop} (keeps : run.Keeps P)
    (s : Stands f h id c vs) : Stands f (run h).2 id c vs := by
  obtain ⟨within, harmless, -⟩ := keeps h s.harmless
  exact ⟨harmless, s.stores.mono within⟩

/-- What an operation gives makes no difference for the heap. -/
theorem Exec.heap_discard {α : Type} (run : Exec α) (h : Heap) :
    ((run >>= fun _ => pure ()) h).2 = (run h).2 := by
  rcases step : run h with ⟨result, g⟩
  cases result with
  | error e => rw [bind_error step]
  | ok a =>
    rw [bind_ok step]
    rfl

theorem isOwn_marker (name : String) : Context.IsOwn (.support Support.markerClass name) := by
  show Support.markerClass ≠ "object"
  decide

namespace Program.Initialised

variable (o : p.Initialised f)

include o

/-- The marker refuses to set an attribute. -/
theorem stands_set (s : Stands f h id c vs) {field : String} {v : Datum} (hv : v.Harmless)
    (n : Nat) :
    Stands f ((Operation.set field v).run (Context.withDepth p (n + 1)) id h).2 id c vs := by
  obtain ⟨i, found, class_eq⟩ := s.stores.exists_instance
  have marked := o.hosts.find?_setattr s.stores.mem_classes
  have sent : (Context.withDepth p (n + 1)).send id "__setattr__" [.text field, v] h =
      (Context.withDepth p (n + 1)).run (.support Support.markerClass "__setattr__")
        [.object id, .text field, v] h := by
    refine Context.send_ok found ?_ (isOwn_marker _) _
    rw [Context.program_withDepth, class_eq, marked]
  have heap := Exec.heap_discard
    ((Context.withDepth p (n + 1)).send id "__setattr__" [.text field, v]) h
  rw [Operation.run, Context.setAttribute, heap, sent]
  have each : AllHarmless [.object id, .text field, v] := by
    simp [harmless_object, harmless_text, hv]
  exact ((o.keeps_withDepth (n + 1)).run _ _ (by decide) each).stands s

/-- Nor does it delete one. -/
theorem stands_delete (s : Stands f h id c vs) (field : String) (n : Nat) :
    Stands f ((Operation.delete field).run (Context.withDepth p n) id h).2 id c vs := by
  have each : AllHarmless [.text field] := by simp [harmless_text]
  have sent : ((Context.withDepth p n).send id "__delattr__" [.text field]).Keeps Datum.Harmless :=
    (o.keeps_withDepth n).send id (by decide) each
  have heap := Exec.heap_discard
    ((Context.withDepth p n).send id "__delattr__" [.text field]) h
  rw [Operation.run, Context.deleteAttribute, heap]
  exact sent.stands s

/-- Running the initialiser of its class on a tuple leaves the heap harmless. -/
theorem stands_of_init (s : Stands f h id c vs) {r : Routine}
    (found : p.find? c "__init__" = some (.method r)) (each : AllHarmless args) (n : Nat)
    (stores : Stores f ((Context.withDepth p n).run r (.object id :: args) h).2 id c ws) :
    Stands f ((Context.withDepth p n).callMethod (.object id) "__init__" args h).2 id c ws := by
  have writes := o.writes_init found each id n (o.keeps_withDepth n).run
  rw [s.stores.callMethod_eq found]
  exact ⟨(writes h s.harmless).2, stores⟩

/-- Calling the initialiser of a tuple again puts other values in it, if their number is right. -/
theorem stands_init (s : Stands f h id c vs) (each : AllHarmless args) (n : Nat) :
    Stands f ((Context.withDepth p (n + 2)).callMethod (.object id) "__init__" args h).2 id c
      ((Operation.call "__init__" args).valuesAfter f c vs) := by
  have stores := s.stores
  cases stores with
  | @null m mem arity held =>
    obtain ⟨next, contract, concrete, e⟩ := o.hosts.null m mem arity
    have none : (Operation.call "__init__" args).valuesAfter f m.className [] = [] := by
      rw [Operation.valuesAfter]
      split
      · next accepted =>
        have length := (o.hosts.accepts_iff mem _).1 accepted.2
        rw [e.labels_eq_nil] at length
        exact List.eq_nil_of_length_eq_zero length.symm
      · rfl
    rw [none]
    refine o.stands_of_init s e.find?_initialiser each _ ?_
    have given : AllHarmless (.object id :: args) := by simp [harmless_object, each]
    exact (((o.keeps_withDepth _).run _ _ (by decide) given).stands s).stores
  | @proper m vs mem held =>
    obtain ⟨contract, concrete, e⟩ := o.hosts.proper m mem
    refine o.stands_of_init s (e.find?_concrete (initialiser m) (by simp)) each _ ?_
    have accepts := o.hosts.accepts_iff (Family.mem_proper_iff.1 mem).1 args.length
    rw [Operation.valuesAfter]
    split
    · next accepted =>
      have length := accepts.1 accepted.2
      obtain ⟨i, found, class_eq, -⟩ := held
      exact .proper mem (e.runFunction_initialiser found class_eq length.symm n)
    · next refused =>
      have unchanged : (Context.withDepth p (n + 1)).runFunction (initialiser m)
          (.object id :: args) h = (.error .wrongType, h) := by
        rw [Context.runFunction,
          e.bindArguments_initialiser_ne fun eq => refused ⟨rfl, accepts.2 eq.symm⟩]
        rfl
      rw [Context.run_withDepth_succ, Context.runRoutine, unchanged]
      exact s.stores
  | openEnded held =>
    have found : p.find? Support.openClass "__init__" =
        some (.method (.support Support.openClass "__init__")) :=
      o.hosts.undisturbed.find?_open (by decide) rfl
    obtain ⟨i, label, there, class_eq, -⟩ := held
    rw [Operation.valuesAfter, if_pos ⟨rfl, .inl rfl⟩]
    refine o.stands_of_init s found each _ ?_
    exact .openEnded (o.hosts.undisturbed.holdsOpen_initialiser there class_eq args _)

/-- Calling any other method leaves a tuple alone. -/
theorem stands_call (s : Stands f h id c vs) {name : String} (other : name ≠ "__init__")
    (each : AllHarmless args) (n : Nat) :
    Stands f ((Context.withDepth p (n + 1)).callMethod (.object id) name args h).2 id c vs := by
  have k := o.keeps_withDepth (n + 1)
  have given : AllHarmless (.object id :: args) := by simp [harmless_object, each]
  by_cases plain : name ∈ setterNames
  · have mem := s.stores.mem_classes
    simp only [setterNames, List.mem_cons, other, List.not_mem_nil, or_false, false_or] at plain
    -- Under these two names a tuple offers no code that writes its slots.
    rcases plain with rfl | rfl
    · rw [s.stores.callMethod_eq (o.hosts.find?_setattr mem)]
      exact (k.run _ _ (by decide) given).stands s
    · rw [s.stores.callMethod_eq (o.hosts.find?_getattribute mem)]
      exact ((o.keeps_withDepth n).runCommon (by decide) given).stands s
  · exact (k.callMethod _ plain each).stands s

/-- What an operation leaves of a tuple. -/
theorem stands_operation (s : Stands f h id c vs) {op : Operation} (each : AllHarmless op.handed)
    (n : Nat) :
    Stands f (op.run (Context.withDepth p (n + 2)) id h).2 id c (op.valuesAfter f c vs) := by
  cases op with
  | set field v => exact o.stands_set s (each v List.mem_cons_self) (n + 1)
  | delete field => exact o.stands_delete s field (n + 2)
  | call name args =>
    rw [Operation.run, Exec.heap_discard]
    by_cases init : name = "__init__"
    · subst init
      exact o.stands_init s each n
    · rw [Operation.valuesAfter, if_neg fun accepted => init accepted.1]
      exact o.stands_call s init each (n + 1)

/-! ## Many operations -/

/-- After each of many operations a tuple stores what the initialisers called so far put in it. -/
theorem stands_operations (s : Stands f h id c vs) {ops : List Operation}
    (each : ∀ op ∈ ops, AllHarmless op.handed) (n : Nat) :
    List.Forall₂ (fun g ws => Stands f g id c ws)
      (heapsAfter (Context.withDepth p (n + 2)) id ops h) (valuesAfter f c ops vs) := by
  induction ops generalizing h vs with
  | nil => exact .nil
  | cons op ops ih =>
    obtain ⟨own, rest⟩ := List.forall_mem_cons.1 each
    have step := o.stands_operation s own n
    exact .cons step (ih step rest)

end Program.Initialised

/-- What becomes of a tuple under some operations. -/
structure Persists (cx : Context) (f : Family) (h : Heap) (id : Nat) (c : String) (vs : List Datum)
    (ops : List Operation) : Prop where
  /-- After each operation it stores what the last initialiser that took its arguments was given,
  and shows that. -/
  values : List.Forall₂ (fun g ws => Stands f g id c ws ∧ (cx.iterate (.object id) g).1 = .ok ws)
    (heapsAfter cx id ops h) (valuesAfter f c ops vs)
  /-- As long as no initialiser is called it stores and shows what it did before. -/
  same : (∀ args, .call "__init__" args ∉ ops) →
    ∀ g ∈ heapsAfter cx id ops h, Stands f g id c vs ∧ (cx.iterate (.object id) g).1 = .ok vs

namespace Program.Initialised

variable (o : p.Initialised f)

include o

theorem persists (s : Stands f h id c vs) {ops : List Operation}
    (each : ∀ op ∈ ops, AllHarmless op.handed) (n : Nat) :
    Persists (Context.withDepth p (n + 2)) f h id c vs ops := by
  have shown : ∀ g ws, Stands f g id c ws → Stands f g id c ws ∧
      ((Context.withDepth p (n + 2)).iterate (.object id) g).1 = .ok ws := by
    intro g ws stands
    obtain ⟨g', gone, -⟩ := o.hosts.iterate_tuple stands.stores n
    exact ⟨stands, by rw [gone]⟩
  have values := (o.stands_operations s each n).imp shown
  refine ⟨values, fun none g mem => ?_⟩
  obtain ⟨j, lt, rfl⟩ := List.getElem_of_mem mem
  have lt' : j < (valuesAfter f c ops vs).length := values.length_eq ▸ lt
  have unchanged := valuesAfter_of_no_init none (List.getElem_mem lt')
  exact unchanged ▸ values.get lt lt'

/-- A new tuple stands on a harmless heap if the old one was harmless. -/
theorem stands_new (takes : Takes f c vs.length) (each : AllHarmless vs) (harmless : h.Harmless)
    (n : Nat) : ∃ id g, (Context.withDepth p (n + 2)).construct c vs h = (.ok (.object id), g) ∧
      Stands f g id c vs := by
  obtain ⟨g, makes⟩ := o.hosts.exists_constructs takes h
  have made := makes n
  obtain ⟨-, kept, -⟩ := (o.keeps_withDepth (n + 2)).construct c vs each h harmless
  rw [made.ran] at kept
  exact ⟨_, g, made.ran, kept, made.stores⟩

end Program.Initialised

/-- In the family of every bound that is accepted, tuples change only when their initialisers are
called again: whatever is set, deleted or called on one, any number of times and whether it fails or
not, it stores what its initialiser was called with last, provided that no code that sets slots is
handed over or stored as a value. -/
theorem tuples_change_only_by_initialisers {bound : Int} (accepted : Family.build bound = .ok f)
    (package : String) :
    ∃ p h₀, Program.ofFamily package f = .ok (.ok p, h₀) ∧
      (∃ c, IsNullClass f c ∧ Stands f h₀ 0 c []) ∧
      (∀ (h : Heap) (c : String) (vs : List Datum) (n : Nat), h.Harmless → AllHarmless vs →
        Takes f c vs.length → ∃ id g,
          (Context.withDepth p (n + 2)).construct c vs h = (.ok (.object id), g) ∧
            Stands f g id c vs) ∧
      ∀ (h : Heap) (id : Nat) (c : String) (vs : List Datum) (ops : List Operation) (n : Nat),
        Stands f h id c vs → (∀ op ∈ ops, AllHarmless op.handed) →
          Persists (Context.withDepth p (n + 2)) f h id c vs ops := by
  obtain ⟨count, rfl, pos, le, rfl⟩ := Family.exists_built accepted
  have l := loadable_built pos le
  obtain ⟨null, next, members, zero, succ⟩ := l.exists_null
  have o := l.initialised members package zero succ (className_not_mem_comparisonNames le)
  have e := l.emittedNull_afterLoading members package zero succ
  have mem := null_mem members
  have empty : ({} : Heap).Harmless := fun i held => absurd held List.not_mem_nil
  refine ⟨_, _, l.ofFamily_eq members zero succ,
    ⟨null.className, (o.hosts.isNullClass_iff mem).2 zero, empty.push _,
      .null mem zero (e.holds rfl)⟩,
    fun h c vs n harmless each takes => o.stands_new takes each harmless n,
    fun h id c vs ops n s each => o.persists s each n⟩

/-- A tuple of two values that refuses to be set, and takes the values of another call of its
initialiser. -/
theorem duad_initialised_again : ∃ p h₀ id g,
    Family.build 2 = .ok (Family.built 2) ∧
    Program.ofFamily "shapes" (Family.built 2) = .ok (.ok p, h₀) ∧
    (Context.withDepth p 2).construct "Duad" [.int 1, .int 2] h₀ = (.ok (.object id), g) ∧
    Persists (Context.withDepth p 2) (Family.built 2) g id "Duad" [.int 1, .int 2]
      [.set "a" (.int 5), .call "__init__" [.int 3, .int 4], .delete "_a"] ∧
    valuesAfter (Family.built 2) "Duad"
      [.set "a" (.int 5), .call "__init__" [.int 3, .int 4], .delete "_a"] [.int 1, .int 2] =
        [[.int 1, .int 2], [.int 3, .int 4], [.int 3, .int 4]] := by
  have accepted : Family.build 2 = .ok (Family.built 2) :=
    Family.build_natCast (by decide) (by decide)
  obtain ⟨p, h₀, loaded, ⟨c, -, start⟩, made, kept⟩ :=
    tuples_change_only_by_initialisers accepted "shapes"
  have takes : Takes (Family.built 2) "Duad" 2 := .proper (m := Family.builtMember 2 2) (by decide)
  obtain ⟨id, g, created, stands⟩ :=
    made h₀ "Duad" [.int 1, .int 2] 0 start.harmless (by decide) takes
  have persists := kept g id "Duad" [.int 1, .int 2]
    [.set "a" (.int 5), .call "__init__" [.int 3, .int 4], .delete "_a"] 0 stands (by decide)
  exact ⟨p, h₀, id, g, accepted, loaded, created, persists, rfl⟩

end Polyad.Machine
