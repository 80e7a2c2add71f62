import Polyad.Proofs.Machine.HarmlessFiles
import Polyad.Proofs.Machine.Hosting
import Polyad.Proofs.Machine.KeepingRuns

/-!
# Initialisers and the heap

What a class offers under a name, and what is run to make an instance of it. An initialiser writes
the slots of its own instance and nothing else, so making an instance leaves the others as they are.
Hence every harmless call in the program of a family keeps the heap, however deep calls stand inside
each other.
-/

namespace Polyad.Machine

open Code Generated

variable {p : Program} {f : Family} {null next : Member} {package : String} {name : String}

/-! ## What a class offers -/

/-- The kinds of attributes that a class of a program can have under a name. -/
inductive Program.Offers (p : Program) (name : String) : Attribute → Prop
  | value {v : Datum} : v.routines = [] → Offers p name (.value v)
  | slot (s : String) : Offers p name (.slot s)
  | support (owner : String) : Offers p name (.method (.support owner name))
  | openProperty : name ∈ Support.openProperties →
      Offers p name (.property (.support Support.openClass name))
  | property {owner : String} {c : ClassDef} {fn : Function} : p.class? owner = some c →
      .function fn ∈ c.items → fn.name = name → fn.decorators ≠ [] →
      Offers p name (.property (.written fn))
  | method {owner : String} {c : ClassDef} {fn : Function} : p.class? owner = some c →
      .function fn ∈ c.items → fn.name = name → Offers p name (.method (.written fn))

namespace Program

theorem routines_texts (names : List String) (label : Nat) :
    (Datum.tuple (names.map .text) label).routines = [] := by
  rw [Datum.routines]
  induction names with
  | nil => rfl
  | cons n names ih =>
    rw [List.map_cons, Datum.routinesAll, ih]
    rfl

theorem offers_of_support {owner : String} {a : Attribute}
    (found : Support.attribute? owner name = some a) : p.Offers name a := by
  unfold Support.attribute? at found
  split at found
  · cases found
    exact .support owner
  · split at found
    · next own =>
      cases found
      simp only [Bool.and_eq_true, beq_iff_eq, List.contains_iff_mem] at own
      rw [own.1]
      exact .openProperty own.2
    · split at found
      · split at found
        · cases found
          exact .value (routines_texts _ 0)
        · split at found
          · cases found
            exact .slot name
          · cases found
      · cases found

theorem offers_of_class {owner : String} {c : ClassDef} (there : p.class? owner = some c)
    {a : Attribute} (found : Machine.ownAttribute? c name = some a) : p.Offers name a := by
  unfold Machine.ownAttribute? at found
  split at found
  · next fn item =>
    have named : fn.name = name := by simpa [ClassItem.name] using List.find?_some item
    have held : .function fn ∈ c.items := List.mem_reverse.1 (List.mem_of_find?_eq_some item)
    cases found
    split
    · next decorated =>
      refine .property there held named fun none => ?_
      rw [none] at decorated
      cases decorated
    · exact .method there held named
  · split at found
    · cases found
      exact .value (routines_texts _ 0)
    · cases found
  · split at found
    · cases found
      exact .slot name
    · cases found

/-- Every attribute that is found is of one of these kinds. -/
theorem offers_of_find? {c : String} {a : Attribute} (found : p.find? c name = some a) :
    p.Offers name a := by
  unfold find? at found
  split at found
  · cases found
    exact .value rfl
  · split at found
    · cases found
      exact .value rfl
    · split at found
      · cases found
        refine .value ?_
        cases p.documentation? c <;> rfl
      · obtain ⟨owner, -, own⟩ := List.exists_of_findSome?_eq_some found
        unfold ownAttribute? at own
        split at own
        · next there => exact offers_of_class there own
        · exact offers_of_support own

end Program

/-! ## Programs of families -/

/-- A program whose names stand for harmless values. -/
def Program.HarmlessNames (p : Program) : Prop := ∀ name v, p.lookup name = some v → v.Harmless

namespace Program.HarmlessNames

theorem empty : ({} : Program).HarmlessNames := by
  intro name v found
  have all : ∀ entry ∈ builtins, entry.2.routines = [] := by decide
  have found : builtins.lookup name = some v := found
  obtain ⟨before, after, eq, -⟩ := List.lookup_eq_some_iff.1 found
  exact Datum.harmless_of_plain (all (name, v) (by simp [eq]))

theorem bind (h : p.HarmlessNames) (n : String) {v : Datum} (hv : v.Harmless) :
    (p.bind n v).HarmlessNames := by
  intro name w found
  rw [lookup_bind] at found
  split at found
  · cases found
    exact hv
  · exact h name w found

theorem foldl_addClass (h : p.HarmlessNames) (home : String) (cs : List ClassDef) :
    (cs.foldl (addClass home) p).HarmlessNames := by
  intro name w found
  rw [lookup_foldl_addClass] at found
  split at found
  · cases found
    exact Datum.harmless_of_plain rfl
  · exact h name w found

theorem bindFunctions (h : p.HarmlessNames) {fs : List Function}
    (each : ∀ fn ∈ fs, NoSetters fn.attributes) : (p.bindFunctions fs).HarmlessNames := by
  unfold Program.bindFunctions
  induction fs generalizing p with
  | nil => exact h
  | cons fn fs ih =>
    obtain ⟨own, rest⟩ := List.forall_mem_cons.1 each
    exact ih (h.bind fn.name (Datum.harmless_routine.2 own)) rest

end Program.HarmlessNames

theorem harmlessNames_afterLoading : (Program.afterLoading package f null next).HarmlessNames := by
  have contracts : (Program.beforeNull package f null next).HarmlessNames :=
    ((Program.HarmlessNames.empty.foldl_addClass _ _).foldl_addClass _ [nullOutline null next])
  have instance' := contracts.bind nullInstance (v := .object 0) (Datum.harmless_of_plain rfl)
  have classes := instance'.foldl_addClass (package ++ "." ++ "tuples_impl")
    (f.proper.map (classOf f))
  have native : ∀ fn ∈ nativeConverters f, NoSetters fn.attributes := fun _ mem =>
    noSetters_nativeConverters mem
  have converters := classes.bindFunctions native
  refine (converters.bind _ (Datum.harmless_tuple.2 fun v mem => ?_)).bind _ ?_
  · obtain ⟨m, -, rfl⟩ := List.mem_map.1 mem
    exact Datum.harmless_of_plain rfl
  · exact Datum.harmless_routine.2 noSetters_factoryFunction

/-- Initialisers that can write slots are those of the open-ended tuple and of the members. -/
structure Program.Initialised (p : Program) (f : Family) : Prop where
  hosts : p.Hosts f
  harmless : p.Harmless
  initialisers : ∀ c r, p.find? c "__init__" = some (.method r) →
    r = .support Support.openClass "__init__" ∨ r.Harmless ∨
      ∃ m ∈ f.proper, r = .written (initialiser m)

namespace Loadable

variable (l : Loadable f) (members : f.members = null :: f.proper)

include l

/-- The functions of the classes of a family are harmless, except for the initialisers. -/
theorem functions_afterLoading {owner : String} {c : ClassDef}
    (there : (Program.afterLoading package f null next).class? owner = some c) {fn : Function}
    (held : .function fn ∈ c.items) :
    NoSetters fn.attributes ∨ ∃ m ∈ f.proper, fn = initialiser m := by
  rw [class?_afterLoading] at there
  rcases List.mem_append.1 (List.mem_of_find?_eq_some there) with contract | concrete
  · obtain ⟨m, mem, rfl⟩ := List.mem_map.1 contract
    exact .inl (noSetters_contractOf l.derived mem (l.usable m mem) held)
  · rcases List.mem_cons.1 concrete with rfl | concrete
    · exact .inl (noSetters_nullOutline held)
    · obtain ⟨m, mem, rfl⟩ := List.mem_map.1 concrete
      have own := (Family.mem_proper_iff.1 mem).1
      rcases noSetters_classOf l.derived l.le own (l.usable m own) held with rfl | plain
      · exact .inr ⟨m, mem, rfl⟩
      · exact .inl plain

include members

theorem initialised (package : String) (arity : null.arity = 0)
    (succ : f.successor? null = some next) (own : ∀ m ∈ f.members, m.className ∉ comparisonNames) :
    (Program.afterLoading package f null next).Initialised f := by
  refine ⟨l.hosts members package arity succ own,
    ⟨harmlessNames_afterLoading, fun c name a plain found => ?_, fun c name r found => ?_⟩,
    fun c r found => ?_⟩
  · cases Program.offers_of_find? found with
    | value none => exact Datum.harmless_of_plain none
    | slot s => exact trivial
    | support owner => exact Routine.harmless_support plain
    | openProperty _ => exact Routine.harmless_support plain
    | property there held named _ | method there held named =>
      rcases l.functions_afterLoading there held with harmless | ⟨m, -, rfl⟩
      · exact harmless
      · have setter : (initialiser m).name ∈ setterNames := List.mem_cons_self
        exact absurd (named ▸ setter) plain
  · cases Program.offers_of_find? found with
    | openProperty own =>
      have apart : ∀ n ∈ Support.openProperties, n ∉ setterNames := by decide
      exact Routine.harmless_support (apart name own)
    | property there held _ decorated =>
      rcases l.functions_afterLoading there held with harmless | ⟨m, -, rfl⟩
      · exact harmless
      · exact absurd rfl decorated
  · cases Program.offers_of_find? found with
    | support owner =>
      by_cases open' : owner = Support.openClass
      · exact .inl (open' ▸ rfl)
      · refine .inr (.inl fun setter => ?_)
        simp [setters, open'] at setter
    | method there held _ =>
      rcases l.functions_afterLoading there held with harmless | ⟨m, mem, rfl⟩
      · exact .inr (.inl harmless)
      · exact .inr (.inr ⟨m, mem, rfl⟩)

end Loadable

/-! ## Writing one instance -/

namespace Heap

/-- The instances of the one heap are on the other as they are, all but one. -/
def WithinBut (id : Nat) (g h : Heap) : Prop :=
  ∀ other i, other ≠ id → g.get? other = some i → h.get? other = some i

namespace WithinBut

variable {g h k : Heap} {id : Nat}

theorem trans (first : WithinBut id g h) (second : WithinBut id h k) : WithinBut id g k :=
  fun other i ne found => second other i ne (first other i ne found)

theorem modify (h : Heap) (change : Instance → Instance) :
    WithinBut id h (h.modify id change) := by
  intro other i ne found
  rw [get?_modify_of_ne ne.symm, found]

theorem of_within (within : g.Within h) : WithinBut id g h :=
  fun _ _ _ found => within.get?_eq_some found

/-- If the one instance is new, the old ones are all kept. -/
theorem within (but : WithinBut g.instances.length (g.push i) h) : g.Within h := by
  refine List.prefix_iff_getElem?.2 fun id lt => ?_
  have found : (g.push i).get? id = some g.instances[id] := by
    rw [get?_push_of_lt lt]
    exact List.getElem?_eq_getElem lt
  exact but id _ (Nat.ne_of_lt lt) found

end WithinBut

theorem Harmless.push {h : Heap} (harmless : h.Harmless) (className : String) :
    (h.push ⟨className, []⟩).Harmless := by
  intro i mem
  rcases List.mem_append.1 mem with old | new
  · exact harmless i old
  · cases List.mem_singleton.1 new
    exact fun slot held => absurd held List.not_mem_nil

theorem Harmless.setSlot {h : Heap} (harmless : h.Harmless) (id : Nat) (name : String) {v : Datum}
    (hv : v.Harmless) : (h.modify id (·.setSlot name v)).Harmless := by
  intro i mem
  obtain ⟨n, found⟩ := List.getElem?_of_mem mem
  have found : (h.modify id (·.setSlot name v)).get? n = some i := found
  by_cases eq : id = n
  · subst eq
    rw [get?_modify_self] at found
    obtain ⟨j, old, rfl⟩ := Option.map_eq_some_iff.1 found
    refine List.forall_mem_cons.2 ⟨hv, fun slot held => ?_⟩
    exact harmless j (List.mem_of_getElem? old) slot (List.mem_filter.1 held).1
  · rw [get?_modify_of_ne eq] at found
    exact harmless i (List.mem_of_getElem? found)

end Heap

/-- Running something writes into one instance at most, and only harmless values. -/
def Exec.Writes {α : Type} (m : Exec α) (id : Nat) : Prop :=
  ∀ h : Heap, h.Harmless → h.WithinBut id (m h).2 ∧ (m h).2.Harmless

namespace Exec

variable {α β : Type} {m : Exec α} {g : α → Exec β} {id : Nat} {P : α → Prop}

theorem Keeps.writes (keeps : m.Keeps P) : m.Writes id := by
  intro h harmless
  obtain ⟨within, kept, -⟩ := keeps h harmless
  exact ⟨.of_within within, kept⟩

theorem writes_pure {a : α} : (pure a : Exec α).Writes id :=
  Keeps.writes (P := fun _ => True) (keeps_pure trivial)

theorem writes_throw {e : Fault} : (throw e : Exec α).Writes id :=
  Keeps.writes (P := fun _ => True) keeps_throw

theorem Keeps.bind_writes (first : m.Keeps P) (second : ∀ a, P a → (g a).Writes id) :
    (m >>= g).Writes id := by
  intro h harmless
  obtain ⟨within, kept, given⟩ := first h harmless
  rcases step : m h with ⟨result, k⟩
  rw [step] at within kept given
  cases result with
  | error e =>
    rw [bind_error step]
    exact ⟨.of_within within, kept⟩
  | ok a =>
    obtain ⟨within', kept'⟩ := second a (given a rfl) k kept
    rw [bind_ok step]
    exact ⟨.trans (.of_within within) within', kept'⟩

theorem Writes.bind (first : m.Writes id) (second : ∀ a, (g a).Writes id) :
    (m >>= g).Writes id := by
  intro h harmless
  obtain ⟨within, kept⟩ := first h harmless
  rcases step : m h with ⟨result, k⟩
  rw [step] at within kept
  cases result with
  | error e =>
    rw [bind_error step]
    exact ⟨within, kept⟩
  | ok a =>
    obtain ⟨within', kept'⟩ := second a k kept
    rw [bind_ok step]
    exact ⟨within.trans within', kept'⟩

end Exec

namespace Context

open Exec

variable {cx : Context} {id : Nat} {v : Datum} {args : List Datum}

/-- Looking for a method of an instance changes nothing. -/
theorem exists_special? (cx : Context) {h : Heap} {i : Instance} (held : h.get? id = some i)
    (name : String) :
    ∃ found, cx.special? id name h = (.ok found, h) ∧
      ∀ r, found = some r → cx.program.find? i.className name = some (.method r) := by
  have method : ∃ found, cx.method? id name h = (.ok found, h) ∧
      ∀ r, found = some r → cx.program.find? i.className name = some (.method r) := by
    rw [method?, bind_ok (className_ok held)]
    cases cx.program.find? i.className name with
    | none => exact ⟨none, rfl, fun s eq => by cases eq⟩
    | some a =>
      cases a with
      | method r => exact ⟨some r, rfl, fun s eq => by cases eq; rfl⟩
      | _ => exact ⟨none, rfl, fun s eq => by cases eq⟩
  obtain ⟨found, ran, there⟩ := method
  rw [special?, bind_ok ran]
  split
  · exact ⟨none, rfl, fun s eq => by cases eq⟩
  · exact ⟨found, rfl, there⟩

/-- Setting a slot past the class of an instance writes into that instance. -/
theorem writes_setPast (id : Nat) (field : String) (hv : v.Harmless) :
    (cx.setPast (.object id) field v).Writes id := by
  refine (keeps_className id).bind_writes fun c _ => ?_
  split
  · exact fun h harmless => ⟨.modify h _, harmless.setSlot id _ hv⟩
  · exact writes_throw

/-- The method that sets any attribute of an instance writes into that instance. -/
theorem writes_setattr (id : Nat) (field : String) (hv : v.Harmless) (n : Nat) :
    ((withDepth p n).run (.support "object" "__setattr__") [.object id, .text field, v]).Writes
      id := by
  cases n with
  | zero => exact writes_throw
  | succ n => exact (writes_setPast id field hv).bind fun _ => writes_pure

/-- Statements that write the slots of an instance. -/
theorem writes_slotWrites (u : p.Undisturbed) {locals : Locals} {labels : List String}
    (self : locals.lookup "self" = some (.object id)) (free : locals.lookup "object" = none)
    (bound : ∀ l ∈ labels, ∃ v, locals.lookup l = some v ∧ v.Harmless) (n : Nat) :
    ((withDepth p n).runBody locals (labels.map slotWrite)).Writes id := by
  induction labels with
  | nil => exact writes_pure
  | cons label labels ih =>
    obtain ⟨⟨v, value, hv⟩, rest⟩ := List.forall_mem_cons.1 bound
    intro h harmless
    have step : (withDepth p n).runBody locals (slotWrite label :: labels.map slotWrite) h =
        ((withDepth p n).run (.support "object" "__setattr__") [.object id,
          .text (slotName label), v] >>= fun _ =>
            (withDepth p n).runBody locals (labels.map slotWrite)) h := by
      rw [runBody, bind_congr (u.runStmt_slotWrite_eq self free value n h), bind_assoc]
      rfl
    rw [List.map_cons, step]
    exact ((writes_setattr id _ hv n).bind fun _ => ih rest) h harmless

end Context

/-- Parameters that are not variadic take as many arguments as there are. -/
theorem bindArguments_ne {ps : List Parameter} {args : List Datum}
    (plain : ps.all (!·.variadic) = true) (ne : ps.length ≠ args.length) :
    bindArguments ps args = throw .wrongType := by
  induction ps generalizing args with
  | nil =>
    cases args with
    | nil => exact absurd rfl ne
    | cons v rest => rfl
  | cons p ps ih =>
    cases args with
    | nil =>
      rw [List.all_cons, Bool.and_eq_true, Bool.not_eq_true'] at plain
      rw [bindArguments, plain.1]
      rfl
    | cons v rest =>
      rw [List.all_cons, Bool.and_eq_true, Bool.not_eq_true'] at plain
      rw [bindArguments, plain.1, ih plain.2 fun eq => ne (congrArg Nat.succ eq)]
      rfl

namespace Program.Emitted

variable {m : Member} {runtime : String} {contract concrete : ClassDef}
variable (e : p.Emitted m f runtime contract concrete)

include e

/-- An initialiser refuses any other number of arguments. -/
theorem bindArguments_initialiser_ne {args : List Datum} (ne : args.length ≠ m.labels.length)
    (self : Datum) :
    bindArguments (initialiser m).parameters (self :: args) = throw .wrongType := by
  have size := congrArg List.length (parameterNames_initialiser e.length_typeParams)
  rw [List.length_map, List.length_cons] at size
  refine bindArguments_ne (plain_initialiser m) ?_
  rw [size, List.length_cons]
  exact fun eq => ne (Nat.succ.inj eq).symm

/-- The initialiser of a member writes into its own instance. -/
theorem writes_initialiser {args : List Datum} (each : AllHarmless args) (id n : Nat) :
    ((Context.withDepth p n).runFunction (initialiser m) (.object id :: args)).Writes id := by
  by_cases length : args.length = m.labels.length
  · have keys := map_fst_locals length (.object id)
    rw [Context.runFunction_eq (e.bindArguments_initialiser length _), body_initialiser]
    refine Context.writes_slotWrites e.undisturbed rfl (e.lookup_object length _) (fun l hl => ?_) n
    obtain ⟨i, hi, rfl⟩ := List.getElem_of_mem hl
    have lt : i < args.length := by omega
    refine ⟨args[i], lookup_of_nodup (keys ▸ e.nodup_locals) (List.mem_cons_of_mem _ ?_),
      each _ (List.getElem_mem lt)⟩
    exact List.mem_iff_getElem.2 ⟨i, by rw [List.length_zip]; omega, List.getElem_zip⟩
  · rw [Context.runFunction, e.bindArguments_initialiser_ne length]
    exact Exec.Keeps.writes (P := fun _ => True) Exec.keeps_throw_bind

end Program.Emitted

namespace Program.Initialised

variable (o : p.Initialised f)

include o

open Exec

/-- What makes an instance writes into it and nothing else. -/
theorem writes_init {r : Routine} {c : String} (found : p.find? c "__init__" = some (.method r))
    {args : List Datum} (each : AllHarmless args) (id n : Nat)
    (keeps : ∀ r args, r.Harmless → AllHarmless args →
      ((Context.withDepth p n).run r args).Keeps Datum.Harmless) :
    ((Context.withDepth p n).run r (.object id :: args)).Writes id := by
  rcases o.initialisers c r found with rfl | harmless | ⟨m, mem, rfl⟩
  · cases n with
    | zero => exact writes_throw
    | succ n =>
      refine (keeps_tuple each).bind_writes fun t ht => ?_
      exact (Context.writes_setPast id _ ht).bind fun _ => writes_pure
  · exact (keeps r _ harmless (allHarmless_cons.2 ⟨harmless_object id, each⟩)).writes
  · obtain ⟨contract, concrete, e⟩ := o.hosts.proper m mem
    cases n with
    | zero => exact writes_throw
    | succ n => exact e.writes_initialiser each id n

/-- Making an instance keeps the others. -/
theorem keeps_construct {n : Nat}
    (keeps : ∀ r args, r.Harmless → AllHarmless args →
      ((Context.withDepth p n).run r args).Keeps Datum.Harmless) (name : String)
    {args : List Datum} (each : AllHarmless args) :
    ((Context.withDepth p n).construct name args).Keeps Datum.Harmless := by
  intro h harmless
  have allocated : allocate name h = (.ok h.instances.length, h.push ⟨name, []⟩) := rfl
  have empty := harmless.push name
  have old : h.Within (h.push ⟨name, []⟩) := .push h _
  obtain ⟨init, special, found⟩ := Context.exists_special? (Context.withDepth p n)
    (Heap.get?_push_self h ⟨name, []⟩) "__init__"
  by_cases concrete : (Context.withDepth p n).program.isConcrete name = true
  · cases init with
    | none =>
      have ran : (Context.withDepth p n).construct name args h =
          (if args.isEmpty then pure (.object h.instances.length) else throw .wrongType :
            Exec Datum) (h.push ⟨name, []⟩) := by
        rw [Context.construct, concrete, if_neg (by decide)]
        exact (bind_ok allocated).trans (bind_ok special)
      obtain ⟨within, rest⟩ := keeps_ite (c := args.isEmpty = true)
        (keeps_pure (harmless_object h.instances.length)) (keeps_throw (e := .wrongType)) _ empty
      rw [ran]
      exact ⟨old.trans within, rest⟩
    | some r =>
      have ran : (Context.withDepth p n).construct name args h =
          ((Context.withDepth p n).run r (.object h.instances.length :: args) >>= fun _ =>
            pure (.object h.instances.length)) (h.push ⟨name, []⟩) := by
        rw [Context.construct, concrete, if_neg (by decide)]
        exact (bind_ok allocated).trans (bind_ok special)
      have method : p.find? name "__init__" = some (.method r) := by simpa using found r rfl
      -- Even if it fails, the initialiser has written into the new instance only.
      obtain ⟨but, kept⟩ := o.writes_init method each h.instances.length n keeps _ empty
      rcases step : (Context.withDepth p n).run r (.object h.instances.length :: args)
        (h.push ⟨name, []⟩) with ⟨result, g⟩
      rw [step] at but kept
      rw [ran]
      cases result with
      | error e =>
        rw [bind_error step]
        exact ⟨but.within, kept, fun v eq => by cases eq⟩
      | ok v =>
        rw [bind_ok step]
        refine ⟨but.within, kept, fun v eq => ?_⟩
        cases eq
        exact harmless_object _
  · rw [Context.construct, Bool.eq_false_iff.2 concrete]
    exact keeps_throw_bind h harmless

/-- However deep calls stand inside each other, they keep the heap. -/
theorem keeps_withDepth (n : Nat) : (Context.withDepth p n).Keeps := by
  have keeps_of_run : ∀ n, (∀ r args, r.Harmless → AllHarmless args →
      ((Context.withDepth p n).run r args).Keeps Datum.Harmless) →
        (Context.withDepth p n).Keeps := fun n run =>
    ⟨by rw [Context.program_withDepth]; exact o.harmless, run,
      fun name args each => o.keeps_construct run name each⟩
  -- Only running code depends on the depth: the calls inside are one less deep.
  induction n with
  | zero => exact keeps_of_run 0 fun _ _ _ _ => keeps_throw
  | succ n ih => exact keeps_of_run (n + 1) fun r args harmless each => ih.runRoutine harmless each

end Program.Initialised
end Polyad.Machine
