import Polyad.Proofs.Machine.Factory
import Polyad.Proofs.Machine.Unpacking

/-!
# Conversion from and to native tuples

Native pairs and triples in exchange for tuples of a family. A converter takes whatever gives as
many values as its tuples hold when it is gone through, and makes the tuple of them in this order.
Both ways around, what comes back is equal to what was given.
-/

namespace Polyad.Machine

open Code Generated

variable {p : Program} {f : Family} {h : Heap} {v : Datum} {r : Option (List Datum)} {id : Nat}
variable {vs : List Datum} {k : Native} {m : Member} {cx : Context}

/-! ## Converting -/

/-- Makes a native collection of a tuple. -/
def Context.toNative (k : Native) (x : Datum) (cx : Context) : Exec Datum :=
  cx.callMethod x k.projection []

/-- Makes a tuple of a value. -/
def Context.fromNative (k : Native) (v : Datum) (cx : Context) : Exec Datum :=
  cx.callNamed k.converter [v]

/-- The operator that makes a native collection, too. -/
def Context.invert (id : Nat) (cx : Context) : Exec Datum := cx.send id "__invert__" []

namespace Loadable

variable {null next : Member} {package : String}

theorem lookup_converter (l : Loadable f) (mem : m ∈ f.members) (arity : m.arity = k.size) :
    (Program.afterLoading package f null next).lookup k.converter =
      some (.routine (.written (converterFunction m k))) := by
  have free : k.converter ≠ "_CONSTRUCTORS" ∧ k.converter ≠ "tuple_of" := by
    cases k <;> decide
  have there : converterFunction m k ∈ nativeConverters f := by
    have kind := (Native.of?_eq_some_iff l.derived mem).2 arity
    exact List.mem_filterMap.2 ⟨m, mem, by rw [kind, Option.map_some]⟩
  have only : ∀ other ∈ nativeConverters f, other.name = (converterFunction m k).name →
      other = converterFunction m k := by
    intro other listed same
    obtain ⟨m', mem', eq⟩ := List.mem_filterMap.1 listed
    obtain ⟨j, kind, rfl⟩ := Option.map_eq_some_iff.1 eq
    obtain rfl : j = k := Native.converter_injective same
    have arity' := (Native.of?_eq_some_iff l.derived mem').1 kind
    have found := Family.get?_arity mem'
    rw [arity', ← arity, Family.get?_arity mem, Option.some.injEq] at found
    rw [found]
  rw [Program.afterLoading, Program.lookup_bind_of_ne free.2, Program.lookup_bind_of_ne free.1]
  exact Program.lookup_bindFunctions_of_mem there only _

variable (l : Loadable f) (members : f.members = null :: f.proper)

include l members

/-- A converter makes an instance from the items of its argument. -/
theorem fromNative_eq (package : String) (next : Member) (conv : Convertible k m)
    (mem : m ∈ f.members) (v : Datum) (n : Nat) :
    Context.fromNative k v (Context.loaded package f null next (n + 1)) =
      (Context.loaded package f null next n).constructFrom m k v := by
  have named := l.lookup_className members package next mem
  rw [← Context.program_withDepth (.afterLoading package f null next) n] at named
  rw [Context.fromNative, Context.callNamed, Context.program_withDepth,
    l.lookup_converter mem conv.arity, ← conv.runBody_converter named]
  rfl

end Loadable

/-- A method that is called without arguments. -/
theorem Context.eval_call_attr {locals : Locals} {e : Expr} {x : Datum}
    (step : cx.eval locals e h = (.ok x, h)) (name : String) :
    cx.eval locals (.call (.attr e name) []) h = cx.callMethod x name [] h := by
  rw [eval, callMethod, Exec.bind_congr (eval_attr step name)]
  simp [evalArguments]

namespace Program.Emitted

variable {runtime : String} {contract concrete : ClassDef}
variable (e : p.Emitted m f runtime contract concrete)

include e

theorem find?_nativeMethod (kind : Native.of? m = some k) {fn : Function}
    (mem : fn ∈ nativeMethods m k) :
    p.find? m.className fn.name = some (.method (.written fn)) := by
  refine e.find?_contract fn (List.mem_append_right _ (List.mem_append_right _ ?_))
  rw [kind]
  exact mem

/-- A tuple makes a native collection of its values. -/
theorem toNative_eq (held : Holds h id m vs) (kind : Native.of? m = some k) (n : Nat) :
    Context.toNative k (.object id) (.withDepth p (n + 2)) h =
      (.ok (.tuple vs h.labels), h.labelled) := by
  refine (callMethod_ret held _ [] (e.find?_nativeMethod kind List.mem_cons_self) rfl rfl rfl
    (n + 1)).trans ?_
  exact Context.eval_tuple (e.evaluates_labels held rfl n) (e.ne_nil held)

/-- The operator calls the method, one call further in. -/
theorem invert_eq (held : Holds h id m vs) (kind : Native.of? m = some k) (n : Nat) :
    Context.invert id (.withDepth p (n + 1)) h =
      Context.toNative k (.object id) (.withDepth p n) h := by
  refine (send_ret held (e.find?_nativeMethod kind (List.mem_cons_of_mem _ List.mem_cons_self)) rfl
    rfl n).trans ?_
  exact Context.eval_call_attr (eval_self n) _

end Program.Emitted

/-! ## In exchange -/

/-- How a converter deals with a value, by what the value gives when it is gone through. -/
structure Converts (cx : Context) (f : Family) (k : Native) (m : Member) (h : Heap) (v : Datum)
    (r : Option (List Datum)) : Prop where
  succeeds_iff : (∃ x g, Context.fromNative k v cx h = (.ok x, g)) ↔
    ∃ vs, r = some vs ∧ vs.length = k.size
  makes : ∀ vs, r = some vs → vs.length = k.size → ∃ id g,
    Context.fromNative k v cx h = (.ok (.object id), g) ∧ Holds g id m vs ∧
      Shows cx f g (.object id) vs ∧ h.Within g ∧ g.warnings = h.warnings
  miscounts : ∀ vs, r = some vs → vs.length ≠ k.size →
    ∃ g, Context.fromNative k v cx h = (.error (.miscount k vs.length), g)
  refuses : r = none → ∃ g, Context.fromNative k v cx h = (.error .wrongType, g)

/-- What is given for native collections and tuples of a member, on a heap and with calls inside the
converters down to a depth. -/
structure Exchanges (p : Program) (f : Family) (k : Native) (m : Member) (h : Heap) (n : Nat) :
    Prop where
  converts : ∀ v r, Iterates p f h v r → Converts (.withDepth p (n + 1)) f k m h v r
  /-- What goes wrong on the way through a value goes wrong here. -/
  fails : ∀ v e g, (Context.withDepth p n).iterate v h = (.error e, g) →
    Context.fromNative k v (.withDepth p (n + 1)) h = (.error e, g)
  forth : ∀ vs label, vs.length = k.size → ∃ x g label' g',
    Context.fromNative k (.tuple vs label) (.withDepth p (n + 1)) h = (.ok x, g) ∧
      Context.toNative k x (.withDepth p (n + 1)) g = (.ok (.tuple vs label'), g') ∧
      EqualTo p g' (.tuple vs label') (.tuple vs label)
  back : ∀ id vs, Holds h id m vs → ∃ label g x g',
    Context.toNative k (.object id) (.withDepth p (n + 1)) h = (.ok (.tuple vs label), g) ∧
      Context.fromNative k (.tuple vs label) (.withDepth p (n + 1)) g = (.ok x, g') ∧
      EqualTo p g' x (.object id)
  inverts : ∀ id vs, Holds h id m vs → ∃ label g label' g',
    Context.invert id (.withDepth p (n + 1)) h = (.ok (.tuple vs label), g) ∧
      Context.toNative k (.object id) (.withDepth p (n + 1)) g = (.ok (.tuple vs label'), g') ∧
      EqualTo p g' (.tuple vs label) (.tuple vs label')

namespace Loadable

variable {null next : Member} {package : String}
variable (l : Loadable f) (members : f.members = null :: f.proper)
variable (o : (Program.afterLoading package f null next).Hosts f) (conv : Convertible k m)
variable (mem : m ∈ f.proper)

include l members o conv mem

/-- As many values as a native collection holds make the tuple of them. -/
theorem fromNative_makes (gives : Iterates (.afterLoading package f null next) f h v (some vs))
    (count : vs.length = k.size) (n : Nat) : ∃ id g,
      Context.fromNative k v (.loaded package f null next (n + 3)) h = (.ok (.object id), g) ∧
        Holds g id m vs ∧ h.Within g ∧ g.warnings = h.warnings := by
  have own := (Family.mem_proper_iff.1 mem).1
  have e := l.emitted_afterLoading members package next mem
  have size : vs.length = m.labels.length := by
    have := e.length_labels
    have := conv.arity
    omega
  obtain ⟨g, gone, instances, warnings⟩ := gives.iterate_eq o n
  have within : h.Within g := .of_eq instances
  refine ⟨_, _, ?_, e.holds_new size g, within.trans (.push g _), warnings⟩
  rw [l.fromNative_eq members package next conv own, Context.constructFrom_of_count gone count]
  exact e.construct_eq size g n

theorem converts (zero : null.arity = 0) (succ : f.successor? null = some next)
    (gives : Iterates (.afterLoading package f null next) f h v r) (n : Nat) :
    Converts (.loaded package f null next (n + 3)) f k m h v r := by
  have own := (Family.mem_proper_iff.1 mem).1
  have ran := l.fromNative_eq members package next conv own v (n + 2)
  obtain ⟨g, gone, -⟩ := gives.iterate_eq o n
  have miscounts : ∀ vs, r = some vs → vs.length ≠ k.size → ∃ g,
      Context.fromNative k v (.loaded package f null next (n + 3)) h =
        (.error (.miscount k vs.length), g) := by
    rintro vs rfl ne
    exact ⟨g, by rw [ran, Context.constructFrom_of_miscount gone ne]⟩
  have refuses : r = none → ∃ g,
      Context.fromNative k v (.loaded package f null next (n + 3)) h = (.error .wrongType, g) := by
    rintro rfl
    exact ⟨g, by rw [ran]; exact Exec.bind_error gone⟩
  have makes : ∀ vs, r = some vs → vs.length = k.size → ∃ id g,
      Context.fromNative k v (.loaded package f null next (n + 3)) h = (.ok (.object id), g) ∧
        Holds g id m vs ∧ Shows (.loaded package f null next (n + 3)) f g (.object id) vs ∧
          h.Within g ∧ g.warnings = h.warnings := by
    rintro vs rfl count
    obtain ⟨id, g, made, held, kept⟩ := l.fromNative_makes members o conv mem gives count n
    exact ⟨id, g, made, held, l.shows members zero succ (.proper mem held) (n + 1), kept⟩
  refine ⟨⟨?_, ?_⟩, makes, miscounts, refuses⟩
  · rintro ⟨x, g', made⟩
    cases r with
    | none =>
      obtain ⟨g, failed⟩ := refuses rfl
      cases made.symm.trans failed
    | some vs =>
      refine ⟨vs, rfl, Decidable.byContradiction fun ne => ?_⟩
      obtain ⟨g, failed⟩ := miscounts vs rfl ne
      cases made.symm.trans failed
  · rintro ⟨vs, some, count⟩
    obtain ⟨id, g, made, -⟩ := makes vs some count
    exact ⟨_, g, made⟩

theorem exchanges (zero : null.arity = 0) (succ : f.successor? null = some next) (n : Nat) :
    Exchanges (.afterLoading package f null next) f k m h (n + 2) := by
  have own := (Family.mem_proper_iff.1 mem).1
  have e := l.emitted_afterLoading members package next mem
  have kind := (Native.of?_eq_some_iff l.derived own).2 conv.arity
  have whole (h : Heap) {vs : List Datum} (label : Nat) :
      Iterates (.afterLoading package f null next) f h (.tuple vs label) (some vs) := .native nofun
  have alike (h : Heap) (vs : List Datum) :
      List.Forall₂ (Same (.afterLoading package f null next) h) vs vs :=
    List.forall₂_same.2 fun v _ => .refl v
  refine ⟨fun v r gives => l.converts members o conv mem zero succ gives n, ?_, ?_, ?_, ?_⟩
  · intro v e g failed
    rw [l.fromNative_eq members package next conv own]
    exact Exec.bind_error failed
  · intro vs label count
    obtain ⟨id, g, made, held, -⟩ :=
      l.fromNative_makes members o conv mem (whole h label) count n
    exact ⟨_, g, _, _, made, e.toNative_eq held kind (n + 1), equalTo_tuple (alike _ vs) _ _⟩
  · intro id vs held
    have count : vs.length = k.size := by
      have := held.arity_eq l.derived own
      have := conv.arity
      omega
    obtain ⟨id', g, made, held', within, -⟩ :=
      l.fromNative_makes members o conv mem (whole h.labelled h.labels) count n
    have kept : Holds g id m vs := within.holds (held.of_get? rfl)
    exact ⟨_, _, _, g, e.toNative_eq held kind (n + 1), made,
      o.equalTo_of_values (.proper mem held') (.proper mem kept) (alike g vs)⟩
  · intro id vs held
    have kept : Holds h.labelled id m vs := held.of_get? rfl
    exact ⟨_, _, _, _, (e.invert_eq held kind (n + 2)).trans (e.toNative_eq held kind n),
      e.toNative_eq kept kind (n + 1), equalTo_tuple (alike _ vs) _ _⟩

end Loadable

/-- In the family of every bound that is accepted, native pairs are exchanged for the tuples of two
values, and triples for those of three, if the family has them. -/
theorem native_collections_exchanged {bound : Int} (accepted : Family.build bound = .ok f)
    {k : Native} (within : k.size ≤ bound) (package : String) :
    ∃ p h₀ m, Program.ofFamily package f = .ok (.ok p, h₀) ∧ f.get? k.size = some m ∧
      ∀ h n, Exchanges p f k m h (n + 2) := by
  obtain ⟨count, rfl, pos, le, rfl⟩ := Family.exists_built accepted
  have l := loadable_built pos le
  obtain ⟨null, next, members, zero, succ⟩ := l.exists_null
  have o := l.hosts members package zero succ (className_not_mem_comparisonNames le)
  have conv := convertible_built k count
  have own : Family.builtMember count k.size ∈ (Family.built count).members :=
    Family.mem_built_iff.2 ⟨k.size, by omega, rfl⟩
  have proper : Family.builtMember count k.size ∈ (Family.built count).proper := by
    refine Family.mem_proper_iff.2 ⟨own, ?_⟩
    rw [conv.arity]
    cases k <;> decide
  refine ⟨_, _, _, l.ofFamily_eq members zero succ, ?_, fun h n =>
    l.exchanges members o conv proper zero succ n⟩
  rw [← conv.arity, Family.get?_arity own]

/-- A text of two characters becomes a pair, but a list of three numbers does not, and neither does
nothing. -/
theorem text_becomes_pair : ∃ p h₀ id g,
    Program.ofFamily "shapes" (Family.built 3) = .ok (.ok p, h₀) ∧
    Context.fromNative .pair (.text "ab") (.withDepth p 3) h₀ = (.ok (.object id), g) ∧
    Holds g id (Family.builtMember 3 2) [.text "a", .text "b"] ∧
    (∃ g', Context.fromNative .pair (.list [.int 1, .int 2, .int 3] 1) (.withDepth p 3) h₀ =
      (.error (.tooMany 2), g')) ∧
    ∃ g', Context.fromNative .pair .null (.withDepth p 3) h₀ = (.error .wrongType, g') := by
  have accepted : Family.build 3 = .ok (Family.built 3) :=
    Family.build_natCast (by decide) (by decide)
  obtain ⟨p, h₀, m, loaded, found, exchanges⟩ :=
    native_collections_exchanged accepted (k := .pair) (by decide) "shapes"
  obtain rfl : m = Family.builtMember 3 2 := by
    have own := Family.get?_arity (Family.mem_built_iff.2 ⟨2, by decide, rfl⟩ :
      Family.builtMember 3 2 ∈ (Family.built 3).members)
    exact Option.some.inj (found.symm.trans own)
  have e := exchanges h₀ 0
  have text := e.converts (.text "ab") _ (.native nofun)
  have numbers := e.converts (.list [.int 1, .int 2, .int 3] 1) _ (.native nofun)
  have nothing := e.converts .null _ (.native nofun)
  obtain ⟨id, g, made, held, -⟩ := text.makes [.text "a", .text "b"] rfl rfl
  have refused := numbers.miscounts _ rfl (by decide)
  exact ⟨p, h₀, id, g, loaded, made, held, refused, nothing.refuses rfl⟩

end Polyad.Machine
