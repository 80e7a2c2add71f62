import Polyad.Proofs.Machine.Factory

/-!
# Chains of extensions

Values appended to a tuple one after the other, each with the method or with the operator. Whatever
the mixture, each step makes the tuple of one more value, so a chain ends with the tuple that the
factory makes of all values at once. A step warns if it leaves the family or goes on outside of it.
-/

namespace Polyad.Machine

open Code Generated

/-- The ways to append a value. -/
inductive Appending where
  | method
  | operator
  deriving DecidableEq, Repr

/-- Appends a value to a tuple. -/
def Appending.run (cx : Context) (how : Appending) (x that : Datum) : Exec Datum :=
  match how with
  | method => cx.callMethod x "to" [that]
  | operator => cx.add x that

/-- Appends values one after the other, and gives the tuples made on the way. -/
def chain (cx : Context) (x : Datum) : List (Appending × Datum) → Exec (List Datum)
  | [] => return []
  | (how, that) :: rest => do
    let y ← how.run cx x that
    return y :: (← chain cx y rest)

/-- What the extension of a tuple of a number of values warns of: within the family of nothing. -/
def extensionWarnings (f : Family) (count : Nat) : List Warning :=
  if f.maxArity ≤ count then
    match f.get? count with
    | some m => [⟨Support.overflowClass, overflowNotice m⟩]
    | none => [⟨Support.overflowClass, Support.overflowMessage⟩]
  else []

/-- The warnings of a chain from a number of values on. -/
def chainWarnings (f : Family) (count steps : Nat) : List Warning :=
  (List.range' count steps).flatMap (extensionWarnings f)

variable {f : Family} {null next : Member} {h : Heap} {x : Datum} {vs : List Datum}

theorem category_extensionWarnings {count : Nat} {w : Warning}
    (mem : w ∈ extensionWarnings f count) : w.category = Support.overflowClass := by
  unfold extensionWarnings at mem
  split at mem
  · split at mem <;> rw [List.mem_singleton.1 mem]
  · cases mem

theorem length_extensionWarnings (f : Family) (count : Nat) :
    (extensionWarnings f count).length = if f.maxArity < count + 1 then 1 else 0 := by
  unfold extensionWarnings
  by_cases le : f.maxArity ≤ count
  · rw [if_pos le, if_pos (by omega)]
    split <;> rfl
  · rw [if_neg le, if_neg (by omega)]
    rfl

theorem chainWarnings_succ (f : Family) (count steps : Nat) :
    chainWarnings f count (steps + 1) =
      extensionWarnings f count ++ chainWarnings f (count + 1) steps := by
  rw [chainWarnings, List.range'_succ, List.flatMap_cons]
  rfl

theorem category_chainWarnings {count steps : Nat} {w : Warning}
    (mem : w ∈ chainWarnings f count steps) : w.category = Support.overflowClass := by
  obtain ⟨size, -, mem⟩ := List.mem_flatMap.1 mem
  exact category_extensionWarnings mem

/-- There are as many warnings as steps that lead beyond the bound. -/
theorem length_chainWarnings (f : Family) (count steps : Nat) :
    (chainWarnings f count steps).length =
      (List.range' (count + 1) steps).countP fun (size : Nat) => f.maxArity < size := by
  induction steps generalizing count with
  | zero => rfl
  | succ steps ih =>
    rw [chainWarnings_succ, List.length_append, ih, length_extensionWarnings, List.range'_succ,
      List.countP_cons, Nat.add_comm]
    simp only [decide_eq_true_eq, Int.natCast_add, Int.natCast_one]

/-- A chain makes the tuple of one more value at each step. What it has made by then is what the
steps up to there make alone, and stays as it is. -/
structure ChainMakes (cx : Context) (f : Family) (x : Datum) (steps : List (Appending × Datum))
    (h : Heap) (vs : List Datum) (made : List Datum) (h' : Heap) : Prop where
  ran : chain cx x steps h = (.ok made, h')
  length : made.length = steps.length
  kept : h.Within h'
  warned : h'.warnings = h.warnings ++ chainWarnings f vs.length steps.length
  stages : ∀ k ≤ steps.length, ∃ y g, (x :: made)[k]? = some y ∧
    chain cx x (steps.take k) h = (.ok (made.take k), g) ∧
    Represents f g y (vs ++ (steps.take k).map Prod.snd) ∧ g.Within h'

/-! ## Steps -/

namespace Loadable

variable (l : Loadable f) (members : f.members = null :: f.proper) (zero : null.arity = 0)
variable (succ : f.successor? null = some next) (package : String)

include l members zero succ

/-- Extending the null tuple makes the tuple of one value. -/
theorem callMethod_null_makes {id : Nat} (held : Holds h id null []) (that : Datum) (n : Nat) :
    ∃ y h', Makes f
      ((Context.loaded package f null next (n + 3)).callMethod (.object id) "to" [that]) h [that] []
      y h' := by
  have e := l.emittedNull_afterLoading members package zero succ
  have mem := Family.mem_proper_of_successor? (null_mem members) succ
  have own := (Family.mem_proper_iff.1 mem).1
  have size : next.arity = ([that] : List Datum).length := by
    rw [Family.arity_of_successor? succ, zero]
    rfl
  obtain ⟨y, h', made⟩ := l.construct_makes members package next mem size h n
  have means := l.means_className members package next own (.object id) that
  exact ⟨y, h', { made with ran := (e.callMethod_extension held means (n + 2)).trans made.ran }⟩

omit zero succ in
/-- Extending an instance of a class makes the tuple of one more value. -/
theorem callMethod_proper_makes (next : Member) {m : Member} (mem : m ∈ f.proper) {id : Nat}
    (held : Holds h id m vs) (that : Datum) (n : Nat) :
    ∃ y h', Makes f
      ((Context.loaded package f null next (n + 3)).callMethod (.object id) "to" [that]) h
      (vs ++ [that]) (extensionWarnings f vs.length) y h' := by
  have e := l.emitted_afterLoading members package next mem
  have own := (Family.mem_proper_iff.1 mem).1
  have arity := held.arity_eq l.derived own
  have has := l.derived.has_chainExtension own
  have size : (vs ++ [that]).length = vs.length + 1 := by simp
  by_cases below : m.arity < f.maxArity
  · -- The class extends to the next one, which is in the family.
    obtain ⟨above, there, succ, following⟩ := Family.exists_successor? own below
    rw [decide_eq_true below] at has
    have mem' := Family.mem_proper_of_successor? own succ
    have arity' : above.arity = (vs ++ [that]).length := by omega
    obtain ⟨y, h', made⟩ := l.construct_makes members package next mem' arity' h n
    have means := l.means_className members package next there (.object id) that
    have quiet : extensionWarnings f vs.length = [] := if_neg (by omega)
    rw [quiet]
    exact ⟨y, h', { made with
      ran := (e.callMethod_extension held has succ means (n + 2)).trans made.ran }⟩
  · -- The class is the last one, so its extension is that of the contract.
    have bounds := Family.arity_bounds own
    have last : f.successor? m = none := Family.successor?_eq_none (by omega)
    rw [decide_eq_false below] at has
    have beyond : f.maxArity < (vs ++ [that]).length := by omega
    obtain ⟨y, h', made⟩ := l.construct_open_makes members package next beyond
      (h.warned Support.overflowClass (overflowNotice m)) (n + 1)
    have warning : extensionWarnings f vs.length = [⟨Support.overflowClass, overflowNotice m⟩] := by
      rw [extensionWarnings, if_pos (by omega), ← arity, Family.get?_arity own]
    refine ⟨y, h', ?_⟩
    rw [warning]
    exact made.after (e.callMethod_overflow held has last that (n + 1)) (.of_eq rfl) rfl

omit zero succ in
/-- Extending an open-ended tuple makes another one. -/
theorem callMethod_open_makes (next : Member) (beyond : f.maxArity < vs.length) {id : Nat}
    (held : HoldsOpen h id vs) (that : Datum) (n : Nat) :
    ∃ y h', Makes f
      ((Context.loaded package f null next (n + 3)).callMethod (.object id) "to" [that]) h
      (vs ++ [that]) (extensionWarnings f vs.length) y h' := by
  have u := l.undisturbed_afterLoading members package next
  have size : (vs ++ [that]).length = vs.length + 1 := by simp
  have warning : extensionWarnings f vs.length =
      [⟨Support.overflowClass, Support.overflowMessage⟩] := by
    rw [extensionWarnings, if_pos (by omega), Family.get?_eq_none_of_lt beyond]
  rw [warning]
  exact ⟨_, _, u.callMethod_open held that (n + 1), .openEnded (by omega) (holdsOpen_new _ _),
    .withOpen _ _, rfl⟩

/-- Extending a tuple makes the tuple of one more value. -/
theorem callMethod_makes (r : Represents f h x vs) (that : Datum) (n : Nat) :
    ∃ y h', Makes f ((Context.loaded package f null next (n + 3)).callMethod x "to" [that]) h
      (vs ++ [that]) (extensionWarnings f vs.length) y h' := by
  cases r with
  | null mem empty held =>
    cases eq_null members mem empty
    have quiet : extensionWarnings f ([] : List Datum).length = [] := by
      have := l.pos
      exact if_neg (by rw [List.length_nil]; omega)
    rw [quiet]
    exact l.callMethod_null_makes members zero succ package held that n
  | proper mem held => exact l.callMethod_proper_makes members package next mem held that n
  | openEnded beyond held => exact l.callMethod_open_makes members package next beyond held that n

/-- The operator asks for the method one call further in. -/
theorem add_eq_callMethod (r : Represents f h x vs) (that : Datum) (n : Nat) :
    (Context.loaded package f null next (n + 1)).add x that h =
      (Context.loaded package f null next n).callMethod x "to" [that] h := by
  cases r with
  | null mem empty held =>
    cases eq_null members mem empty
    have e := l.emittedNull_afterLoading members package zero succ
    exact Program.Emitted.add_plus held (e.find?_contract _ List.mem_cons_self) that n
  | @proper m _ _ mem held =>
    have e := l.emitted_afterLoading members package next mem
    have found := e.find?_contract (plusOperator (contractExtension m f Support.home)) (by simp)
    exact Program.Emitted.add_plus held found that n
  | openEnded beyond held =>
    exact (l.undisturbed_afterLoading members package next).add_open held that n

/-- Either way of appending makes the tuple of one more value. -/
theorem append_makes (r : Represents f h x vs) (how : Appending) (that : Datum) (n : Nat) :
    ∃ y h', Makes f (how.run (Context.loaded package f null next (n + 4)) x that) h
      (vs ++ [that]) (extensionWarnings f vs.length) y h' := by
  cases how with
  | method => exact l.callMethod_makes members zero succ package r that (n + 1)
  | operator =>
    obtain ⟨y, h', made⟩ := l.callMethod_makes members zero succ package r that n
    refine ⟨y, h', { made with ran := ?_ }⟩
    exact (l.add_eq_callMethod members zero succ package r that (n + 3)).trans made.ran

/-- Each step of a chain makes the tuple of one more value. The induction is on the steps that are
left, for any tuple that they start from. -/
theorem chain_makes (r : Represents f h x vs) (steps : List (Appending × Datum)) (n : Nat) :
    ∃ made h', ChainMakes (Context.loaded package f null next (n + 4)) f x steps h vs made h' := by
  induction steps generalizing x h vs with
  | nil =>
    refine ⟨[], h, rfl, rfl, .refl h, (List.append_nil _).symm, fun k le => ?_⟩
    cases Nat.le_zero.1 le
    exact ⟨x, h, rfl, rfl, by rwa [List.take_nil, List.map_nil, List.append_nil], .refl h⟩
  | cons step steps ih =>
    obtain ⟨how, that⟩ := step
    obtain ⟨y, g, first⟩ := l.append_makes members zero succ package r how that n
    obtain ⟨made, h', rest⟩ := ih first.represents
    have size : (vs ++ [that]).length = vs.length + 1 := by simp
    refine ⟨y :: made, h', ?_, ?_, first.kept.trans rest.kept, ?_, fun k le => ?_⟩
    · rw [chain, Exec.bind_ok first.ran, Exec.bind_ok rest.ran]
      rfl
    · rw [List.length_cons, List.length_cons, rest.length]
    · rw [rest.warned, first.warned, size, List.length_cons, chainWarnings_succ, List.append_assoc]
    · cases k with
      | zero =>
        exact ⟨x, h, rfl, rfl, by rwa [List.take_zero, List.map_nil, List.append_nil],
          first.kept.trans rest.kept⟩
      | succ k =>
        obtain ⟨z, k', found, ran, represents, kept⟩ := rest.stages k (Nat.le_of_succ_le_succ le)
        refine ⟨z, k', found, ?_, ?_, kept⟩
        · rw [List.take_succ_cons, chain, Exec.bind_ok first.ran, Exec.bind_ok ran]
          rfl
        · rwa [List.append_assoc] at represents

omit members zero succ in
/-- Only open-ended tuples have more values than there are classes for. -/
theorem tupleClass_eq_openClass_iff {count : Nat} :
    tupleClass f count = Support.openClass ↔ f.maxArity < count := by
  refine ⟨fun eq => Decidable.byContradiction fun within => ?_, tupleClass_of_lt⟩
  obtain ⟨m, mem, -, arity⟩ := Family.exists_get? (f := f) (a := count) (by omega) (by omega)
  rw [tupleClass_eq mem arity] at eq
  have named : m.className ∈ classNames f :=
    List.mem_append_right _ (List.mem_map_of_mem (f := Member.className) mem)
  rw [eq] at named
  exact l.free _ named (by decide)

end Loadable

/-! ## Agreement with the factory -/

/-- A chain from the tuple of some values on agrees with the factory: after each step there is the
tuple of the values so far, which shows the same at the end, and the tuple that the factory makes of
all values shows what the last one does. -/
structure AgreesWithFactory (cx : Context) (f : Family) (ys : List Datum)
    (steps : List (Appending × Datum)) (h : Heap) (first : Datum) (g : Heap) (made : List Datum)
    (g' : Heap) (whole : Datum) (h' : Heap) : Prop where
  starts : cx.callNamed "tuple_of" ys h = (.ok first, g)
  chains : chain cx first steps g = (.ok made, g')
  builds : cx.callNamed "tuple_of" (ys ++ steps.map Prod.snd) g' = (.ok whole, h')
  length : made.length = steps.length
  whole : Shows cx f h' whole (ys ++ steps.map Prod.snd)
  stages : ∀ k ≤ steps.length, ∃ y gk, (first :: made)[k]? = some y ∧
    chain cx first (steps.take k) g = (.ok (made.take k), gk) ∧
    Shows cx f gk y (ys ++ (steps.take k).map Prod.snd) ∧
    Shows cx f h' y (ys ++ (steps.take k).map Prod.snd)
  /-- There is no way back from an open-ended tuple. -/
  stays : ∀ (i j : Nat) (y z : Datum), i ≤ j → (first :: made)[i]? = some y →
    (first :: made)[j]? = some z →
    cx.typeName y h' = (.ok Support.openClass, h') →
    cx.typeName z h' = (.ok Support.openClass, h')
  quiet : g.warnings = h.warnings ∧ h'.warnings = g'.warnings
  warned : ∃ ws, g'.warnings = g.warnings ++ ws ∧
    (∀ w ∈ ws, w.category = Support.overflowClass) ∧
    ws.length = (List.range' (ys.length + 1) steps.length).countP fun (size : Nat) =>
      f.maxArity < size
  kept : h.Within g ∧ g.Within g' ∧ g'.Within h'

theorem Loadable.agreesWithFactory (l : Loadable f) (members : f.members = null :: f.proper)
    (zero : null.arity = 0) (succ : f.successor? null = some next) (package : String)
    (started : Holds h 0 null []) (ys : List Datum) (steps : List (Appending × Datum)) (n : Nat) :
    ∃ first g made g' whole h',
      AgreesWithFactory (Context.loaded package f null next (n + 4)) f ys steps h first g made g'
        whole h' := by
  obtain ⟨first, g, start⟩ := l.callNamed_factory members package next zero started ys (n + 1)
  obtain ⟨made, g', run⟩ := l.chain_makes members zero succ package start.represents steps n
  obtain ⟨whole, h', built⟩ := l.callNamed_factory members package next zero
    (run.kept.holds (start.kept.holds started)) (ys ++ steps.map Prod.snd) (n + 1)
  have shows {k : Heap} {x : Datum} {vs : List Datum} (r : Represents f k x vs) :
      Shows (Context.loaded package f null next (n + 4)) f k x vs :=
    l.shows members zero succ r (n + 2)
  have stages : ∀ k ≤ steps.length, ∃ y gk, (first :: made)[k]? = some y ∧
      chain (Context.loaded package f null next (n + 4)) first (steps.take k) g =
        (.ok (made.take k), gk) ∧
      Represents f gk y (ys ++ (steps.take k).map Prod.snd) ∧
      Represents f h' y (ys ++ (steps.take k).map Prod.snd) := by
    intro k le
    obtain ⟨y, gk, found, ran, represents, kept⟩ := run.stages k le
    exact ⟨y, gk, found, ran, represents, represents.mono (kept.trans built.kept)⟩
  have kindOf {k : Nat} {y : Datum} (found : (first :: made)[k]? = some y) :
      (Context.loaded package f null next (n + 4)).typeName y h' =
        (.ok (tupleClass f (ys.length + k)), h') := by
    have lt := (List.getElem?_eq_some_iff.1 found).1
    rw [List.length_cons, run.length] at lt
    obtain ⟨z, gk, same, -, -, represents⟩ := stages k (by omega)
    cases found.symm.trans same
    have size : (ys ++ (steps.take k).map Prod.snd).length = ys.length + k := by
      rw [List.length_append, List.length_map, List.length_take_of_le (by omega)]
    rw [(shows represents).kind, size]
  refine ⟨first, g, made, g', whole, h', start.ran, run.ran, built.ran, run.length,
    shows built.represents, fun k le => ?_, fun i j y z le hy hz typed => ?_, ⟨?_, ?_⟩,
    ⟨_, run.warned, fun w mem => category_chainWarnings mem, length_chainWarnings ..⟩,
    start.kept, run.kept, built.kept⟩
  · obtain ⟨y, gk, found, ran, early, late⟩ := stages k le
    exact ⟨y, gk, found, ran, shows early, shows late⟩
  · have class_eq : tupleClass f (ys.length + i) = Support.openClass := by
      rw [kindOf hy] at typed
      injection typed with eq
      injection eq
    have beyond := l.tupleClass_eq_openClass_iff.1 class_eq
    rw [kindOf hz, l.tupleClass_eq_openClass_iff.2 (by omega)]
  · rw [start.warned, List.append_nil]
  · rw [built.warned, List.append_nil]

/-- In the family of every bound that is accepted, chains agree with the factory: from any heap that
loading the family led to, for all values to start from and to append, and for any mixture of the
ways to append them. -/
theorem chain_agrees_with_factory {bound : Int} (accepted : Family.build bound = .ok f)
    (package : String) :
    f.maxArity = bound ∧ ∃ p h₀, Program.ofFamily package f = .ok (.ok p, h₀) ∧
      ∀ h, h₀.Within h → ∀ (ys : List Datum) (steps : List (Appending × Datum)) (n : Nat),
        ∃ first g made g' whole h',
          AgreesWithFactory (Context.withDepth p (n + 4)) f ys steps h first g made g' whole h' := by
  obtain ⟨count, rfl, pos, le, rfl⟩ := Family.exists_built accepted
  have l := loadable_built pos le
  obtain ⟨null, next, members, zero, succ⟩ := l.exists_null
  refine ⟨rfl, _, _, l.ofFamily_eq members zero succ, fun h within ys steps n => ?_⟩
  have e := l.emittedNull_afterLoading members package zero succ
  have started : Holds h 0 null [] := within.holds (e.holds rfl)
  exact l.agreesWithFactory members zero succ package started ys steps n

/-- A chain through and out of the family of three values. -/
theorem chain_of_five : ∃ p h₀ first g made g' whole h',
    Family.build 3 = .ok (Family.built 3) ∧
    Program.ofFamily "shapes" (Family.built 3) = .ok (.ok p, h₀) ∧
    AgreesWithFactory (Context.withDepth p 4) (Family.built 3) []
      [(.method, .int 1), (.operator, .text "b"), (.operator, .null), (.method, .int 4),
        (.operator, .int 5)] h₀ first g made g' whole h' := by
  have accepted : Family.build 3 = .ok (Family.built 3) :=
    Family.build_natCast (by decide) (by decide)
  obtain ⟨-, p, h₀, loaded, agrees⟩ := chain_agrees_with_factory accepted "shapes"
  obtain ⟨first, g, made, g', whole, h', agreement⟩ := agrees h₀ (.refl h₀) []
    [(.method, .int 1), (.operator, .text "b"), (.operator, .null), (.method, .int 4),
      (.operator, .int 5)] 0
  exact ⟨p, h₀, first, g, made, g', whole, h', accepted, loaded, agreement⟩

end Polyad.Machine
