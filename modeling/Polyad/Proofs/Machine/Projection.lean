import Polyad.Proofs.Machine.Mappings
import Polyad.Proofs.Machine.Reading

/-!
# Projection to a mapping

A tuple of an even number of values makes a mapping: the values at odd positions are the keys, each
with the value right after it. It fails exactly if one of those keys has no hash. Otherwise the
entries are put one after another, so of the keys that are the same the first one stays, with the
value that comes last.
-/

namespace Polyad.Machine

open Code Generated

/-- The entries of a value that is a mapping. -/
def Datum.entries? : Datum → Option (List (Datum × Datum))
  | .dict entries _ => some entries
  | _ => none

/-- Asks a tuple for its mapping. -/
def Context.toMap (id : Nat) (cx : Context) : Exec (Option (List (Datum × Datum))) := do
  return (← cx.callMethod (.object id) "to_map" []).entries?

variable {p : Program} {f : Family} {m : Member} {runtime : String} {contract concrete : ClassDef}
variable {h : Heap} {id : Nat} {vs : List Datum} {cx : Context} {locals : Locals}

/-- Expressions in pairs have the values in pairs. -/
theorem Context.evalEntries_pairUp {es : List Expr} {us : List Datum}
    (each : cx.Evaluates locals h es us) :
    cx.evalEntries locals (pairUp es) h = (.ok (pairUp us), h) := by
  match each with
  | .nil | .cons _ .nil =>
    show cx.evalEntries locals [] h = (.ok [], h)
    rw [evalEntries]
    rfl
  | .cons first (.cons second rest) =>
    rw [pairUp, evalEntries, Exec.bind_ok first, Exec.bind_ok second,
      Exec.bind_ok (evalEntries_pairUp rest)]
    rfl

theorem Program.Emitted.callMethod_toMap (e : p.Emitted m f runtime contract concrete)
    (held : Holds h id m vs) (has : m.has .mapProjection = true) (n : Nat) :
    (Context.withDepth p (n + 2)).callMethod (.object id) "to_map" [] h =
      (do Exec.dict (← (Context.withDepth p (n + 1)).putEntries (pairUp vs))) h := by
  have found := e.find?_contract (toMapMethod m) (by simp [conversions, has])
  refine (callMethod_ret held _ [] found rfl rfl rfl (n + 1)).trans ?_
  have values : (Context.withDepth p (n + 1)).Evaluates [("self", .object id)] h
      (ofSelf m.labels) vs := e.evaluates_labels held rfl n
  show (Context.withDepth p (n + 1)).eval [("self", .object id)]
    (.dict (pairUp (ofSelf m.labels))) h = _
  rw [Context.eval, Exec.bind_ok (Context.evalEntries_pairUp values)]

/-- What a tuple makes of its values in pairs: it fails exactly if a key has no hash, and otherwise
gives the mapping of the pairs, whatever test tells which of the keys are the same. -/
structure MapsPairs (p : Program) (h : Heap) (id : Nat) (pairs : List (Datum × Datum)) : Prop where
  fails_iff : Yields p h (Context.toMap id) (.error .wrongType) ↔ ∃ e ∈ pairs, Unhashable p h e.1
  gives : (∀ e ∈ pairs, ¬Unhashable p h e.1) → ∀ same : Datum → Datum → Bool,
    (∀ x ∈ pairs.map Prod.fst, ∀ y ∈ pairs.map Prod.fst, same x y = true ↔ Same p h x y) →
    ∃ es, IsMapping same pairs es ∧ Yields p h (Context.toMap id) (.ok (some es))

namespace Program.Hosts

variable (o : p.Hosts f)

include o

theorem yields_toMap (mem : m ∈ f.proper) (has : m.has .mapProjection = true)
    (held : Holds h id m vs) {r : Except Fault (List (Datum × Datum))}
    (put : Yields p h (fun cx => cx.putEntries (pairUp vs)) r) :
    Yields p h (Context.toMap id) (r.map some) := by
  obtain ⟨contract, concrete, e⟩ := o.proper m mem
  obtain ⟨k, put⟩ := put
  refine ⟨k + 2, fun n le g same => ?_⟩
  obtain ⟨n, rfl⟩ : ∃ j, n = j + 2 := ⟨n - 2, by omega⟩
  have there : Holds g id m vs := held.of_get? (by rw [Heap.get?, Heap.get?, same])
  have called := e.callMethod_toMap there has n
  obtain ⟨g', ran, same'⟩ := put (n + 1) (by omega) g same
  cases r with
  | error fault =>
    rw [Exec.bind_error ran] at called
    exact ⟨g', Exec.bind_error called, same'⟩
  | ok es =>
    rw [Exec.bind_ok ran] at called
    exact ⟨g'.labelled, Exec.bind_ok called, same'⟩

theorem mapsPairs (mem : m ∈ f.proper) (has : m.has .mapProjection = true)
    (held : Holds h id m vs) (data : ∀ e ∈ pairUp vs, IsData f h e.1) :
    MapsPairs p h id (pairUp vs) := by
  classical
  rcases o.yields_putEntries data with ⟨fails, error⟩ | ⟨keys, put⟩
  · refine ⟨⟨fun _ => fails, fun _ => o.yields_toMap mem has held error⟩, fun none => ?_⟩
    obtain ⟨e, there, unhashable⟩ := fails
    exact absurd unhashable (none e there)
  · have given (same : Datum → Datum → Bool) (iff : ∀ x ∈ (pairUp vs).map Prod.fst,
        ∀ y ∈ (pairUp vs).map Prod.fst, same x y = true ↔ Same p h x y) :
        ∃ es, IsMapping same (pairUp vs) es ∧ Yields p h (Context.toMap id) (.ok (some es)) := by
      have decides : Decides p f h ((pairUp vs).map Prod.fst) same :=
        ⟨by simpa using fun k v there => (keys (k, v) there).1, iff⟩
      exact ⟨_, o.isMapping decides, o.yields_toMap mem has held (put same decides)⟩
    refine ⟨⟨fun failed => ?_, ?_⟩, fun _ => given⟩
    · obtain ⟨es, -, gives⟩ := given (fun x y => decide (Same p h x y)) (by simp)
      cases failed.unique gives
    · rintro ⟨e, there, unhashable⟩
      exact absurd unhashable (keys e there).2

end Program.Hosts

/-- In every family that can be loaded, the members of even arity that hold values make mappings of
them. Only the keys are of any account: what stands at an even position may be anything. -/
theorem even_tuples_make_mappings (l : Loadable f)
    (own : ∀ m ∈ f.members, m.className ∉ comparisonNames) (package : String) :
    ∃ p h₀, Program.ofFamily package f = .ok (.ok p, h₀) ∧
      ∀ m ∈ f.proper, m.arity % 2 = 0 → ∀ h id vs, Holds h id m vs →
        (∀ e ∈ pairUp vs, IsData f h e.1) → MapsPairs p h id (pairUp vs) := by
  obtain ⟨null, next, members, zero, succ⟩ := l.exists_null
  refine ⟨_, _, l.ofFamily_eq members zero succ, fun m mem even h id vs held data => ?_⟩
  obtain ⟨there, nonzero⟩ := Family.mem_proper_iff.1 mem
  have has : m.has .mapProjection = true := by
    have bounds := Family.arity_bounds there
    rw [Member.has, l.derived.capable m there]
    simp [Family.capabilitiesFor, Capabilities.has, even]
    omega
  exact (l.hosts members package zero succ own).mapsPairs mem has held data

/-! ## Repeated keys -/

/-- Atoms that are equal to themselves are the same exactly if they are equal. -/
theorem same_atom_iff {v w : Datum} (hv : v.IsAtom) (hw : w.IsAtom)
    (proper : Datum.atomEqual v v = true) : Datum.atomEqual v w = true ↔ Same p h v w := by
  rw [Same, equalTo_atom hv hw, Datum.identical_iff]
  exact ⟨.inr, fun same => same.elim (fun eq => eq ▸ proper) id⟩

/-- A heap with two tuples of four and two values, of which the one has a number as a key in two
types, and the other a list as a key. -/
def numberedTwice : Heap where
  instances := [
    ⟨(Family.builtMember 4 4).className,
      (slots (Family.builtMember 4 4)).zip [.int 1, .text "a", .bool true, .list [] 1]⟩,
    ⟨(Family.builtMember 4 2).className, (slots (Family.builtMember 4 2)).zip [.list [] 2, .int 1]⟩]
  labels := 3

/-- The first key stays, with the value under the second one; a list is no key. -/
theorem numberedTwice_mappings : ∃ p h₀,
    Program.ofFamily "shapes" (Family.built 4) = .ok (.ok p, h₀) ∧
      Yields p numberedTwice (Context.toMap 0) (.ok (some [(.int 1, .list [] 1)])) ∧
      Yields p numberedTwice (Context.toMap 1) (.error .wrongType) := by
  obtain ⟨p, h₀, loaded, maps⟩ :=
    even_tuples_make_mappings (f := .built 4) (loadable_built (by decide) (by decide))
      (className_not_mem_comparisonNames (by decide)) "shapes"
  have proper (n : Nat) (pos : n ≠ 0) (le : n ≤ 4) :
      Family.builtMember 4 n ∈ (Family.built 4).proper :=
    Family.mem_proper_iff.2 ⟨Family.mem_built_iff.2 ⟨n, le, rfl⟩, by simpa [Family.builtMember]⟩
  have four := maps _ (proper 4 (by decide) (by decide)) rfl numberedTwice 0
    [.int 1, .text "a", .bool true, .list [] 1] ⟨_, rfl, rfl, rfl⟩
    (by simpa [pairUp] using ⟨.simple rfl, .simple rfl⟩)
  have two := maps _ (proper 2 (by decide) (by decide)) rfl numberedTwice 1 [.list [] 2, .int 1]
    ⟨_, rfl, rfl, rfl⟩ (by simpa [pairUp] using .list [] 2)
  refine ⟨p, h₀, loaded, ?_, two.fails_iff.2 ⟨_, List.mem_cons_self, Leaves.unhashable_list [] 2⟩⟩
  have atoms : ∀ x ∈ [Datum.int 1, .bool true], x.IsAtom ∧ Datum.atomEqual x x = true := by
    simpa using ⟨⟨.int 1, by decide⟩, .bool true, by decide⟩
  obtain ⟨es, made, gives⟩ := four.gives
    (fun e mem => by
      have key : e.1 ∈ [Datum.int 1, .bool true] := List.mem_map_of_mem (f := Prod.fst) mem
      obtain ⟨d, hash⟩ := Context.exists_leafDigest (atoms _ key).1
      exact (hashesTo_atom (atoms _ key).1 hash).not_unhashable)
    Datum.atomEqual fun x hx y hy => same_atom_iff (atoms x hx).1 (atoms y hy).1 (atoms x hx).2
  rw [made.entries] at gives
  exact gives

def notANumber : Datum := .float (Float.ofBits 0x7ff8000000000000) 1

theorem isAtom_notANumber : notANumber.IsAtom := .float _ _

theorem atomEqual_notANumber : Datum.atomEqual notANumber notANumber = false := by decide +kernel

/-- A heap with a tuple of four values, of which what is not a number is a key twice, and the null
tuple. -/
def unequalTwice : Heap where
  instances := [
    ⟨(Family.builtMember 4 4).className,
      (slots (Family.builtMember 4 4)).zip [notANumber, .int 1, notANumber, .int 2]⟩,
    ⟨(Family.builtMember 4 0).className, []⟩]
  labels := 2

def unequalKeys : List Datum := [notANumber, notANumber]

/-- A key that differs from itself is the same nevertheless. So the mapping has one entry, where
equality alone would keep two. The null tuple, whose arity is even, too, makes no mapping at all. -/
theorem unequalTwice_mappings : ∃ p h₀,
    Program.ofFamily "shapes" (Family.built 4) = .ok (.ok p, h₀) ∧
      (∀ same : Datum → Datum → Bool,
        (∀ x ∈ unequalKeys, ∀ y ∈ unequalKeys, same x y = true ↔ EqualTo p unequalTwice x y) →
        ¬∃ es, IsMapping same (unequalKeys.zip [.int 1, .int 2]) es ∧
          Yields p unequalTwice (Context.toMap 0) (.ok (some es))) ∧
      Yields p unequalTwice (Context.toMap 1) (.error .noAttribute) := by
  have l : Loadable (.built 4) := loadable_built (by decide) (by decide)
  have zero : (Family.builtMember 4 0).arity = 0 := rfl
  have succ : (Family.built 4).successor? (Family.builtMember 4 0) =
      some (Family.builtMember 4 1) := by decide +kernel
  have o := l.hosts rfl "shapes" zero succ (className_not_mem_comparisonNames (by decide))
  refine ⟨_, _, l.ofFamily_eq rfl zero succ, ?_, ?_⟩
  · rintro same iff ⟨es, made, gives⟩
    have atom := isAtom_notANumber
    have proper : Family.builtMember 4 4 ∈ (Family.built 4).proper :=
      Family.mem_proper_iff.2 ⟨Family.mem_built_iff.2 ⟨4, by decide, rfl⟩, by decide⟩
    have maps : MapsPairs _ unequalTwice 0 (pairUp [notANumber, .int 1, notANumber, .int 2]) :=
      o.mapsPairs proper rfl ⟨_, rfl, rfl, rfl⟩ (by simpa [pairUp] using .simple rfl)
    have hash := hashesTo_atom (p := Program.afterLoading "shapes" (.built 4)
      (Family.builtMember 4 0) (Family.builtMember 4 1)) (h := unequalTwice) atom rfl
    obtain ⟨es', one, gives'⟩ := maps.gives (by simpa [pairUp] using hash.not_unhashable)
      (fun _ _ => true) (by simpa [pairUp] using .refl _)
    cases gives.unique gives'
    have differs : same notANumber notANumber = false := by
      refine Bool.eq_false_iff.2 fun yes => ?_
      have equal := (iff _ List.mem_cons_self _ List.mem_cons_self).1 yes
      rw [equalTo_atom atom atom, atomEqual_notANumber] at equal
      cases equal
    have two : es.length = 2 := by
      rw [← List.length_map (f := Prod.fst), made.keys]
      simp [unequalKeys, firstKeys, differs]
    rw [one.entries] at two
    cases two
  · refine .of_answer fun n g same => ?_
    have found : g.get? 1 = some ⟨(Family.builtMember 4 0).className, []⟩ := by
      rw [Heap.get?, same]
      rfl
    have absent : (Program.afterLoading "shapes" (.built 4) (Family.builtMember 4 0)
        (Family.builtMember 4 1)).find? (Family.builtMember 4 0).className "to_map" = none :=
      Option.isNone_iff_eq_none.1 (by decide +kernel)
    have unread : (Context.withDepth (Program.afterLoading "shapes" (.built 4)
        (Family.builtMember 4 0) (Family.builtMember 4 1)) (n + 1)).getAttribute (.object 1)
          "to_map" g = (.error .noAttribute, g) := by
      rw [Context.getAttribute, Exec.bind_ok (Context.className_ok found),
        Context.program_withDepth, absent]
      rfl
    exact Exec.bind_error (Exec.bind_error unread)

end Polyad.Machine
