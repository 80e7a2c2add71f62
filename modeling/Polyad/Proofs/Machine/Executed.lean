import Polyad.Machine.Load

/-!
# Executing definitions

What names and classes a program has once the definitions of a module were executed. A class is
found if none of its name was there before, and its name stands for it from then on unless the name
is bound again.
-/

namespace Polyad.Machine.Program

open Code

variable {p : Program} {home name : String}

/-! ## Binding names -/

theorem lookup_bind (p : Program) (n : String) (v : Datum) (name : String) :
    (p.bind n v).lookup name = if name = n then some v else p.lookup name := by
  unfold lookup bind
  rw [List.lookup_cons]
  by_cases eq : name = n
  · rw [if_pos eq, beq_iff_eq.2 eq]
    rfl
  · rw [if_neg eq, beq_false_of_ne eq]

theorem lookup_bind_self (p : Program) (n : String) (v : Datum) :
    (p.bind n v).lookup n = some v := by
  rw [lookup_bind, if_pos rfl]

theorem lookup_bind_of_ne {n : String} (ne : name ≠ n) (v : Datum) :
    (p.bind n v).lookup name = p.lookup name := by
  rw [lookup_bind, if_neg ne]

theorem class?_bind (p : Program) (n : String) (v : Datum) (name : String) :
    (p.bind n v).class? name = p.class? name := rfl

/-! ## Classes -/

theorem class?_addClass (p : Program) (c : ClassDef) (name : String) :
    (p.addClass home c).class? name =
      (p.class? name).or (if c.name = name then some c else none) := by
  unfold class? addClass bind
  rw [List.find?_append]
  by_cases eq : c.name = name
  · rw [if_pos eq, List.find?_cons_of_pos (by simpa using eq)]
  · rw [if_neg eq, List.find?_cons_of_neg (by simpa using eq)]
    rfl

theorem lookup_addClass (p : Program) (c : ClassDef) (name : String) :
    (p.addClass home c).lookup name =
      if name = c.name then some (.type c.name) else p.lookup name := by
  rw [addClass, lookup_bind]
  rfl

theorem class?_foldl_addClass (cs : List ClassDef) (p : Program) (name : String) :
    (cs.foldl (addClass home) p).class? name = (p.class? name).or (cs.find? (·.name == name)) := by
  induction cs generalizing p with
  | nil => simp
  | cons c cs ih =>
    rw [List.foldl_cons, ih, class?_addClass]
    by_cases eq : c.name = name
    · rw [if_pos eq, List.find?_cons_of_pos (by simpa using eq)]
      cases p.class? name <;> rfl
    · rw [if_neg eq, List.find?_cons_of_neg (by simpa using eq), Option.or_none]

theorem lookup_foldl_addClass (cs : List ClassDef) (p : Program) (name : String) :
    (cs.foldl (addClass home) p).lookup name =
      if name ∈ cs.map ClassDef.name then some (.type name) else p.lookup name := by
  induction cs generalizing p with
  | nil => rfl
  | cons c cs ih =>
    rw [List.foldl_cons, ih, lookup_addClass, List.map_cons]
    by_cases later : name ∈ cs.map ClassDef.name
    · rw [if_pos later, if_pos (List.mem_cons_of_mem _ later)]
    · by_cases eq : name = c.name
      · rw [if_neg later, if_pos eq, if_pos (by simp [eq]), eq]
      · rw [if_neg later, if_neg eq, if_neg (by simpa [eq] using later)]

/-! ## Functions -/

/-- The program with functions that their names stand for. -/
def bindFunctions (p : Program) (fs : List Function) : Program :=
  fs.foldl (fun q fn => q.bind fn.name (.routine (.written fn))) p

theorem class?_bindFunctions (p : Program) (fs : List Function) (name : String) :
    (p.bindFunctions fs).class? name = p.class? name := by
  unfold bindFunctions
  induction fs generalizing p with
  | nil => rfl
  | cons fn fs ih => rw [List.foldl_cons, ih, class?_bind]

theorem lookup_bindFunctions {fs : List Function} (absent : name ∉ fs.map Function.name)
    (p : Program) : (p.bindFunctions fs).lookup name = p.lookup name := by
  unfold bindFunctions
  induction fs generalizing p with
  | nil => rfl
  | cons fn fs ih =>
    rw [List.map_cons, List.mem_cons, not_or] at absent
    rw [List.foldl_cons, ih absent.2, lookup_bind_of_ne absent.1]

/-- A function is what its name stands for, if it is the only one of that name. -/
theorem lookup_bindFunctions_of_mem {fs : List Function} {fn : Function} (mem : fn ∈ fs)
    (only : ∀ other ∈ fs, other.name = fn.name → other = fn) (p : Program) :
    (p.bindFunctions fs).lookup fn.name = some (.routine (.written fn)) := by
  induction fs generalizing p with
  | nil => cases mem
  | cons first fs ih =>
    show ((p.bind first.name (.routine (.written first))).bindFunctions fs).lookup fn.name = _
    obtain ⟨own, rest⟩ := List.forall_mem_cons.1 only
    by_cases later : fn ∈ fs
    · exact ih later rest _
    · obtain rfl : fn = first := (List.mem_cons.1 mem).resolve_right later
      have absent : fn.name ∉ fs.map Function.name := fun named => by
        obtain ⟨other, there, same⟩ := List.mem_map.1 named
        exact later (rest other there same ▸ there)
      rw [lookup_bindFunctions absent, lookup_bind_self]

/-! ## Definitions in order -/

theorem executeAll_append (home : String) (p : Program) (ds es : List Definition) :
    executeAll home p (ds ++ es) = (do executeAll home (← executeAll home p ds) es) := by
  induction ds generalizing p with
  | nil => simp [executeAll]
  | cons d ds ih => simp [executeAll, ih]

theorem executeAll_classes (home : String) (p : Program) (cs : List ClassDef) :
    executeAll home p (cs.map .classDef) = pure (cs.foldl (addClass home) p) := by
  induction cs generalizing p with
  | nil => rfl
  | cons c cs ih => rw [List.map_cons, executeAll, execute, pure_bind, ih, List.foldl_cons]

theorem executeAll_functions (home : String) (p : Program) (fs : List Function) :
    executeAll home p (fs.map .function) = pure (p.bindFunctions fs) := by
  unfold bindFunctions
  induction fs generalizing p with
  | nil => rfl
  | cons fn fs ih => rw [List.map_cons, executeAll, execute, pure_bind, ih, List.foldl_cons]

/-- An assignment binds its name to what its value is. -/
theorem executeAll_assignment {a : Assignment} {v : Datum} {h h' : Heap}
    (step : (Context.withDepth p loadDepth).eval [] a.value h = (.ok v, h'))
    (ds : List Definition) :
    executeAll home p (.assignment a :: ds) h = executeAll home (p.bind a.target v) ds h' := by
  have bound : execute home p (.assignment a) h = (.ok (p.bind a.target v), h') := by
    rw [execute, Exec.bind_ok step]
    rfl
  rw [executeAll, Exec.bind_ok bound]

end Polyad.Machine.Program
