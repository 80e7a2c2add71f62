import Polyad.Proofs.Code.ImportBlock

/-!
# Scope

Which names the text of a file needs, and when. Base classes, decorators, defaults and the values of
assignments are evaluated when the file is imported, in order; the body of a function only when it
is called, and there its parameters and the targets of its assignments are local. Annotations are
not evaluated at all if the file asks for that. A file is *well scoped* if each such name is bound
by then.
-/

namespace Polyad.Code

/-! ## Names of a text -/

namespace TypeTerm

mutual

/-- The names that stand in a type. -/
def mentions : TypeTerm → List String
  | name s => [s]
  | applied head args => head :: mentionsAll args
  | callable params result => "Callable" :: mentionsAll params ++ result.mentions

def mentionsAll : List TypeTerm → List String
  | [] => []
  | t :: ts => t.mentions ++ mentionsAll ts

end

theorem mentionsAll_names (ss : List String) : mentionsAll (names ss) = ss := by
  induction ss with
  | nil => rfl
  | cons s ss ih =>
    rw [names, List.map_cons, mentionsAll, mentions, ← names, ih]
    rfl

theorem mentions_generic_names (head : String) (ss : List String) :
    (generic head (names ss)).mentions = head :: ss := by
  cases ss with
  | nil => rfl
  | cons s ss =>
    have applied : generic head (names (s :: ss)) = .applied head (names (s :: ss)) := rfl
    rw [applied, mentions, mentionsAll_names]

end TypeTerm

namespace Expr

mutual

/-- The names that stand in an expression. -/
def mentions : Expr → List String
  | name s => [s]
  | int _ => []
  | literal _ => []
  | attr e _ => e.mentions
  | call f args => f.mentions ++ mentionsAll args
  | spread e => e.mentions
  | keyword _ e => e.mentions
  | tuple items => mentionsAll items
  | list items => mentionsAll items
  | dict entries => mentionsEntries entries
  | index e i => e.mentions ++ i.mentions
  | identical a b => a.mentions ++ b.mentions
  | equal a b => a.mentions ++ b.mentions
  | more a b => a.mentions ++ b.mentions
  | minus a b => a.mentions ++ b.mentions
  | negate e => e.mentions
  | template parts => mentionsAll parts
  | shown e => e.mentions

def mentionsAll : List Expr → List String
  | [] => []
  | e :: es => e.mentions ++ mentionsAll es

def mentionsEntries : List (Expr × Expr) → List String
  | [] => []
  | (k, v) :: rest => k.mentions ++ v.mentions ++ mentionsEntries rest

end

theorem mentionsAll_eq (es : List Expr) : mentionsAll es = es.flatMap mentions := by
  induction es with
  | nil => rfl
  | cons e es ih => rw [mentionsAll, ih, List.flatMap_cons]

theorem mentionsAll_append (es fs : List Expr) :
    mentionsAll (es ++ fs) = mentionsAll es ++ mentionsAll fs := by
  rw [mentionsAll_eq, mentionsAll_eq, mentionsAll_eq, List.flatMap_append]

theorem mentionsAll_names (ss : List String) : mentionsAll (ss.map name) = ss := by
  induction ss with
  | nil => rfl
  | cons s ss ih =>
    rw [List.map_cons, mentionsAll, mentions, ih]
    rfl

theorem mentionsAll_literals (ss : List String) : mentionsAll (ss.map literal) = [] := by
  induction ss with
  | nil => rfl
  | cons s ss ih =>
    rw [List.map_cons, mentionsAll, mentions, ih]
    rfl

/-- Attributes of a value only mention the value. -/
theorem eq_of_mem_mentionsAll_attrs {owner s : String} {fields : List String}
    (mem : s ∈ mentionsAll (attrs owner fields)) : s = owner := by
  induction fields with
  | nil => cases mem
  | cons field fields ih =>
    rcases List.mem_append.1 mem with first | rest
    · exact List.mem_singleton.1 first
    · exact ih rest

end Expr

namespace Stmt

/-- The names that stand in a statement. Nothing is known about a line that is kept as it is, so it
counts as one name. -/
def mentions : Stmt → List String
  | expr e => e.mentions
  | ret e => e.mentions
  | fail e => e.mentions
  | unpack _ e => e.mentions
  | when c s => c.mentions ++ s.mentions
  | callByLine f args => f.mentions ++ Expr.mentionsAll args
  | raw line => [line]

/-- The names that a statement binds. -/
def targets : Stmt → List String
  | unpack targets _ => targets
  | when _ s => s.targets
  | _ => []

end Stmt

namespace Function

/-- The names that are local to the body of a function. -/
def locals (f : Function) : List String :=
  f.parameters.map Parameter.name ++ f.body.flatMap Stmt.targets

/-- The other names that stand there. -/
def free (f : Function) : List String :=
  (f.body.flatMap Stmt.mentions).filter (· ∉ f.locals)

/-- What is evaluated when a function is defined. -/
def evaluated (f : Function) : List String :=
  f.decorators ++ f.parameters.filterMap Parameter.default

end Function

/-- What is evaluated when a class is defined, for one thing in it. -/
def ClassItem.evaluated : ClassItem → List String
  | function f => f.evaluated
  | assignment a => a.value.mentions

namespace Definition

/-- What is evaluated when a file is imported, for one definition in it. -/
def evaluated : Definition → List String
  | classDef c => c.bases.flatMap TypeTerm.mentions ++ c.items.flatMap ClassItem.evaluated
  | function f => f.evaluated
  | assignment a => a.value.mentions

/-- A function, or the functions of a class. -/
def Defines : Definition → Function → Prop
  | classDef c, fn => .function fn ∈ c.items
  | function f, fn => fn = f
  | assignment _, _ => False

end Definition

/-- The names that files use without importing them. -/
def builtinNames : List String := [
  "True", "None", "NotImplemented", "NotImplementedError", "bool", "hash", "isinstance", "iter",
  "len", "object", "property", "type"]

/-- A file whose import block binds some names is well scoped. -/
structure WellScoped (f : File) (imported : List String) : Prop where
  /-- No annotation is evaluated. -/
  deferred : ⟨"__future__", some "annotations"⟩ ∈ f.collectImports
  /-- What a definition evaluates is bound before. -/
  evaluated : ∀ before d after, f.body = before ++ d :: after → ∀ name ∈ d.evaluated,
    name ∈ builtinNames ∨ name ∈ imported ∨ name ∈ before.map Definition.name
  /-- What a function uses is bound in the file. -/
  used : ∀ d ∈ f.body, ∀ fn, d.Defines fn → ∀ name ∈ fn.free,
    name ∈ builtinNames ∨ name ∈ imported ∨ name ∈ f.body.map Definition.name

/-! ## Definitions in order -/

/-- A name that some imports or the builtins bind, or that is known. -/
def Bound (imports : List Import) (known : List String) (name : String) : Prop :=
  name ∈ builtinNames ∨ (∃ i ∈ imports, name ∈ i.bound) ∨ name ∈ known

variable {imports more allowed : List Import} {known early late : List String} {name : String}

theorem Bound.mono (h : Bound imports known name) (imported : imports ⊆ more)
    (subset : known ⊆ late) : Bound more late name := by
  rcases h with builtin | ⟨i, mem, bound⟩ | own
  · exact .inl builtin
  · exact .inr (.inl ⟨i, imported mem, bound⟩)
  · exact .inr (.inr (subset own))

/-- A function that needs nothing but builtins and what it asks to import, and in its body some
known names. It only asks for imports that are allowed. -/
structure Function.Scoped (allowed : List Import) (known : List String) (fn : Function) : Prop where
  evaluated : ∀ name ∈ fn.evaluated, Bound fn.imports [] name
  free : ∀ name ∈ fn.free, Bound fn.imports known name
  asks : fn.imports ⊆ allowed

theorem Function.mem_free {fn : Function} :
    name ∈ fn.free ↔ name ∈ fn.body.flatMap Stmt.mentions ∧ name ∉ fn.locals := by
  rw [free, List.mem_filter, decide_eq_true_eq]

/-- A definition that needs the early names when it is evaluated and the late ones when its
functions are called. -/
structure Definition.Scoped (allowed : List Import) (early late : List String) (d : Definition) :
    Prop where
  evaluated : ∀ name ∈ d.evaluated, Bound d.allImports early name
  used : ∀ fn, d.Defines fn → ∀ name ∈ fn.free, Bound d.allImports late name
  asks : d.allImports ⊆ allowed

namespace Definition

theorem scoped_function {fn : Function} (h : fn.Scoped allowed late) :
    (function fn).Scoped allowed early late where
  evaluated name mem := (h.evaluated name mem).mono (List.Subset.refl _) (List.nil_subset _)
  used fn' same name mem := by
    cases same
    exact h.free name mem
  asks := h.asks

theorem scoped_assignment {a : Assignment} (asks : a.imports ⊆ allowed)
    (h : ∀ name ∈ a.value.mentions, Bound a.imports early name) :
    (assignment a).Scoped allowed early late where
  evaluated := h
  used _ none := none.elim
  asks := asks

/-- A class whose slots are constant is as scoped as its bases and its functions. -/
theorem scoped_classDef {c : ClassDef} {slots : Assignment} {fns : List Function}
    (items : c.items = .assignment slots :: fns.map .function)
    (constant : slots.value.mentions = [] ∧ slots.imports = []) (asks : c.imports ⊆ allowed)
    (bases : ∀ name ∈ c.bases.flatMap TypeTerm.mentions, Bound c.imports early name)
    (functions : ∀ fn ∈ fns, fn.Scoped allowed late) : (classDef c).Scoped allowed early late := by
  have own : ∀ fn ∈ fns, fn.imports ⊆ (classDef c).allImports := by
    intro fn mem i hi
    have item : ClassItem.function fn ∈ c.items := by
      rw [items]
      exact List.mem_cons_of_mem _ (List.mem_map_of_mem mem)
    exact List.mem_append_right _ (List.mem_flatMap.2 ⟨_, item, hi⟩)
  refine ⟨?_, ?_, ?_⟩
  · intro name mem
    rcases List.mem_append.1 mem with base | item
    · exact (bases name base).mono (fun i hi => List.mem_append_left _ hi) (List.Subset.refl _)
    · rw [items, List.flatMap_cons, ClassItem.evaluated, constant.1, List.nil_append,
        List.flatMap_map] at item
      obtain ⟨fn, hfn, item⟩ := List.mem_flatMap.1 item
      exact ((functions fn hfn).evaluated name item).mono (own fn hfn) (List.nil_subset _)
  · intro fn mem name free
    have hfn : fn ∈ fns := by
      have mem : ClassItem.function fn ∈ c.items := mem
      rw [items] at mem
      simpa using mem
    exact ((functions fn hfn).free name free).mono (own fn hfn) (List.Subset.refl _)
  · intro i mem
    rcases List.mem_append.1 mem with mine | item
    · exact asks mine
    · rw [items, List.flatMap_cons, ClassItem.imports, constant.2, List.nil_append,
        List.flatMap_map] at item
      obtain ⟨fn, hfn, hi⟩ := List.mem_flatMap.1 item
      exact (functions fn hfn).asks hi

/-- Definitions that are evaluated in order, so that each finds the names of those before it. -/
def Ordered (allowed : List Import) (late : List String) : List String → List Definition → Prop
  | _, [] => True
  | early, d :: ds => d.Scoped allowed early late ∧ Ordered allowed late (early ++ [d.name]) ds

theorem ordered_append {ds es : List Definition} :
    Ordered allowed late early (ds ++ es) ↔ Ordered allowed late early ds ∧
      Ordered allowed late (early ++ ds.map Definition.name) es := by
  induction ds generalizing early with
  | nil => simp [Ordered]
  | cons d ds ih => simp [Ordered, ih, and_assoc]

/-- Definitions that do not need each other are fine in any order. -/
theorem ordered_of_forall {ds : List Definition} (each : ∀ d ∈ ds, d.Scoped allowed early late) :
    Ordered allowed late early ds := by
  induction ds generalizing early with
  | nil => trivial
  | cons d ds ih =>
    refine ⟨each d List.mem_cons_self, ih fun e mem => ?_⟩
    have h := each e (List.mem_cons_of_mem _ mem)
    exact ⟨fun name hn => (h.evaluated name hn).mono (List.Subset.refl _)
      (List.subset_append_left _ _), h.used, h.asks⟩

theorem Ordered.asks {ds : List Definition} (ordered : Ordered allowed late early ds) :
    ∀ d ∈ ds, d.allImports ⊆ allowed := by
  induction ds generalizing early with
  | nil => exact fun d mem => absurd mem List.not_mem_nil
  | cons d ds ih =>
    intro e mem
    rcases List.mem_cons.1 mem with rfl | mem
    · exact ordered.1.asks
    · exact ih ordered.2 e mem

end Definition

/-- The names that the imports of a whole file bind, those of its parts left out. -/
def File.ownNames (f : File) : List String := f.imports.flatMap Import.bound

/-- A file is well scoped if its definitions are in order, given what it imports itself. -/
theorem wellScoped_of_ordered {f : File} {imported : List String}
    (deferred : ⟨"__future__", some "annotations"⟩ ∈ f.imports)
    (block : ∀ i ∈ f.allImports, i.bound ⊆ imported)
    (ordered : Definition.Ordered allowed (f.ownNames ++ f.body.map Definition.name) f.ownNames
      f.body) :
    WellScoped f imported := by
  have own : ∀ name ∈ f.ownNames, name ∈ imported := by
    intro name mem
    obtain ⟨i, hi, bound⟩ := List.mem_flatMap.1 mem
    exact block i (List.mem_append_left _ hi) bound
  have parts : ∀ d ∈ f.body, ∀ i ∈ d.allImports, i.bound ⊆ imported := fun d mem i hi =>
    block i (List.mem_append_right _ (List.mem_flatMap.2 ⟨d, mem, hi⟩))
  have resolved {d : Definition} (mem : d ∈ f.body) {names : List String} {name : String}
      (bound : Bound d.allImports (f.ownNames ++ names) name) :
      name ∈ builtinNames ∨ name ∈ imported ∨ name ∈ names := by
    rcases bound with builtin | ⟨i, hi, bound⟩ | known
    · exact .inl builtin
    · exact .inr (.inl (parts d mem i hi bound))
    · rcases List.mem_append.1 known with mine | defined
      · exact .inr (.inl (own name mine))
      · exact .inr (.inr defined)
  refine ⟨File.mem_collectImports.2 (List.mem_append_left _ deferred), ?_, ?_⟩
  · intro before d after split name mem
    have there : d ∈ f.body := by
      rw [split]
      exact List.mem_append_right _ List.mem_cons_self
    rw [split] at ordered
    have h := (Definition.ordered_append.1 ordered).2.1
    exact resolved there (h.evaluated name mem)
  · intro d mem fn defines name free
    obtain ⟨before, after, split⟩ := List.append_of_mem mem
    rw [split] at ordered
    have h := (Definition.ordered_append.1 ordered).2.1
    rw [← split] at h
    exact resolved mem (h.used fn defines name free)

end Polyad.Code
