import Polyad.Proofs.Code.Scope
import Polyad.Proofs.Generated.Files

/-!
# Scope of the emitted functions

Which names the functions of emitted files need. Those of contracts get by on builtins and what they
ask to import themselves. Those of concrete classes also name classes of the family, the null tuple
or the table of constructors.
-/

namespace Polyad.Generated

open Code

variable {m next pair : Member} {f : Family} {runtime : String} {known : List String}
variable {fn : Function}

/-! ## Imports -/

/-- All that the definitions of either file ask to import. -/
def emittedImports (runtime : String) : List Import :=
  ⟨"warnings", none⟩ :: ⟨"abc", some "abstractmethod"⟩ ::
    Import.several "typing" ["Any", "Callable", "Generic", "Iterator", "TypeVar"] ++
    Import.several runtime runtimeNames

theorem abstract_mem_emittedImports :
    ⟨"abc", some "abstractmethod"⟩ ∈ emittedImports runtime :=
  List.mem_append_left _ (List.mem_cons_of_mem _ List.mem_cons_self)

theorem typing_mem_emittedImports {s : String}
    (mem : s ∈ ["Any", "Callable", "Generic", "Iterator", "TypeVar"]) :
    ⟨"typing", some s⟩ ∈ emittedImports runtime :=
  List.mem_append_left _ (List.mem_cons_of_mem _ (List.mem_cons_of_mem _ (List.mem_map_of_mem mem)))

theorem typing_subset_emittedImports {names : List String}
    (subset : names ⊆ ["Any", "Callable", "Generic", "Iterator", "TypeVar"]) :
    Import.several "typing" names ⊆ emittedImports runtime := by
  intro i mem
  obtain ⟨s, hs, rfl⟩ := List.mem_map.1 mem
  exact typing_mem_emittedImports (subset hs)

theorem runtime_subset_emittedImports {names : List String} (subset : names ⊆ runtimeNames) :
    Import.several runtime names ⊆ emittedImports runtime := by
  intro i mem
  obtain ⟨s, hs, rfl⟩ := List.mem_map.1 mem
  exact List.mem_append_right _ (List.mem_map_of_mem (subset hs))

/-! ## Shapes -/

/-- Nothing but the decorators of a function without defaults is evaluated when it is defined. -/
theorem evaluated_eq (plain : fn.parameters.filterMap Parameter.default = []) :
    fn.evaluated = fn.decorators := by
  rw [Function.evaluated, plain, List.append_nil]

/-- A demand has no body, so only its decorators need names. -/
theorem scoped_demand (asks : fn.imports ⊆ emittedImports runtime)
    (plain : fn.parameters.filterMap Parameter.default = [])
    (body : fn.body = []) (decorators : ∀ s ∈ fn.decorators, Bound fn.imports [] s) :
    fn.Scoped (emittedImports runtime) known where
  evaluated := by rwa [evaluated_eq plain]
  free s mem := by
    rw [Function.mem_free, body] at mem
    cases mem.1
  asks := asks

/-- A function needs the names that stand in its body and are not local. -/
theorem scoped_body (asks : fn.imports ⊆ emittedImports runtime)
    (plain : fn.parameters.filterMap Parameter.default = [])
    (decorators : ∀ s ∈ fn.decorators, Bound fn.imports [] s)
    (names : ∀ s ∈ fn.body.flatMap Stmt.mentions, s ∈ fn.locals ∨ Bound fn.imports known s) :
    fn.Scoped (emittedImports runtime) known where
  evaluated := by rwa [evaluated_eq plain]
  free s mem := by
    obtain ⟨mention, free⟩ := Function.mem_free.1 mem
    rcases names s mention with own | bound
    · exact absurd own free
    · exact bound
  asks := asks

/-- In a function of one expression only parameters are local. -/
theorem scoped_ret {e : Expr} (asks : fn.imports ⊆ emittedImports runtime)
    (plain : fn.parameters.filterMap Parameter.default = [])
    (body : fn.body = [.ret e]) (decorators : ∀ s ∈ fn.decorators, Bound fn.imports [] s)
    (names : ∀ s ∈ e.mentions, s ∈ fn.parameters.map Parameter.name ∨ Bound fn.imports known s) :
    fn.Scoped (emittedImports runtime) known := by
  refine scoped_body asks plain decorators fun s mention => ?_
  rw [body, List.flatMap_cons, List.flatMap_nil, List.append_nil, Stmt.mentions] at mention
  rcases names s mention with parameter | bound
  · exact .inl (List.mem_append_left _ parameter)
  · exact .inr bound

theorem undecorated {imports : List Import} : ∀ s ∈ ([] : List String), Bound imports [] s :=
  fun _ mem => absurd mem List.not_mem_nil

theorem mem_self_of_mem_ofSelf {fields : List String} {s : String}
    (mem : s ∈ Expr.mentionsAll (ofSelf fields)) : s ∈ ["self"] := by
  rw [Expr.eq_of_mem_mentionsAll_attrs mem]
  exact List.mem_cons_self

/-! ## Contracts -/

theorem bound_abstractmethod {imports : List Import}
    (mem : ⟨"abc", some "abstractmethod"⟩ ∈ imports) : Bound imports known "abstractmethod" :=
  .inr (.inl ⟨_, mem, List.mem_singleton_self _⟩)

theorem scoped_abstractAccessor (label param ordinal : String) :
    (abstractAccessor label param ordinal).Scoped (emittedImports runtime) known := by
  have asks : (abstractAccessor label param ordinal).imports ⊆ emittedImports runtime :=
    List.cons_subset.2 ⟨abstract_mem_emittedImports, List.nil_subset _⟩
  refine scoped_demand asks rfl rfl fun s decorator => ?_
  rcases List.mem_cons.1 decorator with rfl | decorator
  · exact .inl (by decide)
  · cases List.mem_singleton.1 decorator
    exact bound_abstractmethod List.mem_cons_self

theorem scoped_abstractAccessors (mem : fn ∈ abstractAccessors m) :
    fn.Scoped (emittedImports runtime) known := by
  obtain ⟨i, hi, rfl⟩ := List.getElem_of_mem mem
  rw [show (abstractAccessors m)[i] = abstractAccessor _ _ _ from List.getElem_zipWith]
  exact scoped_abstractAccessor ..

theorem scoped_abstractTransform (name parameter : String) (type returns : TypeTerm)
    (doc : String) :
    (abstractTransform name parameter type returns doc).Scoped (emittedImports runtime) known := by
  have asks : (abstractTransform name parameter type returns doc).imports ⊆
      emittedImports runtime :=
    List.cons_subset.2 ⟨abstract_mem_emittedImports, typing_subset_emittedImports (by decide)⟩
  refine scoped_demand asks rfl rfl fun s decorator => ?_
  cases List.mem_singleton.1 decorator
  exact bound_abstractmethod List.mem_cons_self

theorem scoped_abstractTransforms {ts : List Function} (h : abstractTransforms m f = .ok ts)
    (mem : fn ∈ ts) : fn.Scoped (emittedImports runtime) known := by
  have basic : ∀ g ∈ basicDemands m, g.Scoped (emittedImports runtime) known := by
    intro g hg
    simp only [basicDemands, List.mem_cons, List.not_mem_nil, or_false] at hg
    rcases hg with rfl | rfl | rfl | rfl <;> exact scoped_abstractTransform ..
  obtain ⟨-, pair, -, rfl⟩ | ⟨-, rfl⟩ := withPair_eq_ok h
  · rcases List.mem_append.1 mem with mem | mem
    · exact basic fn mem
    · cases List.mem_singleton.1 mem
      exact scoped_abstractTransform ..
  · exact basic fn mem

/-- The extension that leaves the family asks for all that it needs. -/
theorem scoped_overflowExtension :
    (overflowExtension m runtime).Scoped (emittedImports runtime) known := by
  have taken : ∀ n ∈ ["TupleN", "TupleOverflowWarning"],
      Bound (overflowExtension m runtime).imports known n := by
    intro n mem
    refine .inr (.inl ⟨⟨runtime, some n⟩, ?_, List.mem_singleton_self n⟩)
    exact List.mem_append_right _ (List.mem_map_of_mem mem)
  have warnings : Bound (overflowExtension m runtime).imports known "warnings" := by
    refine .inr (.inl ⟨⟨"warnings", none⟩, ?_, by decide⟩)
    exact List.mem_append_left _ (List.mem_append_right _ List.mem_cons_self)
  have asks : (overflowExtension m runtime).imports ⊆ emittedImports runtime :=
    List.append_subset.2 ⟨List.append_subset.2 ⟨typing_subset_emittedImports (by decide),
      List.cons_subset.2 ⟨List.mem_cons_self, List.nil_subset _⟩⟩,
      runtime_subset_emittedImports (by decide)⟩
  refine scoped_body asks rfl undecorated fun s mention => ?_
  simp only [overflowExtension, List.flatMap_cons, List.flatMap_nil, Stmt.mentions, Expr.mentions,
    Expr.calls, Expr.mentionsAll, Expr.mentionsAll_append, List.mem_append, List.mem_cons,
    List.not_mem_nil, or_false, false_or] at mention
  rcases mention with (rfl | rfl) | rfl | own | rfl
  · exact .inr warnings
  · exact .inr (taken _ (by decide))
  · exact .inr (taken _ (by decide))
  · cases List.mem_singleton.1 (mem_self_of_mem_ofSelf own)
    exact .inl List.mem_cons_self
  · exact .inl (List.mem_cons_of_mem _ List.mem_cons_self)

theorem scoped_typedExtension : (typedExtension m next).Scoped (emittedImports runtime) known := by
  refine scoped_body (List.nil_subset _) rfl undecorated fun s mention => ?_
  have known : ∀ s ∈ ["NotImplementedError", "type", "self"],
      s ∈ builtinNames ∨ s ∈ ["self", "that"] := by decide
  rcases known s mention with builtin | own
  · exact .inr (.inl builtin)
  · exact .inl own

/-- The operator needs nothing, whatever the extension whose signature it has. -/
theorem scoped_plusOperator :
    (plusOperator (contractExtension m f runtime)).Scoped (emittedImports runtime) known := by
  obtain ⟨type, params⟩ := parameters_plusOperator m f runtime
  refine scoped_ret (List.nil_subset _) (by rw [params]; rfl) rfl undecorated
    fun s mention => .inl ?_
  rw [params]
  exact mention

theorem scoped_extensions (mem : fn ∈ extensions m f runtime) :
    fn.Scoped (emittedImports runtime) known := by
  rcases List.mem_cons.1 mem with rfl | mem
  · unfold contractExtension
    split
    · exact scoped_overflowExtension
    · exact scoped_typedExtension
  · cases List.mem_singleton.1 mem
    exact scoped_plusOperator

theorem scoped_components (mem : fn ∈ components m) : fn.Scoped (emittedImports runtime) known := by
  obtain ⟨i, hi, rfl⟩ := List.getElem_of_mem mem
  simp only [components, List.getElem_mapIdx]
  exact scoped_ret (List.nil_subset _) rfl rfl undecorated fun s mention => .inl mention

theorem scoped_iteration (mem : fn ∈ iteration m) : fn.Scoped (emittedImports runtime) known := by
  simp only [iteration, List.mem_cons, List.not_mem_nil, or_false] at mem
  rcases mem with rfl | rfl
  · have asks : Import.several "typing" ["Any", "Iterator"] ⊆ emittedImports runtime :=
      typing_subset_emittedImports (by decide)
    refine scoped_ret asks rfl rfl undecorated fun s mention => ?_
    rcases List.mem_cons.1 mention with rfl | values
    · exact .inr (.inl (by decide))
    · rw [Expr.mentionsAll, Expr.mentionsAll, List.append_nil, Expr.mentions] at values
      exact .inl (mem_self_of_mem_ofSelf values)
  · exact scoped_ret (List.nil_subset _) rfl rfl undecorated fun s mention =>
      absurd mention List.not_mem_nil

/-- Pairs of values mention nothing but the values. -/
theorem mentionsEntries_pairUp_subset (es : List Expr) :
    Expr.mentionsEntries (pairUp es) ⊆ Expr.mentionsAll es := by
  fun_induction pairUp es with
  | case1 a b rest ih =>
    intro s mem
    simp only [Expr.mentionsEntries, Expr.mentionsAll, List.mem_append] at mem ⊢
    rcases mem with (first | second) | rest
    · exact .inl first
    · exact .inr (.inl second)
    · exact .inr (.inr (ih rest))
  | case2 es => exact List.nil_subset _

theorem scoped_nativeMethods {n : Native} (mem : fn ∈ nativeMethods m n) :
    fn.Scoped (emittedImports runtime) known := by
  simp only [nativeMethods, List.mem_cons, List.not_mem_nil, or_false] at mem
  rcases mem with rfl | rfl
  · exact scoped_ret (List.nil_subset _) rfl rfl undecorated fun s mention =>
      .inl (mem_self_of_mem_ofSelf mention)
  · exact scoped_ret (List.nil_subset _) rfl rfl undecorated fun s mention => .inl mention

theorem scoped_conversions (mem : fn ∈ conversions m) :
    fn.Scoped (emittedImports runtime) known := by
  simp only [conversions, List.mem_append] at mem
  rcases mem with (list | map) | native
  · split at list
    · cases List.mem_singleton.1 list
      unfold toListMethod
      split
      · have asks : nullToList.imports ⊆ emittedImports runtime :=
          typing_subset_emittedImports (by decide)
        exact scoped_ret asks rfl rfl undecorated fun s mention =>
          absurd mention List.not_mem_nil
      · exact scoped_ret (List.nil_subset _) rfl rfl undecorated fun s mention =>
          .inl (mem_self_of_mem_ofSelf mention)
    · cases list
  · split at map
    · cases List.mem_singleton.1 map
      exact scoped_ret (List.nil_subset _) rfl rfl undecorated fun s mention =>
        .inl (mem_self_of_mem_ofSelf (mentionsEntries_pairUp_subset _ mention))
    · cases map
  · cases kind : Native.of? m with
    | none =>
      rw [kind] at native
      cases native
    | some n =>
      rw [kind] at native
      exact scoped_nativeMethods native

/-- Every function of a contract gets by without the names of its file. -/
theorem scoped_contractFunctions {ts : List Function} (h : abstractTransforms m f = .ok ts)
    (mem : fn ∈ contractFunctions m f runtime ts) : fn.Scoped (emittedImports runtime) known := by
  simp only [contractFunctions, List.mem_append] at mem
  rcases mem with ((((mem | mem) | mem) | mem) | mem) | mem
  · exact scoped_abstractAccessors mem
  · exact scoped_extensions mem
  · exact scoped_components mem
  · exact scoped_iteration mem
  · exact scoped_abstractTransforms h mem
  · exact scoped_conversions mem

/-! ## Concrete classes -/

theorem scoped_initialiser (valid : m.validate = .ok ()) :
    (initialiser m).Scoped (emittedImports runtime) known := by
  have params := (Member.validate_eq_ok_iff.1 valid).1
  have names := parameterNames_initialiser params
  refine scoped_body (List.nil_subset _) ?_ undecorated fun s mention => ?_
  · refine List.filterMap_eq_nil_iff.2 fun q mem => ?_
    rcases List.mem_cons.1 mem with rfl | mem
    · rfl
    · obtain ⟨i, hi, rfl⟩ := List.getElem_of_mem mem
      simp [typedParameter]
  · obtain ⟨stmt, mem, mention⟩ := List.mem_flatMap.1 mention
    obtain ⟨label, hl, rfl⟩ := List.mem_map.1 mem
    have mention : s ∈ ["object", "self", label] := mention
    simp only [List.mem_cons, List.not_mem_nil, or_false] at mention
    rcases mention with rfl | rfl | rfl
    · exact .inr (.inl (by decide))
    · exact .inl (List.mem_append_left _ (by rw [names]; exact List.mem_cons_self))
    · exact .inl (List.mem_append_left _ (by rw [names]; exact List.mem_cons_of_mem _ hl))

theorem scoped_accessors (mem : fn ∈ accessors m) : fn.Scoped (emittedImports runtime) known := by
  obtain ⟨i, hi, rfl⟩ := List.getElem_of_mem mem
  simp only [accessors, List.getElem_zipWith]
  refine scoped_ret (List.nil_subset _) rfl rfl (fun s decorator => ?_)
    fun s mention => .inl mention
  cases List.mem_singleton.1 decorator
  exact .inl (by decide)

/-- A call with the values of the instance and maybe more needs the name of what is called. -/
theorem mention_calls {name s : String} {fields : List String} {more : List Expr}
    (mention : s ∈ (Expr.calls name (ofSelf fields ++ more)).mentions) :
    s = name ∨ s = "self" ∨ s ∈ Expr.mentionsAll more := by
  rw [Expr.calls, Expr.mentions, Expr.mentions, Expr.mentionsAll_append, List.mem_append,
    List.mem_append, List.mem_singleton] at mention
  rcases mention with called | own | rest
  · exact .inl called
  · exact .inr (.inl (Expr.eq_of_mem_mentionsAll_attrs own))
  · exact .inr (.inr rest)

theorem scoped_concreteExtension (mem : next.className ∈ known) :
    (concreteExtension m next).Scoped (emittedImports runtime) known := by
  refine scoped_ret (List.nil_subset _) rfl rfl undecorated fun s mention => ?_
  rcases mention_calls mention with rfl | rfl | that
  · exact .inr (.inr (.inr mem))
  · exact .inl List.mem_cons_self
  · exact .inl (List.mem_cons_of_mem _ that)

theorem mention_applied {function s : String} (mention : s ∈ (applied m function).mentions) :
    s ∈ ["self", function] := by
  rw [applied, Expr.calls, Expr.mentions, Expr.mentions, List.mem_append, List.mem_singleton]
    at mention
  rcases mention with rfl | own
  · exact List.mem_cons_of_mem _ List.mem_cons_self
  · exact List.mem_append_left [function] (mem_self_of_mem_ofSelf own)

theorem scoped_basicTransforms (mem : fn ∈ basicTransforms m) :
    fn.Scoped (emittedImports runtime) known := by
  simp only [basicTransforms, List.mem_cons, List.not_mem_nil, or_false] at mem
  rcases mem with rfl | rfl | rfl | rfl
  · exact scoped_ret (List.nil_subset _) rfl rfl undecorated fun s mention =>
      .inl (mention_applied mention)
  · exact scoped_ret (List.nil_subset _) rfl rfl undecorated fun s mention =>
      .inl (mention_applied mention)
  · refine scoped_ret (List.nil_subset _) rfl rfl undecorated fun s mention => ?_
    rcases List.mem_cons.1 mention with rfl | predicate
    · exact .inr (.inl (by decide))
    · have predicate : s ∈ (applied m "predicate").mentions ++ [] := predicate
      rw [List.append_nil] at predicate
      exact .inl (mention_applied predicate)
  · exact scoped_ret (List.nil_subset _) rfl rfl undecorated fun s mention =>
      .inl (mention_applied mention)

theorem scoped_transforms {ts : List Function} (h : transforms m f = .ok ts)
    (pairs : ∀ pair ∈ f.proper, pair.className ∈ known) (mem : fn ∈ ts) :
    fn.Scoped (emittedImports runtime) known := by
  obtain ⟨-, pair, found, rfl⟩ | ⟨-, rfl⟩ := withPair_eq_ok h
  · rcases List.mem_append.1 mem with mem | mem
    · exact scoped_basicTransforms mem
    · cases List.mem_singleton.1 mem
      refine scoped_ret (List.nil_subset _) rfl rfl undecorated fun s mention => ?_
      rcases List.mem_cons.1 mention with rfl | arguments
      · have arity := Family.arity_of_get? found
        have proper := Family.mem_proper_iff.2 ⟨Family.mem_of_get? found, by omega⟩
        exact .inr (.inr (.inr (pairs pair proper)))
      · exact .inl arguments
  · exact scoped_basicTransforms mem

theorem mention_valuesOf {owner s : String} (mention : s ∈ (valuesOf m owner).mentions) :
    s = owner :=
  Expr.eq_of_mem_mentionsAll_attrs mention

theorem mem_shownParts {fields : List String} {e : Expr} (mem : e ∈ shownParts fields) :
    (∃ t, e = .literal t) ∨ ∃ field, e = .shown (.attr (.name "self") field) := by
  cases fields with
  | nil =>
    rcases List.mem_cons.1 mem with rfl | mem
    · exact .inl ⟨_, rfl⟩
    · exact .inl ⟨_, List.mem_singleton.1 mem⟩
  | cons field fields =>
    simp only [shownParts_cons, shownRest, ofSelf, Expr.attrs, List.mem_cons, List.mem_append,
      List.mem_flatMap, List.mem_map, List.not_mem_nil, or_false] at mem
    rcases mem with rfl | rfl | ⟨-, ⟨other, -, rfl⟩, rfl | rfl⟩ | rfl
    · exact .inl ⟨_, rfl⟩
    · exact .inr ⟨_, rfl⟩
    · exact .inl ⟨_, rfl⟩
    · exact .inr ⟨_, rfl⟩
    · exact .inl ⟨_, rfl⟩

theorem scoped_equalMethod (mem : m.className ∈ known) :
    (equalMethod m).Scoped (emittedImports runtime) known := by
  refine scoped_body (List.nil_subset _) rfl undecorated fun s mention => ?_
  simp only [equalMethod, equality, isInstance, valuesOf, Expr.calls, List.flatMap_cons,
    List.flatMap_nil, Stmt.mentions, Expr.mentions, Expr.mentionsAll, List.mem_append,
    List.mem_cons, List.not_mem_nil, or_false] at mention
  rcases mention with ((rfl | rfl) | rfl) | ((rfl | rfl | rfl) | rfl) | own | other
  · exact .inl List.mem_cons_self
  · exact .inl (List.mem_cons_of_mem _ List.mem_cons_self)
  · exact .inr (.inl (by decide))
  · exact .inr (.inl (by decide))
  · exact .inl (List.mem_cons_of_mem _ List.mem_cons_self)
  · exact .inr (.inr (.inr mem))
  · exact .inr (.inl (by decide))
  · cases Expr.eq_of_mem_mentionsAll_attrs own
    exact .inl List.mem_cons_self
  · cases Expr.eq_of_mem_mentionsAll_attrs other
    exact .inl (List.mem_cons_of_mem _ List.mem_cons_self)

theorem scoped_reprMethod : (reprMethod m).Scoped (emittedImports runtime) known := by
  refine scoped_ret (List.nil_subset _) rfl rfl undecorated fun s mention => ?_
  rw [Expr.mentions, Expr.mentionsAll_eq] at mention
  obtain ⟨e, mem, mention⟩ := List.mem_flatMap.1 mention
  rcases mem_shownParts mem with ⟨t, rfl⟩ | ⟨field, rfl⟩
  · cases mention
  · exact .inl mention

theorem scoped_valueIdentity (own : m.className ∈ known) (mem : fn ∈ valueIdentity m) :
    fn.Scoped (emittedImports runtime) known := by
  simp only [valueIdentity, List.mem_cons, List.not_mem_nil, or_false] at mem
  rcases mem with rfl | rfl | rfl | rfl
  · exact scoped_equalMethod own
  · refine scoped_ret (List.nil_subset _) rfl rfl undecorated fun s mention => ?_
    simp only [Expr.calls, Expr.mentions, Expr.mentionsAll, List.append_nil, List.cons_append,
      List.nil_append, List.mem_cons] at mention
    rcases mention with rfl | values
    · exact .inr (.inl (by decide))
    · cases mention_valuesOf values
      exact .inl List.mem_cons_self
  · exact scoped_reprMethod
  · have asks : (reduceMethod m).imports ⊆ emittedImports runtime :=
      typing_subset_emittedImports (by decide)
    refine scoped_ret asks rfl rfl undecorated fun s mention => ?_
    simp only [Expr.mentions, Expr.mentionsAll, List.append_nil, List.cons_append,
      List.nil_append, List.mem_cons] at mention
    rcases mention with rfl | values
    · exact .inr (.inr (.inr own))
    · cases mention_valuesOf values
      exact .inl List.mem_cons_self

/-- The functions of a concrete class need its name and those of its neighbours. -/
theorem scoped_concreteFunctions {ext ts : List Function} (there : m ∈ f.members)
    (valid : m.validate = .ok ()) (hext : ownExtension m f = .ok ext)
    (hts : transforms m f = .ok ts) (own : m.className ∈ known)
    (neighbours : ∀ n ∈ f.proper, n.className ∈ known) (mem : fn ∈ concreteFunctions m ext ts) :
    fn.Scoped (emittedImports runtime) known := by
  simp only [concreteFunctions, List.mem_append, List.mem_cons] at mem
  rcases mem with (((rfl | mem) | mem) | mem) | mem
  · exact scoped_initialiser valid
  · exact scoped_accessors mem
  · obtain ⟨-, next, succ, rfl⟩ | ⟨-, rfl⟩ := ownExtension_eq_ok hext
    · cases List.mem_singleton.1 mem
      exact scoped_concreteExtension (neighbours next (Family.mem_proper_of_successor? there succ))
    · cases mem
  · exact scoped_transforms hts neighbours mem
  · exact scoped_valueIdentity own mem

/-- Those of the null class need its name and that of the class after it. -/
theorem scoped_nullMethods (own : m.className ∈ known) (following : next.className ∈ known)
    (mem : fn ∈ nullMethods m next) : fn.Scoped (emittedImports runtime) known := by
  simp only [nullMethods, List.mem_cons, List.not_mem_nil, or_false] at mem
  rcases mem with rfl | rfl | rfl | rfl | rfl
  · refine scoped_ret (List.nil_subset _) rfl rfl undecorated fun s mention => ?_
    rcases List.mem_cons.1 mention with rfl | that
    · exact .inr (.inr (.inr following))
    · exact .inl (List.mem_cons_of_mem _ that)
  · refine scoped_ret (List.nil_subset _) rfl rfl undecorated fun s mention => ?_
    have mention : s ∈ ["isinstance", "other", m.className] := mention
    simp only [List.mem_cons, List.not_mem_nil, or_false] at mention
    rcases mention with rfl | rfl | rfl
    · exact .inr (.inl (by decide))
    · exact .inl (List.mem_cons_of_mem _ List.mem_cons_self)
    · exact .inr (.inr (.inr own))
  · exact scoped_ret (List.nil_subset _) rfl rfl undecorated fun s mention =>
      absurd mention List.not_mem_nil
  · exact scoped_ret (List.nil_subset _) rfl rfl undecorated fun s mention =>
      absurd mention List.not_mem_nil
  · exact scoped_ret (List.nil_subset _) rfl rfl undecorated fun s mention =>
      absurd mention List.not_mem_nil

/-! ## Functions of the file of concrete classes -/

/-- A converter unpacks its argument into names of its own. -/
theorem scoped_converterFunction (n : Native) (own : m.className ∈ known) :
    (converterFunction m n).Scoped (emittedImports runtime) known := by
  refine scoped_body (List.nil_subset _) rfl undecorated fun s mention => ?_
  simp only [converterFunction, List.flatMap_cons, List.flatMap_nil, Stmt.mentions, Expr.calls,
    Expr.mentions, Expr.mentionsAll_names, List.mem_append, List.mem_cons, List.not_mem_nil,
    or_false] at mention
  rcases mention with rfl | rfl | unpacked
  · exact .inl List.mem_cons_self
  · exact .inr (.inr (.inr own))
  · refine .inl (List.mem_cons_of_mem _ ?_)
    simpa [converterFunction, Stmt.targets] using unpacked

/-- The factory asks for the open-ended tuple itself. -/
theorem scoped_factoryFunction (null : nullInstance ∈ known) (table : "_CONSTRUCTORS" ∈ known) :
    (factoryFunction f runtime).Scoped (emittedImports runtime) known := by
  have openTuple : Bound (factoryFunction f runtime).imports known "TupleN" := by
    refine .inr (.inl ⟨⟨runtime, some "TupleN"⟩, ?_, List.mem_singleton_self _⟩)
    exact List.mem_append_right _ (List.mem_cons_of_mem _ List.mem_cons_self)
  have asks : (factoryFunction f runtime).imports ⊆ emittedImports runtime :=
    List.append_subset.2 ⟨typing_subset_emittedImports (by decide),
      runtime_subset_emittedImports (by decide)⟩
  refine scoped_body asks rfl undecorated fun s mention => ?_
  have mention : s ∈ ["values", nullInstance, "len", "values", "TupleN", "values", "_CONSTRUCTORS",
    "len", "values", "values"] := mention
  have few : ∀ s ∈ ["values", nullInstance, "len", "values", "TupleN", "values", "_CONSTRUCTORS",
    "len", "values", "values"], s ∈ ["values", nullInstance, "len", "TupleN", "_CONSTRUCTORS"] := by
    decide
  have mention := few s mention
  simp only [List.mem_cons, List.not_mem_nil, or_false] at mention
  rcases mention with rfl | rfl | rfl | rfl | rfl
  · exact .inl List.mem_cons_self
  · exact .inr (.inr (.inr null))
  · exact .inr (.inl (by decide))
  · exact .inr openTuple
  · exact .inr (.inr (.inr table))

end Polyad.Generated
