import Polyad.Proofs.Family.Drafts

/-!
# The rules of members and families

A member is accepted exactly if it is consistent, and a list of members exactly if it has one member
for each arity from 0 to the bound, in order, of which only the last is terminal; documents are
judged like the members they tell of. What is not accepted is reported as inconsistent. The one
exception are numbers of too many digits: where the report of the first broken rule would tell of
one, there is no report. In an accepted family arities and members determine each other.
-/

namespace Polyad

/-- How a check ends: it accepts what keeps the rules and reports what does not, unless the report
cannot be told. -/
structure Judges {α : Type} (x : Except Error α) (kept untold : Prop) : Prop where
  accepts : (∃ a, x = .ok a) ↔ kept
  reports : FailsWith (.report .inconsistentModel) x ↔ ¬kept ∧ ¬untold
  speechless : x = .error .unwritable ↔ untold

namespace Judges

variable {α : Type} {x : Except Error α} {kept untold : Prop}

theorem of_ok {a : α} (run : x = .ok a) (holds : kept) (told : ¬untold) : Judges x kept untold := by
  subst run
  refine ⟨⟨fun _ => holds, fun _ => ⟨a, rfl⟩⟩, ⟨?_, fun h => absurd holds h.1⟩, ?_⟩
  · rintro ⟨e, run, -⟩
    cases run
  · exact ⟨nofun, fun h => absurd h told⟩

theorem of_error {e : Error} (run : x = .error e) (broken : ¬kept) (told : ¬untold)
    (kind : e.kind = .report .inconsistentModel) : Judges x kept untold := by
  subst run
  refine ⟨⟨nofun, fun h => absurd h broken⟩, ⟨fun _ => ⟨broken, told⟩, fun _ => ⟨e, rfl, kind⟩⟩,
    ⟨fun run => ?_, fun h => absurd h told⟩⟩
  cases run
  cases kind

theorem of_untold (run : x = .error .unwritable) (broken : ¬kept) (h : untold) :
    Judges x kept untold := by
  subst run
  refine ⟨⟨nofun, fun h => absurd h broken⟩, ⟨?_, fun told => absurd h told.2⟩,
    ⟨fun _ => h, fun _ => rfl⟩⟩
  rintro ⟨e, run, kind⟩
  cases run
  cases kind

/-- A report that tells of values is made if all of them have a text. -/
theorem of_telling {values : List Value} {e : Error} (run : x = .error (.telling values e))
    (broken : ¬kept) (speechless : untold ↔ Value.allHaveText values = false)
    (kind : e.kind = .report .inconsistentModel) : Judges x kept untold := by
  cases wide : Value.allHaveText values with
  | true =>
    have told : ¬untold := by simp [speechless, wide]
    exact of_error (by rw [run, Error.telling, if_pos wide]) broken told kind
  | false =>
    exact of_untold (by rw [run, Error.telling, if_neg (by simp [wide])]) broken (speechless.2 wide)

/-- The same rules judge a step that ends like another one. -/
theorem congr {β : Type} {y : Except Error β} (judged : Judges y kept untold)
    (ends : (∃ a, x = .ok a) ↔ ∃ b, y = .ok b) (fails : ∀ e, x = .error e ↔ y = .error e) :
    Judges x kept untold where
  accepts := ends.trans judged.accepts
  reports := by simp only [← judged.reports, FailsWith, fails]
  speechless := (fails _).trans judged.speechless

end Judges

theorem allHaveText_name (name : String) : Value.allHaveText [.str name] = true := by
  simp [Value.allHaveText]

theorem telling_name (name : String) (e : Error) : Error.telling [.str name] e = e :=
  if_pos (allHaveText_name name)

/-! ## Members -/

namespace Member

variable {m : Member}

/-- One label, one type parameter and one ordinal for each position, and no label twice. -/
structure Consistent (m : Member) : Prop where
  labels : (m.labels.length : Int) = m.arity
  typeParams : (m.typeParams.length : Int) = m.arity
  ordinals : (m.ordinals.length : Int) = m.arity
  distinct : m.labels.Nodup

theorem validate_eq_ok : m.validate = .ok () ↔ m.Consistent := by
  rw [validate_eq_ok_iff]
  constructor
  · rintro ⟨params, labels, ordinals, distinct⟩
    exact ⟨labels, by omega, ordinals, distinct⟩
  · rintro ⟨labels, params, ordinals, distinct⟩
    exact ⟨by omega, labels, ordinals, distinct⟩

/-- The first rule that is broken is told with the arity, which has too many digits. -/
structure Untold (m : Member) : Prop where
  params : m.typeParams.length = m.labels.length
  counts : ¬((m.labels.length : Int) = m.arity ∧ (m.ordinals.length : Int) = m.arity)
  wide : (Value.int m.arity).hasText = false

/-- The rules of a member in the order in which they are looked at. -/
theorem validate_eq (m : Member) : m.validate =
    if m.typeParams.length = m.labels.length then
      if (m.labels.length : Int) = m.arity ∧ (m.ordinals.length : Int) = m.arity then
        if m.labels.Nodup then .ok ()
        else .error (.duplicateLabels (.str m.interfaceName) (.int m.arity))
      else .error (.telling [.str m.interfaceName, .int m.arity] (.positionCount
        (.str m.interfaceName) (.int m.arity) m.labels.length m.ordinals.length))
    else .error (.paramCount (.str m.interfaceName) m.typeParams.length m.labels.length
      (.int m.arity)) := by
  simp only [validate, Shape.validate, shape, List.length_map, telling_name, Value.same_int,
    allHashable_str, ← distinct_str_iff]
  by_cases labels : (m.labels.length : Int) = m.arity <;>
    by_cases ordinals : (m.ordinals.length : Int) = m.arity <;>
    cases distinct : Value.distinct (m.labels.map .str) <;> simp [labels, ordinals]

theorem judges_validate (m : Member) : Judges m.validate m.Consistent m.Untold := by
  have run := validate_eq m
  split at run
  · next params =>
    split at run
    · next counts =>
      split at run
      · exact .of_ok run (validate_eq_ok.1 run) fun u => u.counts counts
      · next distinct =>
        exact .of_error run (fun c => distinct c.distinct) (fun u => u.counts counts) rfl
    · next counts =>
      refine .of_telling run (fun c => counts ⟨c.labels, c.ordinals⟩)
        ⟨fun u => ?_, fun wide => ?_⟩ rfl
      · simp [Value.allHaveText, u.wide]
      · exact ⟨params, counts, by simpa [Value.allHaveText] using wide⟩
  · next params =>
    refine .of_error run (fun c => params ?_) (fun u => params u.params) rfl
    have := c.typeParams.trans c.labels.symm
    omega

end Member

/-! ## Lists of members -/

namespace Family

/-- One member for each arity from 0 to the bound, in order, of which exactly the last is
terminal. -/
structure Ruled (bound : Int) (ms : List Member) : Prop where
  some : ms ≠ []
  arities : ms.map (·.arity) = (List.range (bound + 1).toNat).map Int.ofNat
  terminal : ∀ i (h : i < ms.length), ms[i].isTerminal = true ↔ i + 1 = ms.length

/-- The first rule that is broken is told with a number of too many digits. -/
inductive Untold (bound : Int) (ms : List Member) : Prop where
  /-- The arity of the first member that is out of place. -/
  | arity (i : Nat) (lt : i < ms.length) (before : ∀ j (h : j < i), ms[j].arity = j)
      (off : ms[i].arity ≠ i) (wide : (Value.int ms[i].arity).hasText = false)
  /-- The bound, or the last arity, where the two differ. -/
  | bound (some : ms ≠ []) (before : ∀ i (h : i < ms.length), ms[i].arity = i)
      (off : (ms.length : Int) ≠ bound + 1)
      (wide : (Value.int (ms.getLast some).arity).hasText = false ∨
        (Value.int bound).hasText = false)

variable {bound : Int} {ms : List Member}

theorem arities_eq_iff (ne : ms ≠ []) :
    ms.map (·.arity) = (List.range (bound + 1).toNat).map Int.ofNat ↔
      (∀ i (h : i < ms.length), ms[i].arity = i) ∧ (ms.length : Int) = bound + 1 := by
  have pos := List.length_pos_iff.2 ne
  constructor
  · intro eq
    have length := congrArg List.length eq
    rw [List.length_map, List.length_map, List.length_range] at length
    refine ⟨fun i h => ?_, by omega⟩
    have at_i := List.getElem_of_eq eq (i := i) (by simpa using h)
    simpa using at_i
  · rintro ⟨arities, length⟩
    refine List.ext_getElem (by simp; omega) fun i h _ => ?_
    have h : i < ms.length := by simpa using h
    simp [arities i h]

theorem ruled_iff : Ruled bound ms ↔ checkFamily (.int bound) (ms.map Member.shape) = .ok () := by
  rw [checkFamily_eq_ok_iff]
  constructor
  · rintro ⟨ne, arities, terminal⟩
    obtain ⟨arities, length⟩ := (arities_eq_iff ne).1 arities
    refine ⟨ne, arities, length, fun m mem => ?_⟩
    obtain ⟨i, h, rfl⟩ := List.getElem_of_mem mem
    rw [Bool.eq_iff_iff, terminal i h, arities i h, beq_iff_eq]
    omega
  · rintro ⟨ne, arities, length, terminal⟩
    refine ⟨ne, (arities_eq_iff ne).2 ⟨arities, length⟩, fun i h => ?_⟩
    rw [terminal _ (List.getElem_mem h), arities i h, beq_iff_eq]
    omega

theorem checkPositions_eq_error {n : Nat} {e : Error}
    (run : checkPositions n (ms.map Member.shape) = .error e) :
    ∃ i, ∃ lt : i < ms.length, (∀ j (h : j < i), ms[j].arity = (n + j : Nat)) ∧
      ms[i].arity ≠ (n + i : Nat) ∧
      e = .telling [.int ms[i].arity] (.misplacedMember (n + i) (.int ms[i].arity)) := by
  induction ms generalizing n with
  | nil => cases run
  | cons m ms ih =>
    simp only [List.map_cons, checkPositions, Member.shape, Value.same_int, beq_iff_eq] at run
    split at run
    · next first =>
      obtain ⟨i, lt, before, off, eq⟩ := ih run
      refine ⟨i + 1, by simpa using lt, fun j h => ?_, ?_, ?_⟩
      · cases j with
        | zero => simpa using first.symm
        | succ j =>
          have := before j (by omega)
          simp only [List.getElem_cons_succ]
          omega
      · simp only [List.getElem_cons_succ]
        omega
      · simpa [Nat.add_right_comm, Nat.add_assoc] using eq
    · next first =>
      refine ⟨0, by simp, nofun, ?_, (Except.error.inj run).symm⟩
      simpa using fun eq => first eq.symm

theorem checkExtensions_eq_error {e : Error}
    (run : checkExtensions (.int bound) (ms.map Member.shape) = .error e) :
    e.kind = .report .inconsistentModel := by
  induction ms with
  | nil => cases run
  | cons m ms ih =>
    simp only [List.map_cons, checkExtensions, Member.shape, telling_name] at run
    split at run
    · exact ih run
    · rw [← Except.error.inj run]
      rfl

/-- The rules of a family for some members, of which the last one is known. -/
theorem checkFamily_eq (ne : ms ≠ []) : checkFamily (.int bound) (ms.map Member.shape) = (do
    checkPositions 0 (ms.map Member.shape)
    if (ms.getLast ne).arity = bound then checkExtensions (.int bound) (ms.map Member.shape)
    else .error (.telling [.int (ms.getLast ne).arity, .int bound]
      (.boundMismatch (.int (ms.getLast ne).arity) (.int bound)))) := by
  have last : (ms.map Member.shape).getLast? = some (ms.getLast ne).shape := by
    rw [List.getLast?_map, List.getLast?_eq_some_getLast ne]
    rfl
  rw [checkFamily, last]
  simp only [Member.shape, Value.same_int]
  cases checkPositions 0 (ms.map Member.shape) with
  | error => rfl
  | ok =>
    by_cases same : (ms.getLast ne).arity = bound
    · simp [same]
    · simp [same]
      rfl

/-- A member that is out of place is reported with its arity. -/
theorem judges_of_misplaced {e : Error} (ne : ms ≠ [])
    (positions : checkPositions 0 (ms.map Member.shape) = .error e) :
    Judges (checkFamily (.int bound) (ms.map Member.shape)) (Ruled bound ms) (Untold bound ms) := by
  obtain ⟨i, lt, before, off, told⟩ := checkPositions_eq_error positions
  simp only [Nat.zero_add] at before off
  have run : checkFamily (.int bound) (ms.map Member.shape) = _ := checkFamily_eq ne
  rw [positions, told] at run
  refine .of_telling run (by rw [ruled_iff, run]; nofun) ⟨?_, fun wide => ?_⟩ rfl
  · rintro (⟨k, lt', before', off', wide⟩ | ⟨-, before', -⟩)
    · -- both are the first member out of place
      obtain rfl : k = i := by
        rcases Nat.lt_trichotomy k i with h | h | h
        · exact absurd (before k h) off'
        · exact h
        · exact absurd (before' i h) off
      simp [Value.allHaveText, wide]
    · exact absurd (before' i lt) off
  · exact .arity i lt before off (by simpa [Value.allHaveText] using wide)

/-- With all members in place, the bound is told if it is not the last arity. -/
theorem judges_of_placed (ne : ms ≠ [])
    (positions : checkPositions 0 (ms.map Member.shape) = .ok ()) :
    Judges (checkFamily (.int bound) (ms.map Member.shape)) (Ruled bound ms) (Untold bound ms) := by
  have arities : ∀ i (h : i < ms.length), ms[i].arity = i := by
    simpa using checkPositions_eq_ok_iff.1 positions
  have last : (ms.getLast ne).arity = (ms.length - 1 : Nat) := by
    rw [List.getLast_eq_getElem]
    exact arities _ _
  have pos := List.length_pos_iff.2 ne
  have run : checkFamily (.int bound) (ms.map Member.shape) = _ := checkFamily_eq ne
  rw [positions] at run
  by_cases same : (ms.getLast ne).arity = bound
  · have told : ¬Untold bound ms := by
      rintro (⟨i, lt, -, off, -⟩ | ⟨-, -, off, -⟩)
      · exact off (arities i lt)
      · omega
    rw [if_pos same] at run
    cases extensions : checkExtensions (.int bound) (ms.map Member.shape) with
    | error e =>
      rw [extensions] at run
      have kind := checkExtensions_eq_error extensions
      exact .of_error run (by rw [ruled_iff, run]; nofun) told kind
    | ok =>
      rw [extensions] at run
      exact .of_ok run (ruled_iff.2 run) told
  · rw [if_neg same] at run
    refine .of_telling run (by rw [ruled_iff, run]; nofun) ⟨?_, fun wide => ?_⟩ rfl
    · rintro (⟨i, lt, -, off, -⟩ | ⟨_, -, -, wide⟩)
      · exact absurd (arities i lt) off
      · rcases wide with wide | wide <;> simp [Value.allHaveText, wide]
    · refine .bound ne arities (by omega) ?_
      cases own : (Value.int (ms.getLast ne).arity).hasText
      · exact .inl rfl
      · exact .inr (by simpa [Value.allHaveText, own] using wide)

theorem checkFamily_judges (bound : Int) (ms : List Member) :
    Judges (checkFamily (.int bound) (ms.map Member.shape)) (Ruled bound ms) (Untold bound ms) := by
  by_cases ne : ms = []
  · subst ne
    refine .of_error rfl (fun r => r.some rfl) ?_ rfl
    rintro (⟨i, lt, -⟩ | ⟨ne, -⟩)
    · simp at lt
    · exact ne rfl
  · cases positions : checkPositions 0 (ms.map Member.shape) with
    | error e => exact judges_of_misplaced ne positions
    | ok => exact judges_of_placed ne positions

/-- Only a number of too many digits is not told of. -/
theorem Untold.exists_wide (h : Untold bound ms) :
    ∃ n ∈ bound :: ms.map (·.arity), (Value.int n).hasText = false := by
  obtain ⟨i, lt, -, -, wide⟩ | ⟨ne, -, -, wide | wide⟩ := h
  · exact ⟨_, List.mem_cons_of_mem _ (List.mem_map_of_mem (List.getElem_mem lt)), wide⟩
  · exact ⟨_, List.mem_cons_of_mem _ (List.mem_map_of_mem (List.getLast_mem ne)), wide⟩
  · exact ⟨_, List.mem_cons_self, wide⟩

theorem ofMembers_eq_ok_iff {f : Family} :
    ofMembers bound ms = .ok f ↔ f.maxArity = bound ∧ f.members = ms := by
  constructor
  · intro run
    unfold ofMembers at run
    split at run
    · cases run
      exact ⟨rfl, rfl⟩
    · cases run
  · rintro ⟨rfl, rfl⟩
    exact ofMembers_eq_ok f.consistent

theorem ofMembers_eq_error_iff {e : Error} :
    ofMembers bound ms = .error e ↔
      checkFamily (.int bound) (ms.map Member.shape) = .error e := by
  constructor
  · intro run
    unfold ofMembers at run
    split at run
    · cases run
    · next failed =>
      cases run
      exact failed
  · intro failed
    unfold ofMembers
    split
    · next held =>
      rw [failed] at held
      cases held
    · next other =>
      rw [failed] at other
      rw [Except.error.inj other]

theorem ofMembers_judges (bound : Int) (ms : List Member) :
    Judges (ofMembers bound ms) (Ruled bound ms) (Untold bound ms) := by
  refine (checkFamily_judges bound ms).congr ⟨?_, ?_⟩ fun e => ofMembers_eq_error_iff
  · rintro ⟨f, run⟩
    obtain ⟨rfl, rfl⟩ := ofMembers_eq_ok_iff.1 run
    exact ⟨(), f.consistent⟩
  · rintro ⟨_, held⟩
    exact ⟨_, ofMembers_eq_ok held⟩

/-! ## Documents -/

/-- A document that tells of a bound and of members. -/
def Describes (v : Value) (bound : Int) (ms : List Member) : Prop :=
  ∃ es items, entriesOf v = .ok es ∧ required es "max_arity" = .ok (.int bound) ∧
    itemsUnder es "members" = .ok items ∧
    items.mapM Draft.ofValue = .ok (ms.map Draft.ofMember)

/-- The document that tells of a bound and of members in the form of a family. -/
def documentOf (bound : Int) (ms : List Member) : Value :=
  .dict (Json.named [("max_arity", .int bound),
    ("members", .list (ms.map fun m => (Draft.ofMember m).toValue))])

theorem describes_documentOf (bound : Int) (ms : List Member) :
    Describes (documentOf bound ms) bound ms := by
  refine ⟨_, _, rfl, required_eq rfl, itemsUnder_eq rfl, ?_⟩
  rw [List.mapM_map]
  exact Error.mapM_eq_ok fun m _ => Draft.ofValue_toValue (.ofMember m)

theorem shapes_ofMember (ms : List Member) :
    (ms.map Draft.ofMember).map Draft.shape = ms.map Member.shape := by
  rw [List.map_map]
  exact List.map_congr_left fun m _ => FamilyDraft.shape_ofMember m

theorem ofDrafts_eq (bound : Int) (ms : List Member) :
    FamilyDraft.ofDrafts (.int bound) (ms.map Draft.ofMember) =
      (ofMembers bound ms).map FamilyDraft.ofFamily := by
  unfold FamilyDraft.ofDrafts
  split
  · next held =>
    rw [shapes_ofMember] at held
    rw [ofMembers_eq_ok held]
    rfl
  · next e failed =>
    rw [shapes_ofMember] at failed
    rw [ofMembers_eq_error_iff.2 failed]
    rfl

/-- What a document tells of makes a family like any other members do. -/
theorem ofValue_eq_ofMembers {v : Value} (described : Describes v bound ms) :
    FamilyDraft.ofValue v = (ofMembers bound ms).map FamilyDraft.ofFamily := by
  obtain ⟨es, items, entries, maxArity, under, drafts⟩ := described
  rw [FamilyDraft.ofValue, entries, ← ofDrafts_eq]
  change (required es "max_arity" >>= _) = _
  rw [maxArity]
  change (itemsUnder es "members" >>= _) = _
  rw [under]
  change (items.mapM Draft.ofValue >>= _) = _
  rw [drafts]
  rfl

theorem ofValue_judges {v : Value} (described : Describes v bound ms) :
    Judges (FamilyDraft.ofValue v) (Ruled bound ms) (Untold bound ms) := by
  rw [ofValue_eq_ofMembers described]
  refine (ofMembers_judges bound ms).congr ?_ fun e => ?_ <;>
    cases ofMembers bound ms <;> simp [Except.map]

/-! ## Arities and members -/

variable {f : Family} {m : Member}

theorem get?_eq_some_iff {n : Int} : f.get? n = some m ↔ m ∈ f.members ∧ m.arity = n := by
  refine ⟨fun found => ⟨mem_of_get? found, arity_of_get? found⟩, ?_⟩
  rintro ⟨mem, rfl⟩
  exact get?_arity mem

theorem get?_eq_none_iff {n : Int} : f.get? n = none ↔ ¬(0 ≤ n ∧ n ≤ f.maxArity) := by
  constructor
  · rintro absent ⟨pos, le⟩
    obtain ⟨m, -, found, -⟩ := exists_get? pos le
    rw [absent] at found
    cases found
  · intro outside
    cases found : f.get? n with
    | none => rfl
    | some m =>
      obtain ⟨mem, rfl⟩ := get?_eq_some_iff.1 found
      exact absurd (arity_bounds mem) outside

theorem successor?_eq_none_iff (mem : m ∈ f.members) :
    f.successor? m = none ↔ m.isTerminal = true := by
  have bounds := arity_bounds mem
  rw [successor?, get?_eq_none_iff, isTerminal_eq mem, beq_iff_eq]
  omega

theorem null_cons_proper (f : Family) : f.null :: f.proper = f.members := by
  rw [proper, List.drop_one, null, List.cons_head_tail]

/-- Arities and members of a family determine each other. -/
structure Indexed (f : Family) : Prop where
  held : ∀ n : Int, 0 ≤ n → n ≤ f.maxArity →
    ∃ m, f.get? n = some m ∧ ∀ m', m' ∈ f.members ∧ m'.arity = n ↔ m' = m
  absent : ∀ n : Int, ¬(0 ≤ n ∧ n ≤ f.maxArity) → f.get? n = none
  successor : ∀ m ∈ f.members, f.successor? m = none ↔ m.isTerminal = true
  terminal : ∃ m ∈ f.members, ∀ m' ∈ f.members, m'.isTerminal = true ↔ m' = m
  null : f.null.arity = 0
  whole : f.null :: f.proper = f.members

theorem indexed (f : Family) : f.Indexed where
  held n pos le := by
    obtain ⟨m, -, found, -⟩ := exists_get? pos le
    refine ⟨m, found, fun m' => ?_⟩
    rw [← get?_eq_some_iff, found, Option.some.injEq, eq_comm]
  absent n := get?_eq_none_iff.2
  successor m := successor?_eq_none_iff
  terminal := by
    have pos := List.length_pos_iff.2 f.members_ne_nil
    have length := length_members f
    obtain ⟨m, mem, found, -⟩ := exists_terminal? (f := f) (by omega)
    refine ⟨m, mem, fun m' mem' => ?_⟩
    have own : m'.arity = f.maxArity ↔ f.get? f.maxArity = some m' := by
      simp [get?_eq_some_iff, mem']
    rw [isTerminal_eq mem', beq_iff_eq, own, ← terminal?, found, Option.some.injEq, eq_comm]
  null := by
    have pos := List.length_pos_iff.2 f.members_ne_nil
    rw [Family.null, List.head_eq_getElem, arity_getElem f pos]
    rfl
  whole := null_cons_proper f

/-- Members and families are accepted exactly if they keep the rules, and families of documents like
those of members. What breaks a rule is reported as inconsistent unless a number of too many digits
would have to be told. In a family arities and members determine each other. -/
theorem rules_decide (bound : Int) (ms : List Member) :
    (∀ m : Member, Judges m.validate m.Consistent m.Untold) ∧
    Judges (ofMembers bound ms) (Ruled bound ms) (Untold bound ms) ∧
    (Untold bound ms → ∃ n ∈ bound :: ms.map (·.arity), (Value.int n).hasText = false) ∧
    (∀ f, ofMembers bound ms = .ok f ↔ f.maxArity = bound ∧ f.members = ms) ∧
    (∀ v, Describes v bound ms →
      Judges (FamilyDraft.ofValue v) (Ruled bound ms) (Untold bound ms) ∧
      FamilyDraft.ofValue v = (ofMembers bound ms).map FamilyDraft.ofFamily) ∧
    ∀ f : Family, f.Indexed :=
  ⟨Member.judges_validate, ofMembers_judges bound ms, Untold.exists_wide,
    fun _ => ofMembers_eq_ok_iff,
    fun _ described => ⟨ofValue_judges described, ofValue_eq_ofMembers described⟩, indexed⟩

/-- A null member that is terminal. -/
def loneNull : Member where
  arity := 0
  interfaceName := "Tuple0"
  className := "NullTuple"
  extension := .overflow

/-- Under a bound of too many digits it breaks a rule that cannot be told. -/
theorem untold_loneNull {bound : Int} (pos : 0 < bound)
    (wide : (Value.int bound).hasText = false) : Untold bound [loneNull] := by
  have off : ([loneNull].length : Int) ≠ bound + 1 := by
    show ((1 : Nat) : Int) ≠ bound + 1
    omega
  exact .bound nofun (by simp [loneNull]) off (.inr wide)

/-- Alone, the null member makes the family of bound 0, and no members are reported. A bound of too
many digits is not, since the report would have to tell it. -/
theorem loneNull_documents :
    (∃ d, FamilyDraft.ofValue (documentOf 0 [loneNull]) = .ok d) ∧
    FailsWith (.report .inconsistentModel) (FamilyDraft.ofValue (documentOf 0 [])) ∧
    FamilyDraft.ofValue (documentOf (Value.widestWhole + 1) [loneNull]) = .error .unwritable := by
  have judged (bound : Int) (ms : List Member) :
      Judges (FamilyDraft.ofValue (documentOf bound ms)) (Ruled bound ms) (Untold bound ms) := by
    obtain ⟨-, -, -, -, documents, -⟩ := rules_decide bound ms
    exact (documents _ (describes_documentOf bound ms)).1
  refine ⟨(judged 0 _).accepts.2 ⟨nofun, rfl, by simp [loneNull, Member.isTerminal]⟩,
    (judged 0 _).reports.2 ⟨fun ruled => ruled.some rfl, ?_⟩, (judged _ _).speechless.2 ?_⟩
  · rintro (⟨i, lt, -⟩ | ⟨some, -⟩)
    · simp at lt
    · exact some rfl
  · have nonneg := Int.natCast_nonneg Value.widestWhole
    refine untold_loneNull (by omega) ?_
    rw [Value.hasText, decide_eq_false_iff_not]
    omega

end Family
end Polyad
