import Mathlib.Data.List.Sort
import Polyad.Proofs.Code.Anchor

/-!
# Reading an import block

An import line is read word by word: behind `import` stands a module, behind `from` a module and,
behind a second `import`, the names taken from it with commas between them. Reading a whole block
gives back the imports that it was made for, each once. The block is made of four groups of lines,
each in order of its modules, and is the same for every list of the same imports.
-/

namespace Polyad

namespace Text

/-! ## Words -/

/-- A text that is one word. -/
def Solid (s : String) : Prop := s ≠ "" ∧ ∀ c ∈ s.toList, isBlank c = false

theorem words_of_solid {s : String} (h : Solid s) : words s = [s] := by
  have whole : s.toList.splitOnP isBlank = [s.toList] :=
    List.splitOnP_eq_singleton fun c mem => by simp [h.2 c mem]
  have ne : s.toList ≠ [] := mt String.toList_eq_nil_iff.1 h.1
  rw [words, whole]
  simp [ne]

theorem solid_of_path {s : String} (h : isModulePath s) : Solid s := by
  refine ⟨?_, fun c mem => ?_⟩
  · rintro rfl
    cases h
  · rcases isNamePart_of_mem_path h mem with rfl | part
    · decide
    · exact isBlank_eq_false_of_isNamePart part

theorem Solid.append_comma {s : String} (h : Solid s) : Solid (s ++ ",") := by
  refine ⟨by simp [h.1], fun c mem => ?_⟩
  rw [String.toList_append, List.mem_append] at mem
  rcases mem with own | comma
  · exact h.2 c own
  · rw [List.mem_singleton.1 comma]
    decide

/-- Put together again, the words of a list of words have nothing but commas between them. -/
theorem concat_words_intercalate {ns : List String} (solid : ∀ n ∈ ns, Solid n) :
    "".intercalate (words (", ".intercalate ns)) = ",".intercalate ns := by
  induction ns with
  | nil => decide
  | cons n ns ih =>
    obtain ⟨first, rest⟩ := List.forall_mem_cons.1 solid
    cases ns with
    | nil => simp [words_of_solid first]
    | cons m ms =>
      have cut : ", ".intercalate (n :: m :: ms) =
          (n ++ ",") ++ " " ++ ", ".intercalate (m :: ms) := by
        rw [String.intercalate_cons_cons]
        exact String.toList_inj.1 (by simp)
      rw [cut, Code.words_append, words_of_solid first.append_comma, List.singleton_append,
        concat_cons, ih rest, String.intercalate_cons_cons]

/-- The pieces of a text between its commas. -/
def commaParts (s : String) : List String := (s.toList.splitOn ',').map String.ofList

theorem commaParts_intercalate {ns : List String} (apart : ∀ n ∈ ns, ',' ∉ n.toList)
    (ne : ns ≠ []) : commaParts (",".intercalate ns) = ns := by
  have lists : ∀ cs ∈ ns.map String.toList, ',' ∉ cs := by simpa using apart
  have cut := List.splitOn_intercalate ',' lists (by simpa using ne)
  rw [commaParts, String.toList_intercalate]
  change (List.splitOn ',' ([','].intercalate _)).map _ = _
  rw [cut, List.map_map]
  exact (List.map_congr_left fun l _ => String.ofList_toList).trans (List.map_id ns)

end Text

namespace Code

open Text

/-! ## Reading a line -/

/-- The imports that a line asks for; any other line asks for none. -/
def readImportLine (line : String) : List Import :=
  match Text.words line with
  | ["import", path] => [⟨path, none⟩]
  | "from" :: path :: "import" :: rest =>
    (commaParts ("".intercalate rest)).map fun n => ⟨path, some n⟩
  | _ => []

example : readImportLine "from .shapes import Square, Circle" =
    [⟨".shapes", some "Square"⟩, ⟨".shapes", some "Circle"⟩] := by decide +kernel

namespace ImportLine

/-- The imports that a line is made for. -/
def imports (l : ImportLine) : List Import :=
  match l.names with
  | none => [⟨l.path, none⟩]
  | some names => Import.several l.path names

variable {l : ImportLine}

theorem words_text_whole {path : String} (solid : Solid path) :
    Text.words (text ⟨path, none⟩) = ["import", path] := by
  have shape : text ⟨path, none⟩ = "import" ++ " " ++ path := rfl
  rw [shape, words_append, words_of_solid solid]
  rfl

theorem words_text_names {path : String} {names : List String} (solid : Solid path) :
    Text.words (text ⟨path, some names⟩) =
      "from" :: path :: "import" :: Text.words (", ".intercalate names) := by
  have shape : text ⟨path, some names⟩ =
      "from" ++ " " ++ path ++ " " ++ "import" ++ " " ++ ", ".intercalate names :=
    String.toList_inj.1 (by simp [text])
  rw [shape, words_append, words_append, words_append, words_of_solid solid]
  rfl

theorem path_of_isWellNamed (named : l.isWellNamed) : isModulePath l.path := by
  rw [isWellNamed, Bool.and_eq_true] at named
  exact named.1

theorem isModulePath_of_mem (named : l.isWellNamed) {ns : List String} (taken : l.names = some ns)
    {n : String} (mem : n ∈ ns) : isModulePath n := by
  rw [isWellNamed, Bool.and_eq_true, taken] at named
  exact List.all_eq_true.1 named.2 n mem

/-- A line is read as what it was made for. -/
theorem readImportLine_text (named : l.isWellNamed) (taken : l.names ≠ some []) :
    readImportLine l.text = l.imports := by
  have solid := solid_of_path (path_of_isWellNamed named)
  obtain ⟨path, names⟩ := l
  cases names with
  | none =>
    rw [readImportLine, words_text_whole solid]
    rfl
  | some ns =>
    have paths := fun n mem => isModulePath_of_mem named rfl (n := n) mem
    have apart : ∀ n ∈ ns, ',' ∉ n.toList := by
      intro n mem comma
      rcases isNamePart_of_mem_path (paths n mem) comma with eq | part
      · revert eq
        decide
      · revert part
        decide
    rw [readImportLine, words_text_names solid]
    show (commaParts _).map _ = Import.several path ns
    rw [concat_words_intercalate fun n mem => solid_of_path (paths n mem),
      commaParts_intercalate apart (by simpa using taken)]
    rfl

/-- A line of identifiers is sorted by its module. -/
theorem key_eq (named : l.isWellNamed) : l.key = .ok l.path := by
  have solid := solid_of_path (path_of_isWellNamed named)
  obtain ⟨path, names⟩ := l
  cases names with
  | none => rw [key, words_text_whole solid]
  | some ns => rw [key, words_text_names solid]

end ImportLine

/-! ## Sorting -/

section Sorting

variable {α : Type} (f : α → String)

theorem le_by_trans (a b c : α) (ab : decide (f a ≤ f b) = true) (bc : decide (f b ≤ f c) = true) :
    decide (f a ≤ f c) = true :=
  decide_eq_true (String.le_trans (of_decide_eq_true ab) (of_decide_eq_true bc))

theorem le_by_total (a b : α) : (decide (f a ≤ f b) || decide (f b ≤ f a)) = true := by
  simpa using String.le_total (f a) (f b)

theorem pairwise_sorted_by (xs : List α) :
    (xs.mergeSort fun a b => f a ≤ f b).Pairwise fun a b => f a ≤ f b :=
  (List.pairwise_mergeSort (le_by_trans f) (le_by_total f) xs).imp of_decide_eq_true

/-- Sorting is stable: what has the same key stays in the order in which it stood. -/
theorem filter_sorted_by (xs : List α) (key : String) :
    (xs.mergeSort fun a b => f a ≤ f b).filter (f · == key) = xs.filter (f · == key) := by
  have alike : (xs.filter (f · == key)).Pairwise fun a b => decide (f a ≤ f b) = true := by
    refine List.pairwise_of_forall_mem_list fun a ha b hb => decide_eq_true ?_
    rw [List.mem_filter, beq_iff_eq] at ha hb
    have same : f a = f b := ha.2.trans hb.2.symm
    exact same ▸ String.le_refl (f a)
  have kept := List.sublist_mergeSort (le_by_trans f) (le_by_total f) alike List.filter_sublist
  have within := kept.filter (f · == key)
  simp only [List.filter_filter, Bool.and_self] at within
  refine (within.eq_of_length ?_).symm
  exact ((List.mergeSort_perm xs _).filter _).length_eq.symm

end Sorting

theorem pairwise_eraseDups {xs : List String} (sorted : xs.Pairwise (· ≤ ·)) :
    xs.eraseDups.Pairwise (· < ·) := by
  cases xs with
  | nil => exact .nil
  | cons x xs =>
    obtain ⟨least, sorted⟩ := List.pairwise_cons.1 sorted
    have rest := pairwise_eraseDups (sorted.filter fun y => !y == x)
    rw [List.eraseDups_cons, List.pairwise_cons]
    refine ⟨fun y mem => ?_, rest⟩
    obtain ⟨there, ne⟩ := List.mem_filter.1 (List.mem_eraseDups.1 mem)
    have ne : y ≠ x := by simpa using ne
    exact String.not_le.1 fun le => ne (String.le_antisymm le (least y there))
termination_by xs.length
decreasing_by
  subst_vars
  exact Nat.lt_succ_of_le (List.length_filter_le ..)

theorem pairwise_sortedOnce (xs : List String) : (sortedOnce xs).Pairwise (· < ·) :=
  pairwise_eraseDups (pairwise_sorted_by id xs)

/-- Putting texts in order, each once, forgets how they were given. -/
theorem sortedOnce_congr {xs ys : List String} (same : ∀ s, s ∈ xs ↔ s ∈ ys) :
    sortedOnce xs = sortedOnce ys :=
  (pairwise_sortedOnce xs).eq_of_mem_iff (pairwise_sortedOnce ys) fun s => by
    rw [ImportLine.mem_sortedOnce, ImportLine.mem_sortedOnce, same]

namespace ImportLine

/-! ## The lines of some imports -/

/-- The lines that some imports need are those of any other list of the same imports. -/
theorem ofImports_congr {xs ys : List Import} (same : ∀ i, i ∈ xs ↔ i ∈ ys) :
    ofImports xs = ofImports ys := by
  have whole : sortedOnce ((xs.filter (·.name.isNone)).map (·.path)) =
      sortedOnce ((ys.filter (·.name.isNone)).map (·.path)) := sortedOnce_congr (by simp [same])
  have named : sortedOnce ((xs.filter (·.name.isSome)).map (·.path)) =
      sortedOnce ((ys.filter (·.name.isSome)).map (·.path)) := sortedOnce_congr (by simp [same])
  have taken (path : String) :
      sortedOnce (((xs.filter (·.name.isSome)).filter (·.path == path)).filterMap (·.name)) =
        sortedOnce (((ys.filter (·.name.isSome)).filter (·.path == path)).filterMap (·.name)) :=
    sortedOnce_congr (by simp [same])
  simp only [ofImports, whole, named, taken]

/-- The lines stand for the imports that they were made from. -/
theorem exists_mem_imports_iff {xs : List Import} {i : Import} :
    (∃ l ∈ ofImports xs, i ∈ l.imports) ↔ i ∈ xs := by
  constructor
  · rintro ⟨l, mem, own⟩
    rcases mem_ofImports_iff.1 mem with ⟨j, there, whole, rfl⟩ | ⟨j, -, -, rfl⟩
    · obtain rfl : i = ⟨j.path, none⟩ := by simpa [imports] using own
      rwa [← whole]
    · obtain ⟨n, taken, rfl⟩ := List.mem_map.1 own
      obtain ⟨k, there, path, name⟩ := mem_taken_iff.1 taken
      rwa [← path, ← name]
  · intro mem
    cases name : i.name with
    | none =>
      refine ⟨_, mem_ofImports_iff.2 (.inl ⟨i, mem, name, rfl⟩), ?_⟩
      simp [imports, ← name]
    | some n =>
      refine ⟨_, mem_ofImports_iff.2 (.inr ⟨i, mem, by simp [name], rfl⟩), ?_⟩
      refine List.mem_map.2 ⟨n, mem_taken_iff.2 ⟨i, mem, rfl, name⟩, ?_⟩
      rw [← name]

/-- A line that takes names takes some, in order and each once. -/
theorem names_of_mem {xs : List Import} {l : ImportLine} (mem : l ∈ ofImports xs)
    {ns : List String} (names : l.names = some ns) : ns ≠ [] ∧ ns.Pairwise (· < ·) := by
  rcases mem_ofImports_iff.1 mem with ⟨j, -, -, rfl⟩ | ⟨j, there, named, rfl⟩
  · cases names
  · cases names
    obtain ⟨n, name⟩ := Option.ne_none_iff_exists'.1 named
    exact ⟨List.ne_nil_of_mem (mem_taken_iff.2 ⟨j, there, rfl, name⟩), pairwise_sortedOnce _⟩

/-- The order of the lines of a group: by module, a whole module before its names. -/
def Before (a b : ImportLine) : Prop :=
  a.path < b.path ∨ a.path = b.path ∧ a.names = none ∧ b.names ≠ none

/-- Two lines of one module are one for the whole of it and one for names, in this order. -/
theorem pairwise_ofImports (xs : List Import) :
    (ofImports xs).Pairwise fun a b => a.path = b.path → a.names = none ∧ b.names ≠ none := by
  have apart {ps : List String} (sorted : ps.Pairwise (· < ·)) (make : String → ImportLine)
      (path : ∀ p, (make p).path = p) :
      (ps.map make).Pairwise fun a b => a.path = b.path → a.names = none ∧ b.names ≠ none := by
    refine List.pairwise_map.2 (sorted.imp fun {a b} lt eq => ?_)
    rw [path, path] at eq
    exact absurd (eq ▸ lt) (String.lt_irrefl b)
  refine List.pairwise_append.2 ⟨apart (pairwise_sortedOnce _) _ fun _ => rfl,
    apart (pairwise_sortedOnce _) _ fun _ => rfl, fun a ha b hb _ => ?_⟩
  obtain ⟨p, -, rfl⟩ := List.mem_map.1 ha
  obtain ⟨q, -, rfl⟩ := List.mem_map.1 hb
  exact ⟨rfl, nofun⟩

/-- The lines of a group among those of some imports, in order of their modules. -/
def linesOf (xs : List Import) (g : Group) : List ImportLine :=
  ((ofImports xs).filter (·.group == g)).mergeSort fun a b => a.path ≤ b.path

theorem mem_linesOf {xs : List Import} {g : Group} {l : ImportLine} :
    l ∈ linesOf xs g ↔ l ∈ ofImports xs ∧ l.group = g := by
  rw [linesOf, List.mem_mergeSort, List.mem_filter, beq_iff_eq]

theorem pairwise_linesOf (xs : List Import) (g : Group) : (linesOf xs g).Pairwise Before := by
  have ties := (pairwise_ofImports xs).filter (·.group == g)
  refine List.pairwise_iff_forall_sublist.2 fun {a b} sub => ?_
  have le := List.pairwise_iff_forall_sublist.1 (pairwise_sorted_by ImportLine.path _) sub
  by_cases eq : a.path = b.path
  · have pair := sub.filter (·.path == b.path)
    rw [linesOf, filter_sorted_by ImportLine.path] at pair
    have pair := pair.trans List.filter_sublist
    rw [List.filter_cons_of_pos (by simpa using eq), List.filter_cons_of_pos (by simp),
      List.filter_nil] at pair
    exact .inr ⟨eq, List.pairwise_iff_forall_sublist.1 ties pair eq⟩
  · exact .inl (String.not_le.1 fun ge => eq (String.le_antisymm le ge))

/-- A line of names and one for the whole of a module, or of two modules, differ in what they are
about. -/
def subject (l : ImportLine) : String × Bool := (l.path, l.names.isNone)

theorem subject_ne_of_before {a b : ImportLine} (before : Before a b) : a.subject ≠ b.subject := by
  intro eq
  obtain ⟨path, whole⟩ := Prod.mk.injEq .. ▸ eq
  rcases before with lt | ⟨-, none, some⟩
  · exact String.lt_irrefl _ (path ▸ lt)
  · rw [none] at whole
    exact some (Option.isNone_iff_eq_none.1 whole.symm)

/-- No two lines of all groups are about the same. -/
theorem nodup_subjects (xs : List Import) :
    ((Group.all.flatMap (linesOf xs)).map subject).Nodup := by
  refine List.pairwise_map.2 (List.pairwise_flatMap.2 ⟨fun g _ => ?_, ?_⟩)
  · exact (pairwise_linesOf xs g).imp subject_ne_of_before
  · have distinct : Group.all.Nodup := by decide
    refine distinct.imp fun {g k} ne a ha b hb eq => ne ?_
    have path : a.path = b.path := congrArg Prod.fst eq
    rw [← (mem_linesOf.1 ha).2, ← (mem_linesOf.1 hb).2, group, group, path]

theorem mem_allLines_iff {xs : List Import} {l : ImportLine} :
    l ∈ Group.all.flatMap (linesOf xs) ↔ l ∈ ofImports xs := by
  simp only [List.mem_flatMap, mem_linesOf]
  have known : l.group ∈ Group.all := by cases l.group <;> decide
  exact ⟨fun ⟨_, _, mem, _⟩ => mem, fun mem => ⟨l.group, known, mem, rfl⟩⟩

theorem subject_of_mem_imports {l : ImportLine} {i : Import} (mem : i ∈ l.imports) :
    l.subject = (i.path, i.name.isNone) := by
  obtain ⟨path, names⟩ := l
  cases names with
  | none =>
    obtain rfl := List.mem_singleton.1 mem
    rfl
  | some ns =>
    obtain ⟨n, -, rfl⟩ := List.mem_map.1 mem
    rfl

/-- All lines together stand for each import once. -/
theorem nodup_imports (xs : List Import) :
    ((Group.all.flatMap (linesOf xs)).flatMap imports).Nodup := by
  refine List.nodup_flatMap.2 ⟨fun l mem => ?_, ?_⟩
  · cases names : l.names with
    | none => simp [imports, names]
    | some ns =>
      have sorted := (names_of_mem (mem_allLines_iff.1 mem) names).2
      rw [imports, names]
      refine List.pairwise_map.2 (sorted.imp fun {a b} lt eq => ?_)
      cases eq
      exact String.lt_irrefl _ lt
  · refine (List.pairwise_map.1 (nodup_subjects xs)).imp fun {a b} ne i own their => ne ?_
    rw [subject_of_mem_imports own, subject_of_mem_imports their]

end ImportLine

/-! ## The block -/

/-- The lines of an import block: the groups that have lines, with an empty line between two. -/
def blockOf (own : ImportLine.Group → List ImportLine) : List String :=
  [""].intercalate
    (((ImportLine.Group.all.map own).filter (!·.isEmpty)).map (·.map ImportLine.text))

theorem sortByKey_eq {ls : List ImportLine} (named : ∀ l ∈ ls, l.isWellNamed) :
    ImportLine.sortByKey ls = .ok (ls.mergeSort fun a b => a.path ≤ b.path) := by
  have pairs : ls.mapM (fun l => return (← l.key, l)) =
      Except.ok (ls.map fun l => (l.path, l)) :=
    Error.mapM_eq_ok fun l mem =>
      Error.bind_eq_ok_iff.2 ⟨_, ImportLine.key_eq (named l mem), rfl⟩
  refine Error.bind_eq_ok_iff.2 ⟨_, pairs, congrArg Except.ok ?_⟩
  rw [← List.map_mergeSort (f := fun l : ImportLine => (l.path, l))
    (r := fun a b => decide (a.path ≤ b.path)) fun _ _ _ _ => rfl, List.map_map]
  exact List.map_id _

theorem renderImports_eq {xs : List Import} (named : ∀ i ∈ xs, i.isWellNamed) :
    renderImports xs = .ok (blockOf (ImportLine.linesOf xs)) := by
  have each : ImportLine.Group.all.mapM (fun g => ImportLine.sortByKey
      ((ImportLine.ofImports xs).filter (·.group == g))) =
        .ok (ImportLine.Group.all.map (ImportLine.linesOf xs)) :=
    Error.mapM_eq_ok fun g _ => sortByKey_eq fun l mem =>
      ImportLine.isWellNamed_of_mem named (List.mem_filter.1 mem).1
  have groups : importGroups xs = .ok _ := Error.bind_eq_ok_iff.2 ⟨_, each, rfl⟩
  exact Error.bind_eq_ok_iff.2 ⟨_, groups, rfl⟩

/-- An import block is that of any other list of the same imports. -/
theorem renderImports_congr {xs ys : List Import} (same : ∀ i, i ∈ xs ↔ i ∈ ys) :
    renderImports xs = renderImports ys := by
  rw [renderImports, importGroups, ImportLine.ofImports_congr same]
  rfl

/-- What a function finds in parts put together is what it finds in the parts, as long as it finds
nothing in what is put between them. -/
theorem flatMap_intercalate {α β : Type} {x : α} {f : α → List β} (none : f x = [])
    (ls : List (List α)) : ([x].intercalate ls).flatMap f = ls.flatten.flatMap f := by
  induction ls with
  | nil => rfl
  | cons l ls ih =>
    cases ls with
    | nil => simp
    | cons m ms =>
      rw [List.intercalate_cons_cons, List.flatMap_append, List.flatMap_append, ih,
        List.flatMap_singleton, none, List.append_nil]
      simp

/-- Reading a block back gives what its lines were made for. -/
theorem flatMap_readImportLine_blockOf {own : ImportLine.Group → List ImportLine}
    (named : ∀ g, ∀ l ∈ own g, l.isWellNamed ∧ l.names ≠ some []) :
    (blockOf own).flatMap readImportLine =
      (ImportLine.Group.all.flatMap own).flatMap ImportLine.imports := by
  have blank : readImportLine "" = [] := by decide
  rw [blockOf, flatMap_intercalate blank, ← List.map_flatten, List.flatten_filter_not_isEmpty,
    List.flatMap_map, ← List.flatMap_def]
  refine List.flatMap_congr fun l mem => ?_
  obtain ⟨g, -, there⟩ := List.mem_flatMap.1 mem
  exact ImportLine.readImportLine_text (named g l there).1 (named g l there).2

/-- What the import block of some imports is like: four groups of lines, one after another with an
empty line between two that have lines. A group is in order of its modules, each of which has at
most one line for itself and, after it, one for its names, which are in order too. -/
structure IsBlockOf (xs : List Import) (own : ImportLine.Group → List ImportLine)
    (block : List String) : Prop where
  grouped : block = blockOf own
  kind : ∀ g, ∀ l ∈ own g, l.group = g
  ordered : ∀ g, (own g).Pairwise ImportLine.Before
  single : ((ImportLine.Group.all.flatMap own).map ImportLine.subject).Nodup
  increasing : ∀ g, ∀ l ∈ own g, ∀ ns, l.names = some ns → ns ≠ [] ∧ ns.Pairwise (· < ·)
  complete : ∀ i, i ∈ block.flatMap readImportLine ↔ i ∈ xs
  once : (block.flatMap readImportLine).Nodup

theorem isBlockOf_linesOf {xs : List Import} (named : ∀ i ∈ xs, i.isWellNamed) :
    IsBlockOf xs (ImportLine.linesOf xs) (blockOf (ImportLine.linesOf xs)) := by
  have increasing : ∀ g, ∀ l ∈ ImportLine.linesOf xs g, ∀ ns, l.names = some ns →
      ns ≠ [] ∧ ns.Pairwise (· < ·) := fun g l mem ns names =>
    ImportLine.names_of_mem (ImportLine.mem_linesOf.1 mem).1 names
  have tidy : ∀ g, ∀ l ∈ ImportLine.linesOf xs g, l.isWellNamed ∧ l.names ≠ some [] :=
    fun g l mem => ⟨ImportLine.isWellNamed_of_mem named (ImportLine.mem_linesOf.1 mem).1,
      fun names => (increasing g l mem [] names).1 rfl⟩
  have read := flatMap_readImportLine_blockOf tidy
  refine ⟨rfl, fun g l mem => (ImportLine.mem_linesOf.1 mem).2, ImportLine.pairwise_linesOf xs,
    ImportLine.nodup_subjects xs, increasing, fun i => ?_, ?_⟩
  · rw [read, List.mem_flatMap]
    simp only [ImportLine.mem_allLines_iff]
    exact ImportLine.exists_mem_imports_iff
  · rw [read]
    exact ImportLine.nodup_imports xs

end Code
end Polyad
