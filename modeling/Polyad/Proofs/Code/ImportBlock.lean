import Polyad.Code.ImportBlock
import Polyad.Text.Identifier

/-!
# Names of an import block

The import block of a file has a line for each module that the file or a part of it asks for, with
all the names asked for. Putting the lines in order never fails, because each line has a second word
to sort by, and neither that nor grouping them loses one.
-/

namespace Polyad.Text

/-- A path that starts with a point is not dotted, since nothing stands before the point. -/
theorem isDottedPath_relative (s : String) : isDottedPath ("." ++ s) = false := by
  have chars : ("." ++ s).toList = [] ++ '.' :: s.toList := by simp
  rw [isDottedPath, dotParts, chars, List.splitOn_append_cons_self, List.splitOn_nil]
  rfl

end Polyad.Text

namespace Polyad.Code

theorem words_append (s t : String) :
    Text.words (s ++ " " ++ t) = Text.words s ++ Text.words t := by
  have blank : Text.isBlank ' ' = true := by decide
  have chars : (s ++ " " ++ t).toList = s.toList ++ ' ' :: t.toList := by simp
  rw [Text.words, chars, List.splitOnP_append_cons _ _ blank, List.filter_append, List.map_append]
  rfl

/-- The names that an import binds: a whole module is bound by the first part of its path. -/
def Import.bound (i : Import) : List String :=
  match i.name with
  | some n => [n]
  | none => (Text.dotParts i.path).take 1

namespace ImportLine

/-- The names that an import line binds. -/
def bound (l : ImportLine) : List String :=
  match l.names with
  | some names => names
  | none => (Text.dotParts l.path).take 1

/-- A line has a key if it takes names or is about a module with a path. -/
theorem exists_key {l : ImportLine} (h : l.names = none → Text.words l.path ≠ []) :
    ∃ k, l.key = .ok k := by
  have second : ∀ s t : String, Text.words s ≠ [] → Text.words t ≠ [] → l.text = s ++ " " ++ t →
      ∃ k, l.key = .ok k := by
    intro s t hs ht text
    obtain ⟨a, as, first⟩ := List.exists_cons_of_ne_nil hs
    obtain ⟨b, bs, rest⟩ := List.exists_cons_of_ne_nil ht
    rw [key, text, words_append, first, rest]
    cases as with
    | nil => exact ⟨b, rfl⟩
    | cons c cs => exact ⟨c, rfl⟩
  cases names : l.names with
  | none =>
    refine second "import" l.path (by decide) (h names) ?_
    rw [ImportLine.text, names]
    rfl
  | some ns =>
    have there : Text.words "import" ≠ [] := by decide
    refine second "from" (l.path ++ " " ++ ("import" ++ " " ++ ", ".intercalate ns)) (by decide)
      ?_ ?_
    · rw [words_append, words_append]
      simp [there]
    · rw [ImportLine.text, names]
      exact String.toList_inj.1 (by simp)

theorem mem_sortedOnce {xs : List String} {s : String} : s ∈ sortedOnce xs ↔ s ∈ xs := by
  rw [sortedOnce, List.mem_eraseDups, List.mem_mergeSort]

theorem mem_ofImports_iff {imports : List Import} {l : ImportLine} :
    l ∈ ofImports imports ↔
      (∃ i ∈ imports, i.name = none ∧ l = ⟨i.path, none⟩) ∨
      (∃ i ∈ imports, i.name ≠ none ∧ l = ⟨i.path, some (sortedOnce
        (((imports.filter (·.name.isSome)).filter (·.path == i.path)).filterMap (·.name)))⟩) := by
  simp only [ofImports, List.mem_append, List.mem_map, mem_sortedOnce, List.mem_filter,
    Option.isNone_iff_eq_none, Option.isSome_iff_ne_none]
  constructor
  · rintro (⟨path, ⟨i, ⟨mem, bare⟩, rfl⟩, rfl⟩ | ⟨path, ⟨i, ⟨mem, named⟩, rfl⟩, rfl⟩)
    · exact .inl ⟨i, mem, bare, rfl⟩
    · exact .inr ⟨i, mem, named, rfl⟩
  · rintro (⟨i, mem, bare, rfl⟩ | ⟨i, mem, named, rfl⟩)
    · exact .inl ⟨i.path, ⟨i, ⟨mem, bare⟩, rfl⟩, rfl⟩
    · exact .inr ⟨i.path, ⟨i, ⟨mem, named⟩, rfl⟩, rfl⟩

theorem mem_taken_iff {imports : List Import} {path name : String} :
    name ∈ sortedOnce
        (((imports.filter (·.name.isSome)).filter (·.path == path)).filterMap (·.name)) ↔
      ∃ i ∈ imports, i.path = path ∧ i.name = some name := by
  simp only [mem_sortedOnce, List.mem_filterMap, List.mem_filter, beq_iff_eq]
  constructor
  · rintro ⟨i, ⟨⟨mem, -⟩, eq⟩, named⟩
    exact ⟨i, mem, eq, named⟩
  · rintro ⟨i, mem, eq, named⟩
    exact ⟨i, ⟨⟨mem, by rw [named]; rfl⟩, eq⟩, named⟩

/-- The lines of some imports bind, for each module, what the imports do. -/
theorem exists_bound_ofImports_iff {imports : List Import} {path name : String} :
    (∃ l ∈ ofImports imports, l.path = path ∧ name ∈ l.bound) ↔
      ∃ i ∈ imports, i.path = path ∧ name ∈ i.bound := by
  constructor
  · rintro ⟨l, mem, rfl, bound⟩
    rcases mem_ofImports_iff.1 mem with ⟨i, hi, bare, rfl⟩ | ⟨i, hi, -, rfl⟩
    · refine ⟨i, hi, rfl, ?_⟩
      rw [Import.bound, bare]
      exact bound
    · obtain ⟨j, hj, eq, named⟩ := mem_taken_iff.1 bound
      refine ⟨j, hj, eq, ?_⟩
      rw [Import.bound, named]
      exact List.mem_singleton_self name
  · rintro ⟨i, hi, rfl, bound⟩
    cases named : i.name with
    | none =>
      rw [Import.bound, named] at bound
      exact ⟨⟨i.path, none⟩, mem_ofImports_iff.2 (.inl ⟨i, hi, named, rfl⟩), rfl, bound⟩
    | some n =>
      rw [Import.bound, named, List.mem_singleton] at bound
      have taken := mem_taken_iff.2 ⟨i, hi, rfl, bound ▸ named⟩
      exact ⟨_, mem_ofImports_iff.2 (.inr ⟨i, hi, by simp [named], rfl⟩), rfl, taken⟩

/-- Lines that all have keys can be put in order, and none is lost. -/
theorem exists_sortByKey {ls : List ImportLine} (keyed : ∀ l ∈ ls, ∃ k, l.key = .ok k) :
    ∃ sorted, sortByKey ls = .ok sorted ∧ ∀ l, l ∈ sorted ↔ l ∈ ls := by
  have pairs : ls.mapM (fun l => return (← l.key, l)) =
      Except.ok (ls.map fun l => (Error.got l.key, l)) := by
    refine Error.mapM_eq_ok fun l mem => ?_
    exact Error.bind_eq_ok_iff.2 ⟨_, Error.eq_ok_got (keyed l mem), rfl⟩
  refine ⟨_, Error.bind_eq_ok_iff.2 ⟨_, pairs, rfl⟩, fun l => ?_⟩
  simp [List.mem_mergeSort]

end ImportLine

/-- The import block of imports of modules with paths, as far as they are of whole modules. -/
theorem exists_importGroups {imports : List Import}
    (bare : ∀ i ∈ imports, i.name = none → Text.words i.path ≠ []) :
    ∃ groups, importGroups imports = .ok groups ∧
      ∀ l, l ∈ groups.flatten ↔ l ∈ ImportLine.ofImports imports := by
  have keyed : ∀ l ∈ ImportLine.ofImports imports, ∃ k, l.key = .ok k := by
    intro l mem
    refine ImportLine.exists_key fun whole => ?_
    rcases ImportLine.mem_ofImports_iff.1 mem with ⟨i, hi, name, rfl⟩ | ⟨i, -, -, rfl⟩
    · exact bare i hi name
    · cases whole
  have each : ∀ g : ImportLine.Group,
      ∃ sorted, ImportLine.sortByKey ((ImportLine.ofImports imports).filter (·.group == g)) =
        .ok sorted ∧ ∀ l, l ∈ sorted ↔ l ∈ ImportLine.ofImports imports ∧ l.group = g := by
    intro g
    have some : ∀ l ∈ (ImportLine.ofImports imports).filter (·.group == g), ∃ k, l.key = .ok k :=
      fun l mem => keyed l (List.mem_filter.1 mem).1
    obtain ⟨sorted, eq, same⟩ := ImportLine.exists_sortByKey some
    exact ⟨sorted, eq, fun l => by rw [same, List.mem_filter, beq_iff_eq]⟩
  have made : ImportLine.Group.all.mapM (fun g =>
      ImportLine.sortByKey ((ImportLine.ofImports imports).filter (·.group == g))) =
        .ok (ImportLine.Group.all.map fun g => Error.got
          (ImportLine.sortByKey ((ImportLine.ofImports imports).filter (·.group == g)))) := by
    refine Error.mapM_eq_ok fun g _ => ?_
    obtain ⟨sorted, eq, -⟩ := each g
    exact Error.eq_ok_got ⟨sorted, eq⟩
  refine ⟨_, Error.bind_eq_ok_iff.2 ⟨_, made, rfl⟩, fun l => ?_⟩
  rw [List.flatten_filter_not_isEmpty, List.mem_flatten]
  constructor
  · rintro ⟨group, mem, own⟩
    obtain ⟨g, -, rfl⟩ := List.mem_map.1 mem
    obtain ⟨sorted, eq, same⟩ := each g
    rw [eq] at own
    exact ((same l).1 own).1
  · intro mem
    obtain ⟨sorted, eq, same⟩ := each l.group
    have known : l.group ∈ ImportLine.Group.all := by cases l.group <;> decide
    refine ⟨_, List.mem_map_of_mem known, ?_⟩
    rw [eq]
    exact (same l).2 ⟨mem, rfl⟩

theorem File.mem_collectImports {f : File} {i : Import} :
    i ∈ f.collectImports ↔ i ∈ f.allImports := by
  rw [collectImports, List.mem_eraseDups, List.mem_mergeSort]

end Polyad.Code
