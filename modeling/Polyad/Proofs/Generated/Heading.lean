import Polyad.Proofs.Code.Modules
import Polyad.Proofs.Generated.Asked

/-!
# The first lines of generated files

Both files of a family start with an import of a future feature, whatever the module that supports
them is called. Hence rendering them never fails, and above that import stands the header alone.
-/

namespace Polyad

namespace Code

theorem ImportLine.mem_sortByKey {ls sorted : List ImportLine} (made : sortByKey ls = .ok sorted)
    (l : ImportLine) : l ∈ sorted ↔ l ∈ ls := by
  have keyed : ∀ l ∈ ls, ∃ k, l.key = .ok k := by
    intro l mem
    obtain ⟨pairs, run, -⟩ := Error.bind_eq_ok_iff.1 made
    obtain ⟨pair, own⟩ := Error.exists_of_mapM_eq_ok run l mem
    obtain ⟨k, key, -⟩ := Error.bind_eq_ok_iff.1 own
    exact ⟨k, key⟩
  obtain ⟨sorted', again, same⟩ := exists_sortByKey keyed
  rw [made] at again
  cases again
  exact same l

theorem ImportLine.group_eq_future {l : ImportLine} : l.group = .future ↔ l.path = "__future__" := by
  rw [group]
  split
  · next future => exact iff_of_true rfl (by simpa using future)
  · next other =>
    refine iff_of_false (fun future => ?_) (by simpa using other)
    split at future
    · cases future
    · split at future <;> cases future

/-- The first thing of the first part starts what is put together. -/
theorem exists_intercalate_head {α : Type} (sep : List α) (x : α) (xs : List α)
    (ls : List (List α)) : ∃ more, sep.intercalate ((x :: xs) :: ls) = x :: more := by
  cases ls with
  | nil => exact ⟨xs, by simp⟩
  | cons l ls =>
    rw [List.intercalate_cons_cons]
    exact ⟨_, rfl⟩

/-- If there is a line about future features, the block starts with one. -/
theorem exists_first_future {imports : List Import} {groups : List (List ImportLine)}
    (made : importGroups imports = .ok groups) {l : ImportLine}
    (mem : l ∈ ImportLine.ofImports imports) (future : l.path = "__future__") :
    ∃ first more, renderImports imports = .ok (ImportLine.text first :: more) ∧
      first ∈ ImportLine.ofImports imports ∧ first.path = "__future__" := by
  have rendered : renderImports imports =
      .ok ([""].intercalate (groups.map fun g => g.map ImportLine.text)) :=
    Error.bind_eq_ok_iff.2 ⟨groups, made, rfl⟩
  obtain ⟨all, run, filtered⟩ := Error.bind_eq_ok_iff.1 made
  rw [ImportLine.Group.all, List.mapM_cons] at run
  obtain ⟨futures, own, run⟩ := Error.bind_eq_ok_iff.1 run
  obtain ⟨others, -, run⟩ := Error.bind_eq_ok_iff.1 run
  cases run
  cases filtered
  have there := (ImportLine.mem_sortByKey own l).2
    (List.mem_filter.2 ⟨mem, by simpa using ImportLine.group_eq_future.2 future⟩)
  cases futures with
  | nil => cases there
  | cons first more =>
    obtain ⟨known, group⟩ := List.mem_filter.1
      ((ImportLine.mem_sortByKey own first).1 List.mem_cons_self)
    rw [List.filter_cons_of_pos (by simp), List.map_cons, List.map_cons] at rendered
    obtain ⟨tail, start⟩ := exists_intercalate_head [""] first.text (more.map ImportLine.text)
      ((others.filter (!·.isEmpty)).map fun g => g.map ImportLine.text)
    rw [start] at rendered
    exact ⟨first, tail, rendered, known, ImportLine.group_eq_future.1 (by simpa using group)⟩

end Code

namespace Generated

open Code

variable {f : Family} {terminal : Member} {runtime : String}

/-- What definitions ask for is well named. -/
theorem isWellNamed_of_mem_emittedImports (path : Text.isDottedPath runtime) {i : Import}
    (mem : i ∈ emittedImports runtime) : i.isWellNamed := by
  have named : ∀ s ∈ ["Any", "Callable", "Generic", "Iterator", "TypeVar"] ++ runtimeNames,
      Text.isModulePath s := by decide +kernel
  have own := Text.isModulePath_of_isDottedPath (isDottedPath_of_mem_emittedImports path mem)
  rw [Import.isWellNamed, own, Bool.true_and]
  simp only [emittedImports, List.cons_append, List.mem_cons, List.mem_append] at mem
  rcases mem with rfl | rfl | typing | support
  · rfl
  · decide
  · obtain ⟨s, hs, rfl⟩ := List.mem_map.1 typing
    exact named s (List.mem_append_left _ hs)
  · obtain ⟨s, hs, rfl⟩ := List.mem_map.1 support
    exact named s (List.mem_append_right _ hs)

/-- A file that asks for the future feature and for nothing else of that kind but what definitions
do: its text can be written, and its first line below the header is an import. -/
theorem exists_document {file : File} (path : Text.isDottedPath runtime)
    (deferred : annotationsImport ∈ file.imports) (named : ∀ i ∈ file.imports, i.name ≠ none)
    (own : ∀ i ∈ file.imports, i.path = "__future__" → i.isWellNamed)
    (asks : ∀ d ∈ file.body, d.allImports ⊆ emittedImports runtime) :
    ∃ first more, renderImports file.collectImports = .ok (first :: more) ∧ startsImport first ∧
      ∀ header, ∃ text below, file.document .plain header = .ok text ∧
        Text.lines text = header.flatMap commentRows ++ first :: below := by
  obtain ⟨groups, made, -⟩ := exists_importGroups (words_of_bare named asks)
  have asked : annotationsImport ∈ file.collectImports :=
    File.mem_collectImports.2 (List.mem_append_left _ deferred)
  obtain ⟨first, more, rendered, known, future⟩ := exists_first_future made
    (ImportLine.mem_ofImports_iff.2 (.inr ⟨_, asked, nofun, rfl⟩)) rfl
  have wellNamed : first.isWellNamed := by
    refine ImportLine.isWellNamed_of_path (fun i mem same => ?_) known
    rcases List.mem_append.1 (mem_of_mem_collectImports asks mem) with here | emitted
    · exact own i here (same.trans future)
    · exact isWellNamed_of_mem_emittedImports path emitted
  refine ⟨first.text, more, rendered, first.startsImport_text, fun header => ?_⟩
  have made : renderImports file.collectImports = .ok ([] ++ first.text :: more) := rendered
  exact document_header made nofun nofun (ImportLine.single_text wellNamed) first.startsImport_text
    (ImportLine.opensImport_text wellNamed) header

/-- A file of a family, its text under a header, and its import block: the text is the header, line
by line, and then the block from its first line on. -/
structure StartsBelow (file : File) (header : List String) (text : String) : Prop where
  written : file.document .plain header = .ok text
  block : ∃ first more below, renderImports file.collectImports = .ok (first :: more) ∧
    startsImport first ∧ Text.lines text = header.flatMap commentRows ++ first :: below

/-- A file of contracts that is emitted has a text under every header. -/
theorem contractsFile_starts {name : String} {file : File}
    (emitted : contractsFile f runtime name = .ok file) (path : Text.isDottedPath runtime)
    (header : List String) : ∃ text, StartsBelow file header text := by
  obtain ⟨imports, asks, -⟩ := contractsFile_asks emitted
  obtain ⟨first, more, rendered, starts, all⟩ := exists_document path (by simp [imports])
    (by simp [imports, annotationsImport]) (by rw [imports]; decide) asks
  obtain ⟨text, below, written, eq⟩ := all header
  exact ⟨text, written, first, more, below, rendered, starts, eq⟩

/-- So has a file of concrete classes, since the path of the other file is relative. -/
theorem concretesFile_starts {contracts name : String} {file : File}
    (emitted : concretesFile f runtime contracts name = .ok file) (path : Text.isDottedPath runtime)
    (header : List String) : ∃ text, StartsBelow file header text := by
  obtain ⟨⟨vars, -, imports⟩, asks, -⟩ := concretesFile_asks emitted
  have relative : "." ++ contracts ≠ "__future__" := by
    intro same
    have undotted := Text.isDottedPath_relative contracts
    rw [same] at undotted
    revert undotted
    decide
  have own : ∀ i ∈ file.imports, i.path = "__future__" → i.isWellNamed := by
    intro i mem future
    simp only [imports, Import.several, List.cons_append, List.mem_cons, List.mem_append,
      List.mem_map] at mem
    rcases mem with rfl | (⟨s, -, rfl⟩ | ⟨s, -, rfl⟩) | ⟨s, -, rfl⟩
    · decide
    · exact absurd future relative
    · exact absurd future relative
    · exact absurd (show "typing" = "__future__" from future) (by decide)
  obtain ⟨first, more, rendered, starts, all⟩ := exists_document path (by simp [imports])
    (by rw [imports]; simp [Import.several, annotationsImport, or_imp, forall_and]) own asks
  obtain ⟨text, below, written, eq⟩ := all header
  exact ⟨text, written, first, more, below, rendered, starts, eq⟩

end Generated
end Polyad
