import Polyad.Proofs.Code.Layout

/-!
# The layout of a document

The text of a file is the header, the import block, the marker, the explanations and the
definitions. The import block is found again in the text below the header, since no other line there
can be taken for an import.
-/

namespace Polyad.Code

open Text

/-! ## Documents -/

theorem single_commentLine {l : String} (h : Single l) : Single (commentLine l) := by
  unfold commentLine
  split
  · decide
  · exact single_append.2 ⟨by decide, h⟩

theorem commentLine_ne (l : String) : commentLine l ≠ "" := by
  unfold commentLine
  split
  · decide
  · simp

theorem withHeader_endLines (header : List String) {ls : List String} (ne : ls ≠ []) :
    withHeader header (endLines ls) = endLines (header.map commentLine ++ ls) := by
  unfold withHeader
  cases header with
  | nil => rfl
  | cons l header => rw [if_neg (by simp), endLines_append (by simp) ne]

/-- A text that ends with a trimmed body below the marker is in normal form. -/
theorem normalize_document {above comment body : List String} (own : ∀ l ∈ above, Single l)
    (explained : ∀ l ∈ comment, Single l) (single : ∀ l ∈ body, Single l)
    (trimmed : body.rdropWhile (· == "") = body) :
    Text.normalize (endLines (above ++ marker :: comment.map commentLine ++ body)) =
      endLines (above ++ marker :: comment.map commentLine ++ body) := by
  have comments : ∀ l ∈ marker :: comment.map commentLine, Single l ∧ l ≠ "" := by
    intro l mem
    rcases List.mem_cons.1 mem with rfl | mem
    · decide
    · obtain ⟨k, there, rfl⟩ := List.mem_map.1 mem
      exact ⟨single_commentLine (explained k there), commentLine_ne k⟩
  obtain ⟨l, last⟩ : ∃ l, (marker :: comment.map commentLine).getLast? = some l :=
    ⟨_, List.getLast?_eq_some_getLast (by simp)⟩
  have last' : (above ++ marker :: comment.map commentLine).getLast? = some l := by
    rw [List.getLast?_append, last]
    rfl
  have full : (l == "") = false :=
    beq_eq_false_iff_ne.2 (comments l (List.mem_of_getLast? last)).2
  rw [normalize_endLines, rdropWhile_append_of_last last' full, trimmed]
  intro l mem
  rcases List.mem_append.1 mem with top | below
  · rcases List.mem_append.1 top with first | comment
    · exact own l first
    · exact (comments l comment).1
  · exact single l below

/-- Taking the text apart at the end of the imports and putting it together again keeps every line
but the empty ones at the end. -/
theorem wrap_endLines {header comment block rest : List String} (isBlock : IsBlock block)
    (ne : block ≠ []) (single : ∀ l ∈ rest, Single l) (quiet : ∀ l ∈ rest, startsImport l = false)
    (heading : ∀ l ∈ header, Single l) (explained : ∀ l ∈ comment, Single l) (filename : String) :
    wrap header comment filename (endLines (block ++ rest)) = .ok (endLines
      (header.map commentLine ++ block ++ ["", marker] ++ comment.map commentLine ++
        rest.rdropWhile (· == ""))) := by
  have kept := (List.rdropWhile_prefix (· == "") rest).subset
  obtain ⟨l, last⟩ : ∃ l, block.getLast? = some l := ⟨_, List.getLast?_eq_some_getLast ne⟩
  have full : (l == "") = false := by
    have starts := isBlock.last l last
    rw [beq_eq_false_iff_ne]
    rintro rfl
    cases starts
  have normal : Text.normalize (endLines (block ++ rest)) =
      endLines (block ++ rest.rdropWhile (· == "")) := by
    rw [normalize_endLines (List.forall_mem_append.2 ⟨isBlock.single, single⟩),
      rdropWhile_append_of_last last full]
  generalize trimmed : rest.rdropWhile (· == "") = body at *
  have single : ∀ l ∈ body, Single l := fun l mem => single l (kept mem)
  have below : ∀ l ∈ body ++ [""], startsImport l = false := by
    intro l mem
    rcases List.mem_append.1 mem with own | blank
    · exact quiet l (kept own)
    · rw [List.mem_singleton.1 blank]
      decide
  have cut : lines (endLines (block ++ body)) = block ++ (body ++ [""]) := by
    rw [lines_endLines (List.forall_mem_append.2 ⟨isBlock.single, single⟩) (by simp [ne]),
      List.append_assoc]
  have put : insertAt (block ++ (body ++ [""])) block.length
      ("" :: marker :: comment.map commentLine) =
        block ++ "" :: marker :: comment.map commentLine ++ body ++ [""] := by
    simp [insertAt]
  rw [wrap, normal, cut, importAnchor_eq isBlock ne below]
  change Except.ok (Text.normalize (withHeader header (joinLines (insertAt _ _ _)))) = _
  rw [put, ← endLines_eq (by simp), withHeader_endLines _ (by simp)]
  have shape : header.map commentLine ++
      (block ++ "" :: marker :: comment.map commentLine ++ body) =
        (header.map commentLine ++ block ++ [""]) ++ marker :: comment.map commentLine ++ body := by
    simp
  have above : ∀ l ∈ header.map commentLine ++ block ++ [""], Single l := by
    simp only [List.mem_append, List.mem_map, List.mem_singleton]
    rintro l ((⟨k, there, rfl⟩ | own) | rfl)
    · exact single_commentLine (heading k there)
    · exact isBlock.single l own
    · decide
  rw [shape, normalize_document above explained single ?_]
  · simp
  · rw [← trimmed, List.rdropWhile_idempotent]

/-- What stands below the comments: the definitions after two empty lines, without the empty lines
at the end. -/
def belowComments (body : List Definition) : List String :=
  if body.isEmpty then [] else ["", ""] ++ (Definition.spaced body).rdropWhile (· == "")

/-- What stands below the import block before the empty lines at the end are taken away. -/
def belowImports (body : List Definition) : List String :=
  if body.isEmpty then [] else ["", ""] ++ Definition.layoutAll body

theorem rdropWhile_belowImports (body : List Definition) :
    (belowImports body).rdropWhile (· == "") = belowComments body := by
  unfold belowImports belowComments
  cases body with
  | nil => rfl
  | cons d ds =>
    obtain ⟨l, ls, layout, full⟩ := d.exists_layout
    have full : (l == "") = false := beq_eq_false_iff_ne.2 full
    obtain ⟨more, spaced⟩ : ∃ more, Definition.spaced (d :: ds) = [l] ++ more := by
      rw [Definition.spaced, layout]
      exact ⟨_, rfl⟩
    rw [Definition.layoutAll_eq_spaced, spaced, if_neg (by simp), if_neg (by simp),
      ← List.append_assoc, rdropWhile_append_of_last (x := l) (by simp) full,
      rdropWhile_append_of_last (x := l) (by simp) full, List.append_assoc]

section Files

variable {f : File}

theorem mem_belowImports {body : List Definition} {l : String} (mem : l ∈ belowImports body) :
    l = "" ∨ ∃ d ∈ body, l ∈ d.layout := by
  unfold belowImports at mem
  split at mem
  · cases mem
  · rcases List.mem_append.1 mem with blank | own
    · exact .inl (by simpa using blank)
    · exact Definition.mem_layoutAll own

theorem File.Tidy.single_below (tidy : f.Tidy) : ∀ l ∈ belowImports f.body, Single l := by
  intro l mem
  rcases mem_belowImports mem with rfl | ⟨d, there, own⟩
  · decide
  · exact (tidy.body d there).single_layout own

theorem File.Tidy.quiet_below (tidy : f.Tidy) :
    ∀ l ∈ belowImports f.body, startsImport l = false := by
  intro l mem
  rcases mem_belowImports mem with rfl | ⟨d, there, own⟩
  · decide
  · exact (tidy.body d there).startsImport own

theorem document_eq_wrap {block : List String} (header : List String)
    (made : renderImports f.collectImports = .ok block) :
    f.document .plain header =
      wrap header f.comment f.filename (endLines (f.resolve.linesBelow block)) := by
  have laid : f.resolve.layout .plain = .ok (endLines (f.resolve.linesBelow block)) :=
    Error.bind_eq_ok_iff.2 ⟨block, made, rfl⟩
  change (f.resolve.layout .plain >>= wrap header f.comment f.filename) = _
  rw [laid]
  exact pure_bind _ _

theorem linesBelow_eq {block : List String} (ne : block ≠ []) :
    f.resolve.linesBelow block = block ++ belowImports f.body := by
  obtain ⟨l, ls, rfl⟩ := List.exists_cons_of_ne_nil ne
  unfold File.linesBelow belowImports
  cases body : f.body with
  | nil => simp [File.resolve, body]
  | cons d ds => simp [File.resolve, body]

/-- Without a line that starts like an import a text is refused. -/
theorem wrap_error {header comment ls : List String} (single : ∀ l ∈ ls, Single l)
    (quiet : ∀ l ∈ ls, startsImport l = false) (filename : String) :
    wrap header comment filename (endLines ls) = .error (.noImportBlock filename) := by
  have kept := (List.rdropWhile_prefix (· == "") ls).subset
  have below : ∀ l ∈ lines (Text.normalize (endLines ls)), startsImport l = false := by
    rw [normalize_endLines single]
    by_cases none : ls.rdropWhile (· == "") = []
    · rw [none]
      decide
    · rw [lines_endLines (fun l mem => single l (kept mem)) none]
      intro l mem
      rcases List.mem_append.1 mem with own | blank
      · exact quiet l (kept own)
      · rw [List.mem_singleton.1 blank]
        decide
  rw [wrap, importAnchor_none below]
  rfl

/-- A file without an import is refused. Any other gets exactly its header, the import block of all
that it and its parts ask for, an empty line, the marker, its explanations and its definitions, and
a single line feed at the end. No line below the imports can be taken for one. -/
theorem document_layout {header : List String} (tidy : f.Tidy) (heading : ∀ l ∈ header, Single l) :
    (f.allImports = [] → f.document .plain header = .error (.noImportBlock f.filename)) ∧
    (f.allImports ≠ [] → ∃ block, renderImports f.collectImports = .ok block ∧ IsBlock block ∧
      block ≠ [] ∧ (∀ l ∈ belowComments f.body, startsImport l = false) ∧
      f.document .plain header = .ok (endLines
        (header.map commentLine ++ block ++ ["", marker] ++ f.comment.map commentLine ++
          belowComments f.body))) := by
  have none : f.collectImports = [] ↔ f.allImports = [] := by
    simp only [List.eq_nil_iff_forall_not_mem, File.mem_collectImports]
  have named : ∀ i ∈ f.collectImports, i.isWellNamed :=
    fun i mem => tidy.imports i (File.mem_collectImports.1 mem)
  obtain ⟨block, made, isBlock, empty⟩ := exists_importBlock named
  rw [none] at empty
  rw [document_eq_wrap header made]
  constructor
  · intro bare
    have body : ∀ l ∈ f.resolve.linesBelow block, l = "" ∨ ∃ d ∈ f.body, l ∈ d.layout := by
      rw [empty.2 bare]
      exact fun l => Definition.mem_layoutAll
    refine wrap_error (fun l mem => ?_) (fun l mem => ?_) f.filename
    · rcases body l mem with rfl | ⟨d, there, own⟩
      · decide
      · exact (tidy.body d there).single_layout own
    · rcases body l mem with rfl | ⟨d, there, own⟩
      · decide
      · exact (tidy.body d there).startsImport own
  · intro some
    have ne := mt empty.1 some
    refine ⟨block, made, isBlock, ne, fun l mem => ?_, ?_⟩
    · rw [← rdropWhile_belowImports] at mem
      exact tidy.quiet_below l ((List.rdropWhile_prefix _ _).subset mem)
    · rw [linesBelow_eq ne, wrap_endLines isBlock ne tidy.single_below tidy.quiet_below heading
        tidy.comment, rdropWhile_belowImports]

end Files

/-- A file whose texts look like imports in every place where they may. -/
def loaderFile : File where
  name := "loader"
  imports := [⟨"typing", some "Any"⟩, ⟨".pkg", some "box"⟩]
  comment := ["About.", ""]
  body := [
    .assignment ⟨"first", .int 1, []⟩,
    .assignment ⟨"second", .int 2, []⟩,
    .function {
      name := "load"
      decorators := ["cached"]
      docstring := some "Loads.\nimport os\n  (from it"
      body := [.raw "from os import path", .raw ""]
      imports := [⟨"os", none⟩] }]

theorem tidy_loaderFile : loaderFile.Tidy where
  imports := by decide
  body := by
    simp only [loaderFile, List.forall_mem_cons, List.not_mem_nil, false_imp_iff, implies_true,
      and_true]
    exact ⟨⟨⟨by decide, by decide⟩, by decide, by decide⟩,
      ⟨⟨by decide, by decide⟩, by decide, by decide⟩,
      ⟨by decide, nofun, nofun, by decide, by decide, by decide⟩⟩
  comment := by decide

theorem layout_loaderFile :
    loaderFile.Tidy ∧ (∀ l ∈ ["Header."], Single l) ∧ loaderFile.allImports ≠ [] ∧
    ∃ block, renderImports loaderFile.collectImports = .ok block ∧
      loaderFile.document .plain ["Header."] = .ok (endLines (["# Header."] ++ block ++ ["", marker,
        "# About.", "#", "", "", "first = 1", "second = 2", "", "", "@cached", "def load():",
        "    \"\"\"Loads.", "    import os", "      (from it", "    \"\"\"",
        "    from os import path"])) := by
  have heading : ∀ l ∈ ["Header."], Single l := by decide
  have some : loaderFile.allImports ≠ [] := by decide
  obtain ⟨block, made, -, -, -, eq⟩ := (document_layout tidy_loaderFile heading).2 some
  refine ⟨tidy_loaderFile, heading, some, block, made, eq.trans ?_⟩
  have below : belowComments loaderFile.body = ["", "", "first = 1", "second = 2", "", "", "@cached",
      "def load():", "    \"\"\"Loads.", "    import os", "      (from it", "    \"\"\"",
      "    from os import path"] := by decide
  rw [below]
  simp [loaderFile, commentLine]

end Polyad.Code
