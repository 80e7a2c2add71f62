import Polyad.Proofs.Code.Heading
import Polyad.Proofs.Code.ImportReading

/-!
# Modules in import blocks

A line of an import block can be compiled if the parts of its module are identifiers and none is a
reserved word. Paths are made of identifiers, but nothing keeps reserved words out of them. The
block of a document stands right below its header and is read back as what the file asks for.
-/

namespace Polyad

namespace Text

/-- The parts of the path of a module after the points that it may start with. -/
def pathParts (s : String) : List String :=
  dotParts (String.ofList (s.toList.dropWhile (· == '.')))

variable {s : String}

theorem isModulePath_of_pathParts (parts : ∀ part ∈ pathParts s, isIdentifier part) :
    isModulePath s := by
  unfold isModulePath
  dsimp only
  split
  · next empty =>
    have empty : String.ofList (s.toList.dropWhile (· == '.')) = "" := by simpa using empty
    have part := parts "" (by rw [pathParts, empty]; decide)
    cases part
  · exact List.all_eq_true.2 parts

/-- A dotted path does not start with a point. -/
theorem pathParts_of_isDottedPath (path : isDottedPath s) : pathParts s = dotParts s := by
  cases chars : s.toList with
  | nil => rw [pathParts, chars, List.dropWhile_nil, ← chars, String.ofList_toList]
  | cons c cs =>
    have point : c ≠ '.' := by
      rintro rfl
      have relative : s = "." ++ String.ofList cs := String.toList_inj.1 (by simp [chars])
      rw [relative, isDottedPath_relative] at path
      cases path
    rw [pathParts, chars, List.dropWhile_cons_of_neg (by simpa using point), ← chars,
      String.ofList_toList]

theorem isModulePath_of_isDottedPath (path : isDottedPath s) : isModulePath s := by
  apply isModulePath_of_pathParts
  rw [pathParts_of_isDottedPath path]
  exact List.all_eq_true.1 path

theorem dotParts_of_isIdentifier (name : isIdentifier s) : dotParts s = [s] := by
  have none : ∀ c ∈ s.toList, (c == '.') = false := by
    intro c mem
    rw [beq_eq_false_iff_ne]
    rintro rfl
    have part := isNamePart_of_mem name mem
    revert part
    decide
  have whole : s.toList.splitOn '.' = [s.toList] := by
    rw [List.splitOn_eq_splitOnP]
    exact List.splitOnP_eq_singleton none
  rw [dotParts, whole, List.map_singleton, String.ofList_toList]

theorem isDottedPath_of_isIdentifier (name : isIdentifier s) : isDottedPath s := by
  rw [isDottedPath, dotParts_of_isIdentifier name]
  simpa using name

theorem pathParts_sibling (name : isIdentifier s) : pathParts ("." ++ s) = [s] := by
  have dropped : pathParts ("." ++ s) = pathParts s := by simp [pathParts]
  rw [dropped, pathParts_of_isDottedPath (isDottedPath_of_isIdentifier name),
    dotParts_of_isIdentifier name]

theorem isIdentifier_singleton {c : Char} (start : isNameStart c) :
    isIdentifier (String.singleton c) := by
  simp [isIdentifier, start]

/-- What may go on an identifier makes another one of it. -/
theorem isIdentifier_append {t : String} (name : isIdentifier s)
    (parts : t.toList.all isNamePart) : isIdentifier (s ++ t) := by
  unfold isIdentifier at name ⊢
  rw [String.toList_append]
  cases chars : s.toList with
  | nil =>
    rw [chars] at name
    cases name
  | cons c cs =>
    rw [chars, Bool.and_eq_true] at name
    rw [List.cons_append, Bool.and_eq_true, List.all_append, Bool.and_eq_true]
    exact ⟨name.1, name.2, parts⟩

/-- Each part of a path is a name that a module can be imported by. -/
def isImportable (s : String) : Bool :=
  (pathParts s).all fun part => isIdentifier part && !isHardKeyword part

theorem isImportable_iff (parts : ∀ part ∈ pathParts s, isIdentifier part) :
    isImportable s ↔ ∀ part ∈ pathParts s, isHardKeyword part = false := by
  rw [isImportable, List.all_eq_true]
  exact forall₂_congr fun part mem => by simp [parts part mem]

end Text

namespace Code

open Text

variable {f : File}

/-- Each line of a block is made for an import, but for the empty ones. -/
theorem mem_blockOf {own : ImportLine.Group → List ImportLine} {l : String}
    (mem : l ∈ blockOf own) : l = "" ∨ ∃ g, ∃ line ∈ own g, l = line.text := by
  refine (mem_intercalate mem).imp_right ?_
  rintro ⟨texts, there, inside⟩
  obtain ⟨ls, group, rfl⟩ := List.mem_map.1 there
  obtain ⟨g, -, rfl⟩ := List.mem_map.1 (List.mem_filter.1 group).1
  obtain ⟨line, member, rfl⟩ := List.mem_map.1 inside
  exact ⟨g, line, member, rfl⟩

/-- A text with the import block of a file right below its header: each line of the block is empty
or an import, and together the lines ask for what the file asks for. -/
structure BlockBelow (file : File) (header : List String) (text : String) (block : List String) :
    Prop where
  made : renderImports file.collectImports = .ok block
  below : ∃ rest, lines text = header.flatMap commentRows ++ (block ++ rest)
  read : ∀ l ∈ block, l = "" ∨ readImportLine l ≠ []
  asked : ∀ i, i ∈ block.flatMap readImportLine ↔ i ∈ file.allImports

/-- A file with imports of identifiers has a text under every header, with its block below it. -/
theorem exists_blockBelow (named : ∀ i ∈ f.allImports, i.isWellNamed) (some : f.allImports ≠ []) :
    ∃ block, ∀ header, ∃ text, f.document .plain header = .ok text ∧
      BlockBelow f header text block := by
  have named : ∀ i ∈ f.collectImports, i.isWellNamed :=
    fun i mem => named i (File.mem_collectImports.1 mem)
  have known := isBlockOf_linesOf named
  have made := renderImports_eq named
  obtain ⟨block, made', isBlock, empty⟩ := exists_importBlock named
  obtain rfl : blockOf (ImportLine.linesOf f.collectImports) = block :=
    Except.ok.inj (made.symm.trans made')
  have full : blockOf (ImportLine.linesOf f.collectImports) ≠ [] := by
    intro none
    refine some (List.eq_nil_iff_forall_not_mem.2 fun i mem => ?_)
    rw [← File.mem_collectImports, empty.1 none] at mem
    cases mem
  refine ⟨blockOf (ImportLine.linesOf f.collectImports), fun header => ?_⟩
  obtain ⟨text, rest, written, below⟩ : ∃ text rest, f.document .plain header = .ok text ∧
      lines text = header.flatMap commentRows ++
        (blockOf (ImportLine.linesOf f.collectImports) ++ rest) := by
    obtain ⟨front, last, eq⟩ := (List.eq_nil_or_concat _).resolve_left full
    rw [eq, List.concat_eq_append] at made isBlock ⊢
    obtain ⟨text, rest, written, below⟩ := document_header made
      (fun l mem => isBlock.single l (List.mem_append_left _ mem))
      (fun l mem => isBlock.closed l (List.mem_append_left _ mem)) (isBlock.single last (by simp))
      (isBlock.last last (by simp)) (isBlock.closed last (by simp)) header
    exact ⟨text, rest, written, by rw [below, List.append_assoc, List.singleton_append]⟩
  refine ⟨text, written, made, ⟨rest, below⟩, fun l mem => ?_, fun i => ?_⟩
  · refine (mem_blockOf mem).imp_right ?_
    rintro ⟨g, line, own, rfl⟩
    have wellNamed := ImportLine.isWellNamed_of_mem named (ImportLine.mem_linesOf.1 own).1
    have taken : line.names ≠ .some [] := fun names => (known.increasing g line own [] names).1 rfl
    rw [ImportLine.readImportLine_text wellNamed taken]
    cases names : line.names with
    | none => simp [ImportLine.imports, names]
    | some ns =>
      rw [names] at taken
      simpa [ImportLine.imports, names, Import.several] using taken
  · rw [known.complete, File.mem_collectImports]

end Code
end Polyad
