import Polyad.Proofs.Code.Document
import Polyad.Proofs.Text.Rows

/-!
# The header of a document

A line of the header that has line breaks in it becomes several lines of the document. Only the
first of them is a comment for certain, the others are what the text says. All of them stand above
the import block.
-/

namespace Polyad

namespace Code

open Text

/-- The lines that a line of the header becomes. -/
def commentRows (line : String) : List String := rows (commentLine line)

def IsComment (row : String) : Prop := row = "#" ∨ "# ".toList <+: row.toList

instance (row : String) : Decidable (IsComment row) := inferInstanceAs (Decidable (_ ∨ _))

/-- The first of them is a comment, the others are what the text says. -/
theorem exists_commentRows (line : String) :
    ∃ row, commentRows line = row :: (rows line).tail ∧ IsComment row := by
  rw [commentRows, commentLine]
  split
  · next empty =>
    rw [beq_iff_eq.1 empty]
    exact ⟨"#", by decide, .inl rfl⟩
  · obtain ⟨r, rs, own, eq⟩ := rows_append (p := "# ") (by decide) line
    exact ⟨"# " ++ r, by rw [eq, own, List.tail_cons], .inr (by simp)⟩

theorem comments_iff (header : List String) :
    (∀ row ∈ header.flatMap commentRows, IsComment row) ↔
      ∀ line ∈ header, ∀ row ∈ (rows line).tail, IsComment row := by
  simp only [List.mem_flatMap, forall_exists_index, and_imp]
  constructor
  · intro all line mem row own
    obtain ⟨first, eq, -⟩ := exists_commentRows line
    exact all row line mem (by simp [eq, own])
  · intro each row line mem own
    obtain ⟨first, eq, comment⟩ := exists_commentRows line
    rw [eq] at own
    rcases List.mem_cons.1 own with rfl | later
    · exact comment
    · exact each line mem row later

/-- The characters of lines that each end in a line feed. -/
theorem toList_endLines {ls : List String} (ne : ls ≠ []) : (endLines ls).toList = ended ls := by
  obtain ⟨l, ls, rfl⟩ := List.exists_cons_of_ne_nil ne
  induction ls generalizing l with
  | nil => simp [endLines, joinLines, ended]
  | cons k ks ih =>
    have split : endLines ([l] ++ k :: ks) = endLines [l] ++ endLines (k :: ks) :=
      endLines_append (by simp) (by simp)
    rw [← List.singleton_append, split, String.toList_append, ih k (List.cons_ne_nil k ks)]
    simp [endLines, joinLines, ended]

/-- The text of a header with anything below it. -/
theorem toList_withHeader (header : List String) (text : String) :
    (withHeader header text).toList = ended (header.map commentLine) ++ text.toList := by
  rw [withHeader]
  cases header with
  | nil => rfl
  | cons l ls =>
    rw [if_neg (by simp), String.toList_append, List.map_cons,
      toList_endLines (List.cons_ne_nil _ _)]

/-! ## Documents -/

/-- The search for the end of the imports does not fall behind one that it has found. -/
theorem exists_anchorFrom (ls : List String) (opened : Bool) {b n a : Nat} (here : b ≤ n)
    (found : b ≤ a) : ∃ k, anchorFrom n opened (some a) ls = some (b + k) := by
  induction ls generalizing n a opened with
  | nil =>
    cases opened
    · exact ⟨a - b, congrArg some (by omega)⟩
    · exact ⟨n - b, congrArg some (by omega)⟩
  | cons l ls ih =>
    rw [anchorFrom]
    repeat' split
    all_goals exact ih _ (by omega) (by omega)

/-- Nor does it fall behind an import that does not run on, if nothing above runs on. -/
theorem importAnchor_below {front : List String} {last : String}
    (closed : ∀ l ∈ front, opensImport l = false) (starts : startsImport last)
    (ends : opensImport last = false) (below : List String) (filename : String) :
    ∃ k, importAnchor (front ++ last :: below) filename = .ok (front.length + 1 + k) := by
  obtain ⟨anchor, eq⟩ := anchorFrom_append closed (last :: below) 0 none
  obtain ⟨k, found⟩ := exists_anchorFrom below false (Nat.le_refl (front.length + 1))
    (Nat.le_refl (front.length + 1))
  refine ⟨k, ?_⟩
  rw [importAnchor, importAnchor?, eq, Nat.zero_add, anchorFrom, if_neg (by decide), if_pos starts,
    ends, if_neg (by decide), found]

theorem toList_joinLines_cons (l : String) {ls : List String} (ne : ls ≠ []) :
    (joinLines (l :: ls)).toList = l.toList ++ '\n' :: (joinLines ls).toList := by
  rw [← List.singleton_append, joinLines_append (by simp) ne]
  simp [joinLines]

theorem toList_joinLines_append (front : List String) {ls : List String} (ne : ls ≠ []) :
    (joinLines (front ++ ls)).toList = ended front ++ (joinLines ls).toList := by
  induction front with
  | nil => rfl
  | cons l front ih =>
    rw [List.cons_append, toList_joinLines_cons l (by simp [ne]), ih]
    simp [ended]

/-- Lines at the start of an import block that do not run on, the last of them an import: the file
has a text, in which they stand right below the header. -/
theorem document_header {f : File} {front more : List String} {last : String}
    (made : renderImports f.collectImports = .ok (front ++ last :: more))
    (singles : ∀ l ∈ front, Single l) (closed : ∀ l ∈ front, opensImport l = false)
    (single : Single last) (starts : startsImport last) (ends : opensImport last = false)
    (header : List String) :
    ∃ text below, f.document .plain header = .ok text ∧
      lines text = header.flatMap commentRows ++ (front ++ last :: below) := by
  have full : last ≠ "" := by
    rintro rfl
    cases starts
  have own : front.flatMap rows = front := by
    rw [List.flatMap_congr fun l mem => rows_of_single (singles l mem), List.flatMap_singleton']
  obtain ⟨ms, rendered⟩ : ∃ ms,
      f.resolve.linesBelow (front ++ last :: more) = front ++ last :: ms := by
    rw [linesBelow_eq (by simp), List.append_assoc, List.cons_append]
    exact ⟨_, rfl⟩
  obtain ⟨tail, chars⟩ : ∃ tail, (endLines (front ++ last :: ms)).toList =
      ended front ++ (last.toList ++ '\n' :: tail) := by
    rw [endLines_eq (by simp), List.append_assoc, toList_joinLines_append front (by simp),
      List.cons_append, toList_joinLines_cons _ (by simp)]
    exact ⟨_, rfl⟩
  obtain ⟨below, normal⟩ := lines_normalize single full chars
  obtain ⟨k, anchor⟩ := importAnchor_below closed starts ends below f.filename
  let block := "" :: marker :: f.comment.map commentLine
  let marked := below.take k ++ block ++ below.drop k
  let written := withHeader header (joinLines (front ++ last :: marked))
  have inserted : insertAt (front ++ last :: below) (front.length + 1 + k) block =
      front ++ last :: marked := by
    have split : front ++ last :: below = (front ++ [last]) ++ below := by simp
    have length : (front ++ [last]).length = front.length + 1 := by simp
    rw [insertAt, split, ← length, List.take_length_add_append, List.drop_length_add_append]
    simp [marked]
  have placed : written.toList = ended (header.map commentLine ++ front) ++
      (last.toList ++ '\n' :: (joinLines marked).toList) := by
    rw [toList_withHeader, toList_joinLines_append front (by simp),
      toList_joinLines_cons last (by simp [marked, block])]
    simp [ended]
  obtain ⟨rest, lay⟩ := lines_normalize single full placed
  refine ⟨Text.normalize written, rest, ?_, ?_⟩
  · rw [document_eq_wrap header made, rendered, wrap, normal, own, anchor]
    exact congrArg (fun ls => Except.ok (Text.normalize (withHeader header (joinLines ls)))) inserted
  · rw [lay, List.flatMap_append, List.flatMap_map, own, List.append_assoc]
    rfl

end Code
end Polyad
