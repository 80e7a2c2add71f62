import Polyad.Code.Document
import Polyad.Proofs.Code.ImportBlock
import Polyad.Proofs.Text.Lines

/-!
# The end of the import block

An import line of identifiers has no parenthesis, so the search for the end of the imports never
runs on over it. Hence the search ends at the last line of the import block if no line below it
starts like an import.
-/

namespace Polyad

/-! ## Identifiers -/

namespace Text

variable {c : Char} {s : String}

/-- A module of an import: a dotted path, or points and perhaps a dotted path after them. -/
def isModulePath (s : String) : Bool :=
  let rest := String.ofList (s.toList.dropWhile (· == '.'))
  if rest == "" then s != "" else isDottedPath rest

theorem isNamePart_of_mem (h : isIdentifier s) (mem : c ∈ s.toList) : isNamePart c := by
  unfold isIdentifier at h
  split at h
  · cases h
  · next first rest chars =>
    rw [chars] at mem
    rw [Bool.and_eq_true, List.all_eq_true] at h
    rcases List.mem_cons.1 mem with rfl | mem
    · simp [isNamePart, h.1]
    · exact h.2 c mem

theorem mem_intercalate {α : Type} {x y : α} {ls : List (List α)}
    (h : y ∈ [x].intercalate ls) : y = x ∨ ∃ l ∈ ls, y ∈ l := by
  induction ls with
  | nil => cases h
  | cons l ls ih =>
    cases ls with
    | nil => exact .inr ⟨l, by simp, by simpa using h⟩
    | cons m ms =>
      rw [List.intercalate_cons_cons, List.mem_append, List.mem_append] at h
      rcases h with (own | sep) | rest
      · exact .inr ⟨l, by simp, own⟩
      · exact .inl (by simpa using sep)
      · refine (ih rest).imp_right ?_
        rintro ⟨k, mem, there⟩
        exact ⟨k, List.mem_cons_of_mem _ mem, there⟩

theorem isNamePart_of_mem_dotted (h : isDottedPath s) (mem : c ∈ s.toList) :
    c = '.' ∨ isNamePart c := by
  have chars : ['.'].intercalate (s.toList.splitOn '.') = s.toList := List.intercalate_splitOn _
  rw [← chars] at mem
  refine (mem_intercalate mem).imp_right ?_
  rintro ⟨part, there, own⟩
  have identifier : isIdentifier (String.ofList part) :=
    List.all_eq_true.1 h _ (List.mem_map_of_mem there)
  exact isNamePart_of_mem identifier (by simpa using own)

theorem isNamePart_of_mem_path (h : isModulePath s) (mem : c ∈ s.toList) :
    c = '.' ∨ isNamePart c := by
  have chars : s.toList.takeWhile (· == '.') ++ s.toList.dropWhile (· == '.') = s.toList :=
    List.takeWhile_append_dropWhile
  rw [← chars, List.mem_append] at mem
  rcases mem with point | mem
  · exact .inl (by simpa using List.mem_takeWhile_imp point)
  · unfold isModulePath at h
    dsimp only at h
    split at h
    · next empty =>
      have none : s.toList.dropWhile (· == '.') = [] := by simpa using empty
      rw [none] at mem
      cases mem
    · exact isNamePart_of_mem_dotted h (by simpa using mem)

/-! ## Words -/

/-- Whether no range of the one table meets one of the other. -/
def rangesApart (rs qs : List (Nat × Nat)) : Bool :=
  rs.all fun (a, b) => qs.all fun (lo, hi) => b < lo || hi < a

theorem inRanges_eq_false_of_apart {rs qs : List (Nat × Nat)} {n : Nat}
    (apart : rangesApart rs qs = true) (mem : inRanges rs n = true) : inRanges qs n = false := by
  rw [Bool.eq_false_iff]
  intro both
  obtain ⟨⟨a, b⟩, inRs, here⟩ := List.any_eq_true.1 mem
  obtain ⟨⟨lo, hi⟩, inQs, there⟩ := List.any_eq_true.1 both
  have none := List.all_eq_true.1 (List.all_eq_true.1 apart _ inRs) _ inQs
  simp only [Bool.and_eq_true, Bool.or_eq_true, decide_eq_true_eq] at here there none
  omega

/-- Nothing that an identifier is made of is white space. -/
theorem isBlank_eq_false_of_isNamePart (h : isNamePart c) : isBlank c = false := by
  rw [Bool.eq_false_iff]
  intro blank
  let blanks : List (Nat × Nat) := [(9, 13), (28, 32), (133, 133), (160, 160), (5760, 5760),
    (8192, 8202), (8232, 8233), (8239, 8239), (8287, 8287), (12288, 12288)]
  let codes : List Nat := [9, 10, 11, 12, 13, 28, 29, 30, 31, 32, 133, 160, 5760, 8192, 8193, 8194,
    8195, 8196, 8197, 8198, 8199, 8200, 8201, 8202, 8232, 8233, 8239, 8287, 12288]
  have ranges : inRanges blanks c.toNat = true := blank
  have listed : c.toNat ∈ codes := by
    simp only [blanks, inRanges, List.any_cons, List.any_nil, Bool.or_eq_true, Bool.and_eq_true,
      decide_eq_true_eq, Bool.false_eq_true, or_false] at ranges
    simp only [codes, List.mem_cons, List.not_mem_nil]
    rcases ranges with h | h | h | h | h | h | h | h | h | h <;> omega
  have ascii : ∀ n ∈ codes, ((Char.ofNat n).isAlpha || Char.ofNat n == '_' ||
      (Char.ofNat n).isDigit) = false := by decide
  have outside (tables : List (List (Nat × Nat))) (apart : tables.all (rangesApart blanks) = true) :
      tables.any (inRanges · c.toNat) = false :=
    List.any_eq_false.2 fun table mem => by
      rw [inRanges_eq_false_of_apart (List.all_eq_true.1 apart table mem) ranges]
      decide
  have plain := ascii _ listed
  rw [Char.ofNat_toNat] at plain
  simp only [Bool.or_eq_false_iff] at plain
  simp only [isNamePart, isNameStart, plain, Bool.false_or, Bool.or_false, Bool.or_eq_true,
    Bool.and_eq_true] at h
  rcases h with ⟨-, letter⟩ | ⟨-, mark⟩
  · exact Bool.eq_false_iff.1 (outside _ (by decide +kernel)) letter
  · exact Bool.eq_false_iff.1 (outside _ (by decide +kernel)) mark

theorem isBlank_eq_false_of_isNameStart (h : isNameStart c) : isBlank c = false :=
  isBlank_eq_false_of_isNamePart (by simp [isNamePart, h])

theorem words_ne_nil (mem : c ∈ s.toList) (solid : isBlank c = false) : words s ≠ [] := by
  have run : ∀ cs : List Char, c ∈ cs → ∃ r ∈ cs.splitOnP isBlank, r ≠ [] := by
    intro cs
    induction cs with
    | nil => exact nofun
    | cons x xs ih =>
      intro mem
      rw [List.splitOnP_cons_eq_if_modifyHead]
      split
      · next blank =>
        rcases List.mem_cons.1 mem with rfl | mem
        · rw [solid] at blank
          cases blank
        · obtain ⟨r, there, ne⟩ := ih mem
          exact ⟨r, List.mem_cons_of_mem _ there, ne⟩
      · cases runs : xs.splitOnP isBlank with
        | nil => exact absurd runs (List.splitOnP_ne_nil _ _)
        | cons r rs => exact ⟨x :: r, by simp, by simp⟩
  obtain ⟨r, there, ne⟩ := run s.toList mem
  intro none
  simp only [words, List.map_eq_nil_iff, List.filter_eq_nil_iff] at none
  exact none r there (by simpa using ne)

/-- A dotted path starts with a letter. -/
theorem isNameStart_of_dotted {cs : List Char} (h : isDottedPath (String.ofList (c :: cs)))
    (ne : c ≠ '.') : isNameStart c := by
  rw [isDottedPath, dotParts, String.toList_ofList, List.splitOn_eq_splitOnP,
    List.splitOnP_cons_eq_if_modifyHead, if_neg (by simpa using ne)] at h
  cases runs : cs.splitOnP (· == '.') with
  | nil => exact absurd runs (List.splitOnP_ne_nil _ _)
  | cons r rs =>
    rw [runs] at h
    simp only [List.modifyHead_cons, List.map_cons, List.all_cons, isIdentifier,
      String.toList_ofList, Bool.and_eq_true] at h
    exact h.1.1

/-- A module has a path that is a word. -/
theorem words_ne_nil_of_path (h : isModulePath s) : words s ≠ [] := by
  cases chars : s.toList with
  | nil =>
    obtain rfl : s = "" := String.toList_eq_nil_iff.1 chars
    cases h
  | cons c cs =>
    refine words_ne_nil (c := c) (by simp [chars]) ?_
    by_cases point : c = '.'
    · rw [point]
      decide
    · have rest : s.toList.dropWhile (· == '.') = c :: cs := by
        rw [chars, List.dropWhile_cons_of_neg (by simpa using point)]
      rw [isModulePath, rest, if_neg (by simp)] at h
      exact isBlank_eq_false_of_isNameStart (isNameStart_of_dotted h point)

end Text

namespace Code

open Text

/-! ## Import lines -/

/-- An import whose module and name are identifiers, with points in them perhaps. -/
def Import.isWellNamed (i : Import) : Bool :=
  isModulePath i.path && i.name.all isModulePath

namespace ImportLine

variable {l : ImportLine} {imports : List Import} {c : Char}

def isWellNamed (l : ImportLine) : Bool :=
  isModulePath l.path && l.names.all (·.all isModulePath)

theorem isWellNamed_of_path (named : ∀ i ∈ imports, i.path = l.path → i.isWellNamed)
    (mem : l ∈ ofImports imports) : l.isWellNamed := by
  have each : ∀ i ∈ imports, i.path = l.path →
      isModulePath i.path ∧ ∀ n, i.name = some n → isModulePath n := by
    intro i there path
    have := named i there path
    rw [Import.isWellNamed, Bool.and_eq_true] at this
    refine ⟨this.1, fun n name => ?_⟩
    simpa [name] using this.2
  rcases mem_ofImports_iff.1 mem with ⟨i, there, -, rfl⟩ | ⟨i, there, -, rfl⟩
  · simp [isWellNamed, (each i there rfl).1]
  · rw [isWellNamed, Bool.and_eq_true]
    refine ⟨(each i there rfl).1, List.all_eq_true.2 fun n taken => ?_⟩
    obtain ⟨j, own, path, name⟩ := mem_taken_iff.1 taken
    exact (each j own path).2 n name

theorem isWellNamed_of_mem (named : ∀ i ∈ imports, i.isWellNamed) (mem : l ∈ ofImports imports) :
    l.isWellNamed :=
  isWellNamed_of_path (fun i there _ => named i there) mem

/-- Apart from the characters of identifiers an import line has its fixed ones. -/
theorem not_mem_text (named : l.isWellNamed) (part : isNamePart c = false)
    (fixed : c ∉ "import from, .".toList) : c ∉ l.text.toList := by
  have path : ∀ s, isModulePath s → c ∉ s.toList := by
    intro s h mem
    rcases isNamePart_of_mem_path h mem with rfl | own
    · exact fixed (by decide)
    · rw [own] at part
      cases part
  rw [isWellNamed, Bool.and_eq_true] at named
  have fix : ∀ s : String, s.toList ⊆ "import from, .".toList → c ∉ s.toList :=
    fun s sub mem => fixed (sub mem)
  unfold text
  cases names : l.names with
  | none => simpa [path l.path named.1] using fix "import " (by decide)
  | some ns =>
    have each : ∀ n ∈ ns, c ∉ n.toList := by
      have all := named.2
      rw [names] at all
      exact fun n mem => path n (List.all_eq_true.1 all n mem)
    have joined := not_mem_intercalate (fix ", " (by decide)) each
    simp only [String.toList_append, List.mem_append, not_or]
    exact ⟨⟨⟨fix "from " (by decide), path l.path named.1⟩, fix " import " (by decide)⟩, joined⟩

theorem single_text (named : l.isWellNamed) : Single l.text :=
  ⟨not_mem_text named (by decide) (by decide), not_mem_text named (by decide) (by decide)⟩

/-- An import line of identifiers never runs on. -/
theorem opensImport_text (named : l.isWellNamed) : opensImport l.text = false := by
  have none : '(' ∉ l.text.toList := not_mem_text named (by decide) (by decide)
  simp [opensImport, none]

theorem startsImport_text (l : ImportLine) : startsImport l.text := by
  unfold text startsImport
  cases l.names with
  | none => simp
  | some ns => simp

end ImportLine

/-! ## Import blocks -/

theorem ne_nil_of_mem_importGroups {imports : List Import} {groups : List (List ImportLine)}
    (made : importGroups imports = .ok groups) {g : List ImportLine} (mem : g ∈ groups) :
    g ≠ [] := by
  obtain ⟨all, -, filtered⟩ := Error.bind_eq_ok_iff.1 made
  cases filtered
  simpa using (List.mem_filter.1 mem).2

/-- The last part ends what is put together. -/
theorem exists_intercalate_concat {α : Type} (sep : List α) (ls : List (List α)) (l : List α) :
    ∃ front, sep.intercalate (ls ++ [l]) = front ++ l := by
  induction ls with
  | nil => exact ⟨[], by simp⟩
  | cons k ks ih =>
    obtain ⟨front, eq⟩ := ih
    obtain ⟨m, ms, more⟩ := List.exists_cons_of_ne_nil (show ks ++ [l] ≠ [] by simp)
    refine ⟨k ++ sep ++ front, ?_⟩
    rw [List.cons_append, more, List.intercalate_cons_cons, ← more, eq]
    simp

/-- What is known of the lines of an import block: each is an import that ends where it starts, or
it is empty, as the last one is not. -/
structure IsBlock (block : List String) : Prop where
  single : ∀ l ∈ block, Single l
  closed : ∀ l ∈ block, opensImport l = false
  lines : ∀ l ∈ block, l = "" ∨ startsImport l
  last : ∀ l ∈ block.getLast?, startsImport l

/-- Groups of lines that are all there end with a line. -/
theorem getLast?_intercalate {groups : List (List ImportLine)} (ne : ∀ g ∈ groups, g ≠ [])
    (full : groups ≠ []) : ∃ l ∈ groups.flatten,
      ([""].intercalate (groups.map (·.map ImportLine.text))).getLast? = some l.text := by
  obtain ⟨front, g, rfl⟩ := (List.eq_nil_or_concat groups).resolve_left full
  rw [List.concat_eq_append] at ne ⊢
  obtain ⟨init, l, rfl⟩ := (List.eq_nil_or_concat g).resolve_left (ne g (by simp))
  obtain ⟨before, eq⟩ := exists_intercalate_concat [""]
    (front.map (·.map ImportLine.text)) ((init.concat l).map ImportLine.text)
  refine ⟨l, by simp, ?_⟩
  rw [List.map_append, List.map_singleton, eq]
  simp

theorem exists_importBlock {imports : List Import} (named : ∀ i ∈ imports, i.isWellNamed) :
    ∃ block, renderImports imports = .ok block ∧ IsBlock block ∧
      (block = [] ↔ imports = []) := by
  have words : ∀ i ∈ imports, i.name = none → Text.words i.path ≠ [] := by
    rintro i mem -
    have known := named i mem
    rw [Import.isWellNamed, Bool.and_eq_true] at known
    exact words_ne_nil_of_path known.1
  obtain ⟨groups, made, same⟩ := exists_importGroups words
  have ne := fun g => ne_nil_of_mem_importGroups (g := g) made
  have text : ∀ l ∈ [""].intercalate (groups.map (·.map ImportLine.text)),
      l = "" ∨ ∃ line, line.isWellNamed ∧ l = ImportLine.text line := by
    intro l mem
    refine (mem_intercalate mem).imp_right ?_
    rintro ⟨g, there, own⟩
    obtain ⟨group, member, rfl⟩ := List.mem_map.1 there
    obtain ⟨line, inside, rfl⟩ := List.mem_map.1 own
    have known := (same line).1 (List.mem_flatten.2 ⟨group, member, inside⟩)
    exact ⟨line, ImportLine.isWellNamed_of_mem named known, rfl⟩
  refine ⟨_, Error.bind_eq_ok_iff.2 ⟨groups, made, rfl⟩, ⟨?_, ?_, ?_, ?_⟩, ?_⟩
  · intro l mem
    rcases text l mem with rfl | ⟨line, known, rfl⟩
    · decide
    · exact ImportLine.single_text known
  · intro l mem
    rcases text l mem with rfl | ⟨line, known, rfl⟩
    · decide
    · exact ImportLine.opensImport_text known
  · intro l mem
    refine (text l mem).imp_right ?_
    rintro ⟨line, -, rfl⟩
    exact line.startsImport_text
  · intro l last
    by_cases none : groups = []
    · rw [none] at last
      cases last
    · obtain ⟨line, -, eq⟩ := getLast?_intercalate ne none
      rw [eq] at last
      obtain rfl := Option.some.inj last
      exact line.startsImport_text
  · by_cases none : groups = []
    · subst none
      refine iff_of_true rfl (List.eq_nil_iff_forall_not_mem.2 fun i mem => ?_)
      obtain ⟨l, line⟩ : ∃ l, l ∈ ImportLine.ofImports imports := by
        by_cases bare : i.name = .none
        · exact ⟨_, ImportLine.mem_ofImports_iff.2 (.inl ⟨i, mem, bare, rfl⟩)⟩
        · exact ⟨_, ImportLine.mem_ofImports_iff.2 (.inr ⟨i, mem, bare, rfl⟩)⟩
      cases (same l).2 line
    · obtain ⟨line, mem, eq⟩ := getLast?_intercalate ne none
      refine iff_of_false (fun empty => ?_) fun empty => ?_
      · rw [empty] at eq
        cases eq
      · rcases ImportLine.mem_ofImports_iff.1 ((same line).1 mem) with ⟨i, there, -⟩ | ⟨i, there, -⟩
        · rw [empty] at there
          cases there
        · rw [empty] at there
          cases there

/-! ## The search -/

theorem anchorFrom_quiet {ls : List String} (quiet : ∀ l ∈ ls, startsImport l = false) (n : Nat)
    (anchor : Option Nat) : anchorFrom n false anchor ls = anchor := by
  induction ls generalizing n with
  | nil => rfl
  | cons l ls ih =>
    obtain ⟨first, rest⟩ := List.forall_mem_cons.1 quiet
    rw [anchorFrom, if_neg (by decide), if_neg (by simp [first])]
    exact ih rest (n + 1)

/-- An import that does not run on is passed over, and so is any other line. -/
theorem anchorFrom_append {ls : List String} (closed : ∀ l ∈ ls, opensImport l = false)
    (rest : List String) (n : Nat) (anchor : Option Nat) : ∃ anchor',
      anchorFrom n false anchor (ls ++ rest) = anchorFrom (n + ls.length) false anchor' rest := by
  induction ls generalizing n anchor with
  | nil => exact ⟨anchor, rfl⟩
  | cons l ls ih =>
    obtain ⟨first, others⟩ := List.forall_mem_cons.1 closed
    rw [List.cons_append, anchorFrom, if_neg (by decide), first, List.length_cons,
      Nat.add_comm ls.length 1, ← Nat.add_assoc]
    split
    · rw [if_neg (by decide)]
      exact ih others (n + 1) _
    · exact ih others (n + 1) _

/-- The search ends at the end of the import block. -/
theorem importAnchor_eq {block rest : List String} (isBlock : IsBlock block) (ne : block ≠ [])
    (quiet : ∀ l ∈ rest, startsImport l = false) (filename : String) :
    importAnchor (block ++ rest) filename = .ok block.length := by
  obtain ⟨front, last, rfl⟩ := (List.eq_nil_or_concat block).resolve_left ne
  rw [List.concat_eq_append] at isBlock ⊢
  have closed := fun l mem => isBlock.closed l (List.mem_append_left _ mem)
  obtain ⟨anchor, eq⟩ := anchorFrom_append closed (last :: rest) 0 none
  have starts := isBlock.last last (by simp)
  have ends := isBlock.closed last (by simp)
  rw [importAnchor, importAnchor?, List.append_assoc, List.singleton_append, eq, anchorFrom,
    if_neg (by decide), if_pos starts, ends, if_neg (by decide), anchorFrom_quiet quiet]
  simp

/-- Without a line that starts like an import there is none to be found. -/
theorem importAnchor_none {ls : List String} (quiet : ∀ l ∈ ls, startsImport l = false)
    (filename : String) : importAnchor ls filename = .error (.noImportBlock filename) := by
  rw [importAnchor, importAnchor?, anchorFrom_quiet quiet]

end Code
end Polyad
