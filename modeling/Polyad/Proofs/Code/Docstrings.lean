import Polyad.Proofs.Code.Heading
import Polyad.Proofs.Code.Outlined

/-!
# Docstrings in the text of a file

A docstring is read from a text up to the first three double quotes after the ones that open it.
With several lines the closing quotes have a line of their own and what is read is what was written.
With a single line they stand right after the text, so double quotes at its end are taken for the
first of the closing ones and as many follow as are left over.
-/

namespace Polyad.Code

open Text

/-! ## Reading a docstring -/

/-- The delimiter of docstrings. -/
def quotes : List Char := ['"', '"', '"']

/-- What stands before the first three double quotes and what follows them. -/
def splitAtQuotes : List Char → Option (List Char × List Char)
  | [] => none
  | c :: cs =>
    if quotes.isPrefixOf (c :: cs) then some ([], cs.drop 2)
    else (splitAtQuotes cs).map (Prod.map (c :: ·) id)

def dropBreak (s : String) : String :=
  if s.toList.getLast? == some '\n' then String.ofList s.toList.dropLast else s

/-- What the text between the delimiters says: the lines after the first lose their indentation, and
a line break before the closing delimiter does not count. -/
def saidBetween (width : Nat) (between : List Char) : String :=
  match lines (String.ofList between) with
  | [] => ""
  | first :: rest =>
    dropBreak (joinLines (first :: rest.map fun l => String.ofList (l.toList.drop width)))

/-- What the docstring at the start of a text says, if there is one so far from the margin, and what
follows its closing delimiter on the line. -/
def readDocstring (width : Nat) (text : String) : Option (String × String) :=
  if (List.replicate width ' ' ++ quotes).isPrefixOf text.toList then
    (splitAtQuotes (text.toList.drop (width + 3))).map
      (Prod.map (saidBetween width) fun after => String.ofList (after.takeWhile (· != '\n')))
  else none

/-- A docstring without the line feeds around it. -/
def strippedDocstring (doc : String) : String :=
  String.ofList (dropTrailing '\n' (dropLeading '\n' doc.toList))

/-- What a docstring is to say: line feeds around it do not count, nor do blanks in a line after the
first that has nothing else. -/
def statedDocstring (doc : String) : String :=
  match lines (strippedDocstring doc) with
  | [] => ""
  | first :: rest => joinLines (first :: rest.map docstringLine)

/-- The double quotes at the end of a docstring of one line. -/
def leftover (doc : String) : String :=
  if (strippedDocstring doc).toList.contains '\n' then ""
  else String.ofList ((strippedDocstring doc).toList.rtakeWhile (· == '"'))

/-- A docstring is read back from a text, except that what is left over follows its closing
delimiter. -/
def ReadsBack (width : Nat) (doc below : String) : Prop :=
  ∃ said, statedDocstring doc = said ++ leftover doc ∧
    readDocstring width below = some (said, leftover doc)

/-! ## Three double quotes -/

section Quotes

variable {l rest : List Char} {c : Char}

theorem splitAtQuotes_quotes (rest : List Char) :
    splitAtQuotes (quotes ++ rest) = some ([], rest) := by
  simp [quotes, splitAtQuotes]

theorem not_prefix_append (free : ¬quotes <+: l) (ne : c ≠ '"') (rest : List Char) :
    ¬quotes <+: l ++ c :: rest := by
  intro starts
  rcases l with _ | ⟨x, _ | ⟨y, _ | ⟨z, l⟩⟩⟩ <;>
    simp only [quotes, List.nil_append, List.cons_append, List.cons_prefix_cons] at starts free
  · exact ne starts.1.symm
  · exact ne starts.2.1.symm
  · exact ne starts.2.2.1.symm
  · exact free ⟨starts.1, starts.2.1, starts.2.2.1, List.nil_prefix⟩

/-- Text without three double quotes is passed over as far as a character that is none. -/
theorem splitAtQuotes_append (free : ¬quotes <:+: l) (ne : c ≠ '"') (rest : List Char) :
    splitAtQuotes (l ++ c :: rest) =
      (splitAtQuotes rest).map (Prod.map (l ++ c :: ·) id) := by
  induction l with
  | nil =>
    have other : ¬quotes.isPrefixOf (c :: rest) := by
      rw [List.isPrefixOf_iff_prefix]
      exact not_prefix_append (l := []) (by simp [quotes]) ne rest
    rw [List.nil_append, splitAtQuotes, if_neg other]
    rfl
  | cons x l ih =>
    rw [List.infix_cons_iff, not_or] at free
    have other : ¬quotes.isPrefixOf (x :: (l ++ c :: rest)) := by
      rw [List.isPrefixOf_iff_prefix]
      exact not_prefix_append free.1 ne rest
    rw [List.cons_append, splitAtQuotes, if_neg other, ih free.2, Option.map_map]
    rfl

theorem splitAtQuotes_blanks (n : Nat) (rest : List Char) :
    splitAtQuotes (List.replicate n ' ' ++ rest) =
      (splitAtQuotes rest).map (Prod.map (List.replicate n ' ' ++ ·) id) := by
  induction n with
  | zero => exact (congrFun Option.map_id _).symm
  | succ n ih =>
    have blank := splitAtQuotes_append (l := []) (c := ' ') (by simp [quotes]) (by decide)
      (List.replicate n ' ' ++ rest)
    rw [List.nil_append] at blank
    rw [List.replicate_succ, List.cons_append, blank, ih, Option.map_map]
    rfl

theorem splitAtQuotes_ended {ls : List String} (free : ∀ l ∈ ls, ¬quotes <:+: l.toList)
    (rest : List Char) :
    splitAtQuotes (ended ls ++ rest) = (splitAtQuotes rest).map (Prod.map (ended ls ++ ·) id) := by
  induction ls with
  | nil => exact (congrFun Option.map_id _).symm
  | cons l ls ih =>
    obtain ⟨first, others⟩ := List.forall_mem_cons.1 free
    have shape : ended (l :: ls) ++ rest = l.toList ++ '\n' :: (ended ls ++ rest) := by
      simp [ended]
    rw [shape, splitAtQuotes_append first (by decide), ih others, Option.map_map]
    congr 1
    funext p
    simp [Prod.map, ended]

/-- Double quotes right before three of them are taken for the first ones. -/
theorem splitAtQuotes_closing (free : ¬quotes <:+: l) (rest : List Char) :
    splitAtQuotes (l ++ quotes ++ rest) =
      some (l.rdropWhile (· == '"'), l.rtakeWhile (· == '"') ++ rest) := by
  have cut : l.rdropWhile (· == '"') ++ l.rtakeWhile (· == '"') = l :=
    List.rdropWhile_append_rtakeWhile
  have same : l.rtakeWhile (· == '"') =
      List.replicate (l.rtakeWhile (· == '"')).length '"' := by
    refine List.eq_replicate_iff.2 ⟨rfl, fun c mem => ?_⟩
    simpa using List.mem_rtakeWhile_imp mem
  have turned : l.rtakeWhile (· == '"') ++ quotes = quotes ++ l.rtakeWhile (· == '"') := by
    have three : quotes = List.replicate 3 '"' := rfl
    rw [same, three, ← List.replicate_add, ← List.replicate_add, Nat.add_comm]
  have shape : l ++ quotes ++ rest =
      l.rdropWhile (· == '"') ++ (quotes ++ (l.rtakeWhile (· == '"') ++ rest)) := by
    rw [← List.append_assoc quotes, ← turned, ← List.append_assoc, ← List.append_assoc, cut]
  rw [shape]
  rcases List.eq_nil_or_concat (l.rdropWhile (· == '"')) with none | ⟨front, c, concat⟩
  · rw [none, List.nil_append, splitAtQuotes_quotes]
  · have other : c ≠ '"' := by
      have last := List.rdropWhile_last_not (· == '"') l (by simp [concat])
      simpa [concat] using last
    have inner : ¬quotes <:+: front := by
      intro inside
      refine free (inside.trans ?_)
      rw [← cut, concat, List.concat_eq_append]
      exact ⟨[], [c] ++ l.rtakeWhile (· == '"'), by simp⟩
    rw [concat, List.concat_eq_append, List.append_assoc, List.singleton_append,
      splitAtQuotes_append inner other, splitAtQuotes_quotes]
    simp [Prod.map]

end Quotes

/-! ## Lines of a docstring -/

section Lines

/-- A line so far from the margin; an empty one stays empty. -/
def deepened (width : Nat) (l : String) : String :=
  if l == "" then "" else String.ofList (List.replicate width ' ') ++ l

theorem deepened_of_ne (width : Nat) {l : String} (ne : l ≠ "") :
    deepened width l = String.ofList (List.replicate width ' ') ++ l :=
  if_neg (by simpa using ne)

theorem indented_deepened (width : Nat) (l : String) :
    indented (deepened width l) = deepened (width + 4) l := by
  by_cases empty : l = ""
  · subst empty
    rfl
  · have ne : String.ofList (List.replicate width ' ') ++ l ≠ "" := by simp [empty]
    rw [deepened_of_ne _ empty, deepened_of_ne _ empty, indented_of_ne ne, ← String.append_assoc]
    congr 1
    apply String.toList_inj.1
    rw [Nat.add_comm, List.replicate_add]
    simp [indent]

/-- Taking the indentation away leaves the line, whether it is empty or not. -/
theorem drop_deepened (width : Nat) (l : String) :
    String.ofList ((deepened width l).toList.drop width) = l := by
  by_cases empty : l = ""
  · subst empty
    simp [deepened]
  · rw [deepened_of_ne _ empty, String.toList_append, String.toList_ofList,
      List.drop_left' (List.length_replicate ..), String.ofList_toList]

theorem joinLines_lines (s : String) : joinLines (lines s) = s := by
  apply String.toList_inj.1
  rw [joinLines, lines, String.toList_intercalate, List.map_map]
  have same : String.toList ∘ String.ofList = id := funext fun cs => String.toList_ofList
  rw [same, List.map_id]
  exact List.intercalate_splitOn _

theorem infix_joinLines {ls : List String} {l : String} (mem : l ∈ ls) :
    l.toList <:+: (joinLines ls).toList := by
  induction ls with
  | nil => cases mem
  | cons k ks ih =>
    by_cases last : ks = []
    · subst last
      rw [List.mem_singleton.1 mem]
      simp [joinLines]
    · have joined : joinLines (k :: ks) = joinLines [k] ++ "\n" ++ joinLines ks :=
        joinLines_append (List.cons_ne_nil k []) last
      rw [joined, String.toList_append, String.toList_append]
      rcases List.mem_cons.1 mem with rfl | later
      · have own : joinLines [l] = l := by simp [joinLines]
        rw [own, List.append_assoc]
        exact (List.prefix_append _ _).isInfix
      · exact (ih later).trans (List.suffix_append _ _).isInfix

theorem lines_of_not_mem {cs : List Char} (single : '\n' ∉ cs) :
    lines (String.ofList cs) = [String.ofList cs] := by
  have apart : ∀ l ∈ [cs], '\n' ∉ l := by simpa using single
  have cut := List.splitOn_intercalate '\n' apart (List.cons_ne_nil cs [])
  rw [List.intercalate_singleton] at cut
  rw [lines, String.toList_ofList, cut]
  rfl

theorem lines_ended {ls : List String} (single : ∀ l ∈ ls, '\n' ∉ l.toList) (cs : List Char) :
    lines (String.ofList (ended ls ++ cs)) = ls ++ lines (String.ofList cs) := by
  induction ls with
  | nil => rfl
  | cons l ls ih =>
    obtain ⟨first, others⟩ := List.forall_mem_cons.1 single
    have shape : ended (l :: ls) ++ cs = l.toList ++ '\n' :: (ended ls ++ cs) := by
      simp [ended]
    rw [shape, lines_append, ih others, lines_of_not_mem first, String.ofList_toList]
    rfl

/-! ## Docstrings of one line and of several -/

variable {doc : String}

theorem infix_strippedDocstring (doc : String) :
    (strippedDocstring doc).toList <:+: doc.toList := by
  rw [strippedDocstring, String.toList_ofList, dropTrailing_eq]
  exact (List.rdropWhile_prefix _ _).isInfix.trans (List.dropWhile_suffix _).isInfix

/-- The lines of a docstring, by whether it has one or several. -/
theorem docstringLines_cases (doc : String) :
    ('\n' ∉ (strippedDocstring doc).toList ∧
      docstringLines doc = ["\"\"\"" ++ strippedDocstring doc ++ "\"\"\""] ∧
      statedDocstring doc = strippedDocstring doc) ∨
    (∃ first next rest, lines (strippedDocstring doc) = first :: next :: rest ∧
      '\n' ∈ (strippedDocstring doc).toList ∧
      docstringLines doc =
        ("\"\"\"" ++ first) :: (next :: rest).map docstringLine ++ ["\"\"\""] ∧
      statedDocstring doc = joinLines (first :: (next :: rest).map docstringLine)) := by
  have joined := joinLines_lines (strippedDocstring doc)
  unfold docstringLines
  dsimp only
  rw [← strippedDocstring, statedDocstring]
  rcases cut : lines (strippedDocstring doc) with _ | ⟨first, _ | ⟨next, rest⟩⟩
  · simp [lines] at cut
  · left
    rw [cut] at joined
    have own : first = strippedDocstring doc := by simpa [joinLines] using joined
    refine ⟨fun mem => ?_, by rw [own], by simpa [joinLines] using own⟩
    obtain ⟨xs, ys, split⟩ := List.append_of_mem mem
    have more : lines (strippedDocstring doc) =
        lines (String.ofList xs) ++ lines (String.ofList ys) := by
      rw [← lines_append, ← split, String.ofList_toList]
    have count := congrArg List.length more
    have some : ∀ s : String, (lines s).length ≠ 0 := by simp [lines]
    have left := some (String.ofList xs)
    have right := some (String.ofList ys)
    rw [cut, List.length_append, List.length_singleton] at count
    omega
  · right
    refine ⟨first, next, rest, rfl, ?_, rfl, rfl⟩
    rw [← joined, cut, joinLines, String.intercalate_cons_cons]
    simp

theorem docstringLines_ne_nil (doc : String) : docstringLines doc ≠ [] := by
  obtain ⟨l, mem, -⟩ := exists_docstringLines doc
  exact List.ne_nil_of_mem mem

/-- A docstring of one line loses the double quotes at its end to the closing delimiter. -/
theorem splitAtQuotes_single (single : '\n' ∉ (strippedDocstring doc).toList)
    (free : ¬quotes <:+: doc.toList) (rest : List Char) :
    ∃ said, strippedDocstring doc = said ++ leftover doc ∧ '\n' ∉ said.toList ∧
      splitAtQuotes ((strippedDocstring doc).toList ++ quotes ++ rest) =
        some (said.toList, (leftover doc).toList ++ rest) := by
  have inner := fun inside => free (List.IsInfix.trans inside (infix_strippedDocstring doc))
  have spare : leftover doc =
      String.ofList ((strippedDocstring doc).toList.rtakeWhile (· == '"')) :=
    if_neg (by simpa using single)
  refine ⟨String.ofList ((strippedDocstring doc).toList.rdropWhile (· == '"')), ?_, ?_, ?_⟩
  · apply String.toList_inj.1
    rw [spare, String.toList_append, String.toList_ofList, String.toList_ofList,
      List.rdropWhile_append_rtakeWhile]
  · rw [String.toList_ofList]
    exact fun mem => single ((List.rdropWhile_prefix _ _).subset mem)
  -- Quotes at the end touch the delimiter, and the first three of them all close the docstring.
  · rw [splitAtQuotes_closing inner, spare, String.toList_ofList, String.toList_ofList]

theorem infix_of_blanks {n : Nat} {l : List Char} (h : quotes <:+: List.replicate n ' ' ++ l) :
    quotes <:+: l := by
  induction n with
  | zero => exact h
  | succ n ih =>
    rw [List.replicate_succ, List.cons_append, List.infix_cons_iff] at h
    exact ih (h.resolve_left (by simp [quotes]))

/-- What stands between the delimiters of several lines. -/
def betweenDelimiters (width : Nat) (first : String) (rest : List String) : List Char :=
  first.toList ++ '\n' :: (ended (rest.map (deepened width)) ++ List.replicate width ' ')

theorem splitAtQuotes_several {first : String} {rest : List String}
    (free : ∀ l ∈ first :: rest, ¬quotes <:+: l.toList) (width : Nat) (more : List Char) :
    splitAtQuotes (betweenDelimiters width first rest ++ (quotes ++ more)) =
      some (betweenDelimiters width first rest, more) := by
  obtain ⟨own, others⟩ := List.forall_mem_cons.1 free
  have below : ∀ l ∈ rest.map (deepened width), ¬quotes <:+: l.toList := by
    intro l mem inside
    obtain ⟨k, there, rfl⟩ := List.mem_map.1 mem
    refine others k there ?_
    unfold deepened at inside
    split at inside
    · next empty => simpa [beq_iff_eq.1 empty] using inside
    · exact infix_of_blanks (by simpa using inside)
  have shape : betweenDelimiters width first rest ++ (quotes ++ more) = first.toList ++
      '\n' :: (ended (rest.map (deepened width)) ++
        (List.replicate width ' ' ++ (quotes ++ more))) := by
    simp [betweenDelimiters]
  rw [shape, splitAtQuotes_append own (by decide), splitAtQuotes_ended below,
    splitAtQuotes_blanks, splitAtQuotes_quotes]
  simp [Prod.map, betweenDelimiters]

theorem saidBetween_several {first : String} {rest : List String}
    (single : ∀ l ∈ first :: rest, '\n' ∉ l.toList) (width : Nat) :
    saidBetween width (betweenDelimiters width first rest) = joinLines (first :: rest) := by
  obtain ⟨own, others⟩ := List.forall_mem_cons.1 single
  have below : ∀ l ∈ rest.map (deepened width), '\n' ∉ l.toList := by
    intro l mem
    obtain ⟨k, there, rfl⟩ := List.mem_map.1 mem
    unfold deepened
    split
    · exact List.not_mem_nil
    · simp [others k there]
  have cut : lines (String.ofList (betweenDelimiters width first rest)) =
      first :: (rest.map (deepened width) ++ [String.ofList (List.replicate width ' ')]) := by
    rw [betweenDelimiters, lines_append, lines_of_not_mem own, lines_ended below,
      lines_of_not_mem (by simp), String.ofList_toList, List.singleton_append]
  have bare : (rest.map (deepened width) ++ [String.ofList (List.replicate width ' ')]).map
      (fun l => String.ofList (l.toList.drop width)) = rest ++ [""] := by
    rw [List.map_append, List.map_map, List.map_singleton, String.toList_ofList,
      List.drop_of_length_le (by simp)]
    have same : (fun l : String => String.ofList (l.toList.drop width)) ∘ deepened width = id :=
      funext (drop_deepened width)
    rw [same, List.map_id]
  have joined := joinLines_concat_empty (List.cons_ne_nil first rest)
  rw [saidBetween, cut]
  dsimp only
  rw [bare, ← List.cons_append, dropBreak, joined, List.getLast?_concat, if_pos (by simp),
    List.dropLast_concat, String.ofList_toList]

theorem readDocstring_eq {width : Nat} {cs between after : List Char}
    (split : splitAtQuotes cs = some (between, after)) :
    readDocstring width (String.ofList (List.replicate width ' ' ++ quotes ++ cs)) =
      some (saidBetween width between, String.ofList (after.takeWhile (· != '\n'))) := by
  have opened : (List.replicate width ' ' ++ quotes).isPrefixOf
      (List.replicate width ' ' ++ quotes ++ cs) := by
    rw [List.isPrefixOf_iff_prefix]
    exact List.prefix_append _ _
  have below : (List.replicate width ' ' ++ quotes ++ cs).drop (width + 3) = cs :=
    List.drop_left' (by simp [quotes])
  rw [readDocstring, String.toList_ofList, if_pos opened, below, split]
  rfl

theorem saidBetween_single (width : Nat) {said : String} (single : '\n' ∉ said.toList) :
    saidBetween width said.toList = said := by
  have line : (joinLines [said]).toList.getLast? ≠ some '\n' := by
    intro last
    refine single (List.mem_of_getLast? ?_)
    simpa [joinLines] using last
  rw [saidBetween, lines_of_not_mem single, String.ofList_toList]
  dsimp only
  rw [List.map_nil, dropBreak, if_neg (by simpa using line)]
  simp [joinLines]

/-- A docstring of one line is read back but for what is left over. -/
theorem readsBack_single (single : '\n' ∉ (strippedDocstring doc).toList)
    (stated : statedDocstring doc = strippedDocstring doc) (free : ¬quotes <:+: doc.toList)
    (width : Nat) (rest : List Char) :
    ReadsBack width doc (String.ofList (List.replicate width ' ' ++ quotes ++
      ((strippedDocstring doc).toList ++ quotes ++ '\n' :: rest))) := by
  obtain ⟨said, eq, own, split⟩ := splitAtQuotes_single single free ('\n' :: rest)
  have spare : ∀ c ∈ (leftover doc).toList, (c != '\n') = true := by
    intro c mem
    rw [bne_iff_ne]
    rintro rfl
    exact single (by rw [eq, String.toList_append]; exact List.mem_append_right _ mem)
  refine ⟨said, stated.trans eq, ?_⟩
  rw [readDocstring_eq split, saidBetween_single width own, List.takeWhile_append_of_pos spare,
    List.takeWhile_cons_of_neg (by simp), List.append_nil, String.ofList_toList]

/-- A docstring of several lines is read back. -/
theorem readsBack_several {first : String} {others : List String}
    (several : '\n' ∈ (strippedDocstring doc).toList)
    (stated : statedDocstring doc = joinLines (first :: others))
    (single : ∀ l ∈ first :: others, '\n' ∉ l.toList)
    (free : ∀ l ∈ first :: others, ¬quotes <:+: l.toList) (width : Nat) (rest : List Char) :
    ReadsBack width doc (String.ofList (List.replicate width ' ' ++ quotes ++
      (betweenDelimiters width first others ++ (quotes ++ '\n' :: rest)))) := by
  have none : leftover doc = "" := if_pos (by simpa using several)
  refine ⟨joinLines (first :: others), by rw [stated, none, String.append_empty], ?_⟩
  rw [readDocstring_eq (splitAtQuotes_several free width _), saidBetween_several single,
    List.takeWhile_cons_of_neg (by simp), none]

/-- A docstring without three double quotes is read back from its lines. -/
theorem readsBack_docstringLines (free : ¬quotes <:+: doc.toList) (width : Nat)
    (rest : List String) :
    ReadsBack width doc (endLines ((docstringLines doc).map (deepened width) ++ rest)) := by
  have inside := fun l (mem : l ∈ lines (strippedDocstring doc)) => infix_joinLines mem
  rw [joinLines_lines] at inside
  have opening : ∀ s : String, deepened width ("\"\"\"" ++ s) =
      String.ofList (List.replicate width ' ') ++ ("\"\"\"" ++ s) :=
    fun s => deepened_of_ne width (by simp)
  have closing : deepened width "\"\"\"" =
      String.ofList (List.replicate width ' ') ++ "\"\"\"" :=
    deepened_of_ne width (by simp)
  rcases docstringLines_cases doc with ⟨single, lay, stated⟩ |
    ⟨first, next, others, cut, several, lay, stated⟩
  · have text : endLines ((docstringLines doc).map (deepened width) ++ rest) =
        String.ofList (List.replicate width ' ' ++ quotes ++
          ((strippedDocstring doc).toList ++ quotes ++ '\n' :: ended rest)) := by
      apply String.toList_inj.1
      rw [toList_endLines (by simp [lay]), lay, List.map_singleton, String.append_assoc, opening]
      simp [ended, quotes]
    rw [text]
    exact readsBack_single single stated free width _
  · have text : endLines ((docstringLines doc).map (deepened width) ++ rest) =
        String.ofList (List.replicate width ' ' ++ quotes ++
          (betweenDelimiters width first ((next :: others).map docstringLine) ++
            (quotes ++ '\n' :: ended rest))) := by
      apply String.toList_inj.1
      rw [toList_endLines (by simp [lay]), lay, List.map_append, List.map_cons, opening,
        List.map_singleton, closing]
      simp [ended, quotes, betweenDelimiters]
    have each : ∀ l ∈ first :: (next :: others).map docstringLine,
        l = "" ∨ l ∈ lines (strippedDocstring doc) := by
      rw [cut]
      intro l mem
      rcases List.mem_cons.1 mem with rfl | later
      · exact .inr List.mem_cons_self
      · obtain ⟨k, there, rfl⟩ := List.mem_map.1 later
        unfold docstringLine
        split
        · exact .inl rfl
        · exact .inr (List.mem_cons_of_mem _ there)
    rw [text]
    refine readsBack_several several stated (fun l mem => ?_) (fun l mem => ?_) width _
    · rcases each l mem with rfl | own
      · exact List.not_mem_nil
      · obtain ⟨part, there, rfl⟩ := List.mem_map.1 own
        rw [String.toList_ofList]
        exact (of_mem_splitOn there).1
    · rcases each l mem with rfl | own
      · simp [quotes]
      · exact fun quoted => free ((quoted.trans (inside l own)).trans
          (infix_strippedDocstring doc))

end Lines

/-! ## Files -/

/-- A docstring that is shown and does not hold its own delimiter. -/
structure IsDocstring (given : Option String) (doc : String) : Prop where
  given : given = some doc
  full : doc ≠ ""
  free : ¬quotes <:+: doc.toList

namespace IsDocstring

variable {given : Option String} {doc : String}

theorem shown (h : IsDocstring given doc) : shownDocstring given = some doc := by
  rw [shownDocstring, h.given, Option.filter_some, if_pos (by simpa using h.full)]

theorem optional (h : IsDocstring given doc) : optionalDocstring given = docstringLines doc := by
  rw [optionalDocstring, h.shown, Option.map_some, Option.getD_some]

end IsDocstring

theorem Function.exists_inner_of_docstring {g : Function} {doc : String}
    (h : IsDocstring g.docstring doc) : ∃ more, g.inner = docstringLines doc ++ more := by
  refine ⟨g.lines, ?_⟩
  rw [inner, h.shown, h.optional]
  rfl

theorem ClassDef.exists_inner_of_docstring {c : ClassDef} {doc : String}
    (h : IsDocstring c.docstring doc) : ∃ more, c.inner = docstringLines doc ++ more := by
  rcases c.exists_inner with ⟨-, items⟩ | ⟨more, eq, -⟩
  · refine ⟨[], ?_⟩
    simp [inner, h.shown, h.optional, items, ClassItem.layoutAll]
  · exact ⟨more, by rw [eq, h.optional]⟩

/-- What stands below a header starts with the docstring one level deeper. -/
theorem readsBack_below {doc : String} {inner more : List String} (free : ¬quotes <:+: doc.toList)
    (eq : inner = docstringLines doc ++ more) (rest : List String) :
    ReadsBack 4 doc (endLines (inner.map indented ++ rest)) := by
  have lay : inner.map indented ++ rest =
      (docstringLines doc).map (deepened 4) ++ (more.map indented ++ rest) := by
    rw [eq, List.map_append, List.append_assoc]
    rfl
  rw [lay]
  exact readsBack_docstringLines free 4 _

/-- What stands below the header of a method starts with the docstring two levels deeper. -/
theorem readsBack_below_method {doc : String} {inner more : List String}
    (free : ¬quotes <:+: doc.toList) (eq : inner = docstringLines doc ++ more)
    (others rest : List String) :
    ReadsBack 8 doc (endLines ((inner.map indented ++ others).map indented ++ rest)) := by
  have lay : (inner.map indented ++ others).map indented ++ rest =
      (docstringLines doc).map (deepened 8) ++
        ((more.map indented ++ others).map indented ++ rest) := by
    have twice : ((docstringLines doc).map indented).map indented =
        (docstringLines doc).map (deepened 8) := by
      rw [List.map_map]
      exact List.map_congr_left fun l _ => indented_deepened 4 l
    simp only [eq, List.map_append, List.append_assoc, twice]
  rw [lay]
  exact readsBack_docstringLines free 8 _

/-- In the text of a file every docstring without three double quotes stands right below the header
of its class, function or method and is read back from there, but for the double quotes at the end
of a docstring of one line: those follow the closing delimiter. -/
theorem File.docstrings_read {f : File} {text : String} (laid : f.layout .plain = .ok text) :
    ∃ groups, importGroups f.imports = .ok groups ∧
    (∀ before c after, f.body = before ++ .classDef c :: after →
      ∀ doc, IsDocstring c.docstring doc →
      ∃ above below, text = endLines (above ++ [c.header]) ++ below ∧
        SetApart (partsOf groups before) above ∧ ReadsBack 4 doc below) ∧
    (∀ before g after, f.body = before ++ .function g :: after →
      ∀ doc, IsDocstring g.docstring doc →
      ∃ above below, text = endLines (above ++ g.heading) ++ below ∧
        SetApart (partsOf groups before) above ∧ ReadsBack 4 doc below) ∧
    (∀ before c after, f.body = before ++ .classDef c :: after →
      ∀ earlier g later, c.items = earlier ++ .function g :: later →
      ∀ doc, IsDocstring g.docstring doc →
      ∃ above inside below, text = endLines (above ++ c.header ::
          (optionalDocstring c.docstring ++ inside ++ g.heading).map indented) ++ below ∧
        SetApart (partsOf groups before) above ∧
        SetApart (earlier.map ClassItem.layout) inside ∧ ReadsBack 8 doc below) := by
  obtain ⟨groups, made, rfl⟩ := layout_eq_ok_iff.1 laid
  have apart : SetApart (partsOf groups f.body) _ :=
    f.setApart_linesBelow (SetApart.intercalate (groups.map (·.map ImportLine.text)))
  generalize f.linesBelow _ = ls at apart
  refine ⟨groups, made, ?_, ?_, ?_⟩
  · intro before c after body doc own
    rw [body] at apart
    obtain ⟨above, below, rfl, upper⟩ := exists_definition apart
    obtain ⟨more, eq⟩ := ClassDef.exists_inner_of_docstring own
    refine ⟨above, endLines (c.inner.map indented ++ below), ?_, upper,
      readsBack_below own.free eq below⟩
    rw [← endLines_append (by simp) (by simp [eq, docstringLines_ne_nil])]
    simp [Definition.layout, ClassDef.layout]
  · intro before g after body doc own
    rw [body] at apart
    obtain ⟨above, below, rfl, upper⟩ := exists_definition apart
    obtain ⟨more, eq⟩ := Function.exists_inner_of_docstring own
    refine ⟨above, endLines (g.inner.map indented ++ below), ?_, upper,
      readsBack_below own.free eq below⟩
    rw [← endLines_append (by simp [Function.heading]) (by simp [eq, docstringLines_ne_nil])]
    simp [Definition.layout, Function.layout_eq]
  · intro before c after body earlier g later items doc own
    rw [body] at apart
    obtain ⟨above, below, rfl, upper⟩ := exists_definition apart
    obtain ⟨inside, others, lay, within⟩ := ClassDef.exists_item items
    obtain ⟨more, eq⟩ := Function.exists_inner_of_docstring own
    refine ⟨above, inside, endLines ((g.inner.map indented ++ others).map indented ++ below), ?_,
      upper, within, readsBack_below_method own.free eq others below⟩
    rw [← endLines_append (by simp) (by simp [eq, docstringLines_ne_nil])]
    simp [Definition.layout, ClassDef.layout, lay, ClassItem.layout, Function.layout_eq]

/-- A class with a docstring that ends with a double quote. -/
def quotedFile : File where
  name := "quoted"
  body := [.classDef { name := "A", docstring := some "a\"" }]

/-- Read back from the text, the docstring lacks its double quote, which follows the closing
delimiter. -/
theorem docstrings_read_quotedFile :
    quotedFile.layout .plain = .ok "class A:\n    \"\"\"a\"\"\"\"\n" ∧
    ∃ above below, "class A:\n    \"\"\"a\"\"\"\"\n" = endLines (above ++ ["class A:"]) ++ below ∧
      statedDocstring "a\"" = "a\"" ∧ readDocstring 4 below = some ("a", "\"") := by
  have laid : quotedFile.layout .plain = .ok "class A:\n    \"\"\"a\"\"\"\"\n" := by
    obtain ⟨block, made, -, none⟩ := exists_importBlock (List.forall_mem_nil _)
    rw [none.2 rfl] at made
    exact Error.bind_eq_ok_iff.2 ⟨[], made, congrArg Except.ok (by decide)⟩
  have own : IsDocstring (some "a\"") "a\"" := ⟨rfl, by decide, by decide⟩
  have stated : statedDocstring "a\"" = "a" ++ "\"" := by decide
  have spare : leftover "a\"" = "\"" := by decide
  obtain ⟨groups, -, classes, -⟩ := File.docstrings_read laid
  obtain ⟨above, below, eq, -, said, whole, read⟩ := classes [] _ [] rfl "a\"" own
  rw [stated, spare, String.append_left_inj] at whole
  rw [spare, ← whole] at read
  exact ⟨laid, above, below, eq, stated, read⟩

end Polyad.Code
