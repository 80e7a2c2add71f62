import Polyad.Proofs.Text.Lines

/-!
# The lines that a text becomes

A text that has line breaks in it becomes several lines of the text it is put into. Putting breaks
right commutes with putting texts together where a line feed stands between them.
-/

namespace Polyad

namespace Text

theorem unifyBreaks_feed (rest : List Char) :
    unifyBreaks ('\n' :: rest) = '\n' :: unifyBreaks rest :=
  unifyBreaks_cons (by decide) rest

/-- The breaks of a text, by what it starts with: a return before a line feed is no break of its
own, any other one is. -/
theorem unifyBreaks_return_cons (c : Char) (rest : List Char) :
    unifyBreaks ('\r' :: c :: rest) =
      if c = '\n' then unifyBreaks (c :: rest) else '\n' :: unifyBreaks (c :: rest) := by
  split
  · next feed => rw [feed, unifyBreaks_break, unifyBreaks_feed]
  · next other => exact unifyBreaks_return (by simpa using other)

/-- Between two texts no break is put right that was not there in one of them, unless a return at
the end of the first and a line feed at the start of the second are one. -/
theorem unifyBreaks_append_of_whole {xs ys : List Char}
    (whole : xs.getLast? = some '\r' → ys.head? ≠ some '\n') :
    unifyBreaks (xs ++ ys) = unifyBreaks xs ++ unifyBreaks ys := by
  induction xs with
  | nil => rfl
  | cons x xs ih =>
    have rest := ih fun last => whole (by
      rwa [List.getLast?_cons_of_ne_nil (by rintro rfl; cases last)])
    by_cases ret : x = '\r'
    · subst ret
      cases xs with
      | nil =>
        rw [List.cons_append, List.nil_append, unifyBreaks_return (whole rfl)]
        rfl
      | cons y zs =>
        rw [List.cons_append] at rest
        rw [List.cons_append, List.cons_append, unifyBreaks_return_cons, unifyBreaks_return_cons]
        split <;> simp [rest]
    · rw [List.cons_append, unifyBreaks_cons ret, unifyBreaks_cons ret, rest, List.cons_append]

/-- What stands before a line feed and what stands after it have no break in common. -/
theorem unifyBreaks_append (xs ys : List Char) :
    unifyBreaks (xs ++ '\n' :: ys) = unifyBreaks (xs ++ ['\n']) ++ unifyBreaks ys := by
  have whole : (xs ++ ['\n']).getLast? = some '\r' → ys.head? ≠ some '\n' := by simp
  rw [← unifyBreaks_append_of_whole whole, List.append_assoc, List.singleton_append]

/-- A text that ends in a line feed still does when its breaks are put right. -/
theorem exists_unifyBreaks_concat (xs : List Char) :
    ∃ us, unifyBreaks (xs ++ ['\n']) = us ++ ['\n'] := by
  induction xs with
  | nil => exact ⟨[], rfl⟩
  | cons x xs ih =>
    obtain ⟨us, eq⟩ := ih
    by_cases ret : x = '\r'
    · subst ret
      cases xs with
      | nil => exact ⟨[], rfl⟩
      | cons y ys =>
        simp only [List.cons_append, unifyBreaks_return_cons] at eq ⊢
        split
        · exact ⟨us, eq⟩
        · exact ⟨'\n' :: us, by rw [eq, List.cons_append]⟩
    · exact ⟨x :: us, by rw [List.cons_append, unifyBreaks_cons ret, eq, List.cons_append]⟩

theorem lines_append (xs ys : List Char) :
    lines (String.ofList (xs ++ '\n' :: ys)) =
      lines (String.ofList xs) ++ lines (String.ofList ys) := by
  simp [lines, List.splitOn_append_cons_self]

/-- The lines that a text makes where a line feed ends it. -/
def rows (s : String) : List String :=
  (lines (String.ofList (unifyBreaks (s.toList ++ ['\n'])))).dropLast

theorem rows_eq {s : String} {us : List Char}
    (eq : unifyBreaks (s.toList ++ ['\n']) = us ++ ['\n']) : rows s = lines (String.ofList us) := by
  rw [rows, eq, lines_append us []]
  simp [lines]

/-- The characters of some texts, each ended by a line feed. -/
def ended (ss : List String) : List Char := ss.flatMap fun s => s.toList ++ ['\n']

theorem unifyBreaks_ended (ss : List String) (rest : List Char) :
    unifyBreaks (ended ss ++ rest) = unifyBreaks (ended ss) ++ unifyBreaks rest := by
  induction ss with
  | nil => rfl
  | cons s ss ih =>
    have shape (rest : List Char) :
        ended (s :: ss) ++ rest = s.toList ++ '\n' :: (ended ss ++ rest) := by
      simp [ended]
    have own := shape []
    rw [List.append_nil, List.append_nil] at own
    rw [shape, unifyBreaks_append, ih, own, unifyBreaks_append s.toList (ended ss),
      List.append_assoc]

theorem lines_unifyBreaks_ended (ss : List String) (rest : List Char) :
    lines (String.ofList (unifyBreaks (ended ss ++ rest))) =
      ss.flatMap rows ++ lines (String.ofList (unifyBreaks rest)) := by
  induction ss with
  | nil => rfl
  | cons s ss ih =>
    obtain ⟨us, eq⟩ := exists_unifyBreaks_concat s.toList
    have shape : ended (s :: ss) ++ rest = s.toList ++ '\n' :: (ended ss ++ rest) := by
      simp [ended]
    rw [shape, unifyBreaks_append, eq, List.append_assoc, List.singleton_append, lines_append, ih,
      List.flatMap_cons, rows_eq eq, List.append_assoc]

theorem lines_single {s : String} (single : Single s) : lines s = [s] := by
  have joined : lines (joinLines [s]) = [s] := lines_joinLines (by simpa using single) (by simp)
  simpa [joinLines] using joined

theorem rows_of_single {line : String} (single : Single line) : rows line = [line] := by
  rw [rows_eq (unifyBreaks_eq_self (by simpa using single.2)), String.ofList_toList,
    lines_single single]

theorem unifyBreaks_front {xs : List Char} (none : '\r' ∉ xs) (ys : List Char) :
    unifyBreaks (xs ++ ys) = xs ++ unifyBreaks ys := by
  induction xs with
  | nil => rfl
  | cons x xs ih =>
    rw [List.mem_cons, not_or] at none
    rw [List.cons_append, unifyBreaks_cons (Ne.symm none.1), ih none.2, List.cons_append]

theorem splitOn_append {α : Type} [BEq α] [LawfulBEq α] {x : α} {xs : List α} (none : x ∉ xs)
    (ys : List α) : ∃ r rs, ys.splitOn x = r :: rs ∧ (xs ++ ys).splitOn x = (xs ++ r) :: rs := by
  induction xs with
  | nil =>
    obtain ⟨r, rs, cut⟩ := List.exists_cons_of_ne_nil (List.splitOn_ne_nil x ys)
    exact ⟨r, rs, cut, cut⟩
  | cons y xs ih =>
    rw [List.mem_cons, not_or] at none
    obtain ⟨r, rs, cut, eq⟩ := ih none.2
    refine ⟨r, rs, cut, ?_⟩
    rw [List.splitOn_eq_splitOnP] at eq ⊢
    rw [List.cons_append, List.splitOnP_cons_eq_if_modifyHead,
      if_neg (by simpa using Ne.symm none.1), eq]
    rfl

/-- What stands in front of a text without breaks stands in front of its first line. -/
theorem rows_append {p : String} (single : Single p) (s : String) :
    ∃ r rs, rows s = r :: rs ∧ rows (p ++ s) = (p ++ r) :: rs := by
  obtain ⟨us, eq⟩ := exists_unifyBreaks_concat s.toList
  have front : unifyBreaks ((p ++ s).toList ++ ['\n']) = p.toList ++ us ++ ['\n'] := by
    rw [String.toList_append, List.append_assoc, unifyBreaks_front single.2, eq, List.append_assoc]
  obtain ⟨r, rs, own, cut⟩ := splitOn_append single.1 us
  refine ⟨String.ofList r, rs.map String.ofList, ?_, ?_⟩
  · rw [rows_eq eq, lines, String.toList_ofList, own, List.map_cons]
  · rw [rows_eq front, lines, String.toList_ofList, cut, List.map_cons]
    simp

/-- Some texts above a line without breaks: in normal form they are the lines that each of them
makes, and the line is below them. -/
theorem lines_normalize {ss : List String} {first : String} (single : Single first)
    (full : first ≠ "") {t : String} {more : List Char}
    (chars : t.toList = ended ss ++ (first.toList ++ '\n' :: more)) :
    ∃ below, lines (normalize t) = ss.flatMap rows ++ first :: below := by
  obtain ⟨init, c, last⟩ := (List.eq_nil_or_concat first.toList).resolve_left
    (mt String.toList_eq_nil_iff.1 full)
  rw [List.concat_eq_append] at last
  have plain : unifyBreaks first.toList = first.toList := unifyBreaks_eq_self single.2
  have unified : unifyBreaks t.toList =
      (unifyBreaks (ended ss) ++ first.toList) ++ '\n' :: unifyBreaks more := by
    have own : unifyBreaks (first.toList ++ ['\n']) = first.toList ++ ['\n'] :=
      unifyBreaks_eq_self (by simpa using single.2)
    rw [chars, unifyBreaks_ended, unifyBreaks_append, own]
    simp
  have keep : (c == '\n') = false := by
    rw [beq_eq_false_iff_ne]
    rintro rfl
    exact single.1 (by simp [last])
  have kept : dropTrailing '\n' (unifyBreaks t.toList) =
      (unifyBreaks (ended ss) ++ first.toList) ++
        ('\n' :: unifyBreaks more).rdropWhile (· == '\n') := by
    rw [dropTrailing_eq, unified]
    exact rdropWhile_append_of_last (x := c) (by simp [last]) keep _
  obtain ⟨below, ends⟩ : ∃ below,
      ('\n' :: unifyBreaks more).rdropWhile (· == '\n') ++ ['\n'] = '\n' :: below := by
    have start := List.rdropWhile_prefix (· == '\n') ('\n' :: unifyBreaks more)
    cases rest : ('\n' :: unifyBreaks more).rdropWhile (· == '\n') with
    | nil => exact ⟨[], rfl⟩
    | cons d ds =>
      rw [rest, List.cons_prefix_cons] at start
      exact ⟨ds ++ ['\n'], by rw [start.1, List.cons_append]⟩
  have above : lines (String.ofList (unifyBreaks (ended ss) ++ first.toList)) =
      ss.flatMap rows ++ [first] := by
    have made := lines_unifyBreaks_ended ss first.toList
    rw [unifyBreaks_ended, plain] at made
    rw [made, String.ofList_toList, lines_single single]
  refine ⟨lines (String.ofList below), ?_⟩
  rw [normalize_eq, kept, List.append_assoc, ends, lines_append, above, List.append_assoc]
  rfl

end Text
end Polyad
