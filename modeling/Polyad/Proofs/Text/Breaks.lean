import Polyad.Proofs.Text.Rows

/-!
# Line breaks

A line break is written in three ways. `Cut` says what it is to cut a text at its breaks,
`universalLines` cuts it. There is only one way to do so, and the normal form of a text consists of
these lines without the empty ones at the end. It keeps them, so it is the same for two texts
exactly if they have the same lines.
-/

namespace Polyad

namespace Text

/-- The three ways to write a break. -/
inductive IsBreak : List Char → Prop where
  | pair : IsBreak ['\r', '\n']
  | ret : IsBreak ['\r']
  | feed : IsBreak ['\n']

/-- The lines of a text, with a break between any two of them. A line feed right after a carriage
return belongs to the same break. -/
inductive Cut : List Char → List String → Prop where
  | last {line : String} (single : Single line) : Cut line.toList [line]
  | more {line : String} {br rest : List Char} {ls : List String} (single : Single line)
      (written : IsBreak br) (whole : br = ['\r'] → rest.head? ≠ some '\n') (below : Cut rest ls) :
      Cut (line.toList ++ (br ++ rest)) (line :: ls)

def cutBreaks : List Char → List (List Char)
  | [] => [[]]
  | '\r' :: '\n' :: rest => [] :: cutBreaks rest
  | c :: rest =>
    if c = '\r' ∨ c = '\n' then [] :: cutBreaks rest
    else (cutBreaks rest).modifyHead (c :: ·)

/-- The lines between the breaks; a break at the end opens one more, empty line. -/
def universalLines (s : String) : List String := (cutBreaks s.toList).map String.ofList

/-- The lines without the empty ones at the end. -/
def contentLines (s : String) : List String := (universalLines s).rdropWhile (· == "")

/-! ## One way to cut -/

theorem Cut.ne_nil {cs : List Char} {ls : List String} (cut : Cut cs ls) : ls ≠ [] := by
  cases cut <;> exact List.cons_ne_nil _ _

theorem Cut.single {cs : List Char} {ls : List String} (cut : Cut cs ls) :
    ∀ l ∈ ls, Single l := by
  induction cut with
  | last single => simpa using single
  | more single _ _ _ ih => exact List.forall_mem_cons.2 ⟨single, ih⟩

/-- A break of any kind becomes a line feed. -/
theorem IsBreak.unifyBreaks_append {br rest : List Char} (written : IsBreak br)
    (whole : br = ['\r'] → rest.head? ≠ some '\n') :
    unifyBreaks (br ++ rest) = '\n' :: unifyBreaks rest := by
  cases written with
  | pair => exact unifyBreaks_break rest
  | ret => exact unifyBreaks_return (whole rfl)
  | feed => exact unifyBreaks_feed rest

/-- Putting the breaks right joins the lines by line feeds. -/
theorem Cut.unifyBreaks_eq {cs : List Char} {ls : List String} (cut : Cut cs ls) :
    unifyBreaks cs = (joinLines ls).toList := by
  induction cut with
  | last single =>
    rw [unifyBreaks_eq_self single.2]
    simp [joinLines]
  | @more line br rest ls single written whole below ih =>
    have joined : joinLines (line :: ls) = line ++ "\n" ++ joinLines ls :=
      joinLines_append (List.cons_ne_nil line []) below.ne_nil
    rw [unifyBreaks_front single.2, written.unifyBreaks_append whole, ih, joined]
    simp

theorem Cut.eq_lines {cs : List Char} {ls : List String} (cut : Cut cs ls) :
    ls = lines (String.ofList (unifyBreaks cs)) := by
  rw [cut.unifyBreaks_eq, String.ofList_toList, lines_joinLines cut.single cut.ne_nil]

/-- A character that is no break is put in front of the first line. -/
theorem Cut.cons {c : Char} {cs : List Char} {l : String} {ls : List String}
    (plain : ¬ (c = '\r' ∨ c = '\n')) (cut : Cut cs (l :: ls)) :
    Cut (c :: cs) (String.ofList (c :: l.toList) :: ls) := by
  have longer (single : Single l) : Single (String.ofList (c :: l.toList)) := by
    rw [not_or] at plain
    simpa [Single, Ne.symm plain.1, Ne.symm plain.2] using single
  have chars : (String.ofList (c :: l.toList)).toList = c :: l.toList := String.toList_ofList
  cases cut with
  | last single =>
    have put := Cut.last (longer single)
    rwa [chars] at put
  | more single written whole below =>
    have put := Cut.more (longer single) written whole below
    rwa [chars, List.cons_append] at put

theorem cut_cutBreaks (cs : List Char) : Cut cs ((cutBreaks cs).map String.ofList) := by
  have empty : Single "" := by decide
  fun_induction cutBreaks cs with
  | case1 => exact Cut.last empty
  | case2 rest ih => exact Cut.more empty .pair (by simp) ih
  | case3 c rest lone br ih =>
    rcases br with rfl | rfl
    · refine Cut.more empty .ret (fun _ feed => ?_) ih
      obtain ⟨more, rfl⟩ := List.head?_eq_some_iff.1 feed
      exact lone more rfl rfl
    · exact Cut.more empty .feed (by simp) ih
  | case4 c rest _ plain ih =>
    obtain ⟨l, ls, cut⟩ := List.exists_cons_of_ne_nil ih.ne_nil
    obtain ⟨r, rs, runs, rfl, rfl⟩ := List.map_eq_cons_iff.1 cut
    rw [cut] at ih
    have put := ih.cons plain
    rw [String.toList_ofList] at put
    rwa [runs]

theorem cut_universalLines (s : String) : Cut s.toList (universalLines s) := cut_cutBreaks s.toList

theorem cut_iff {s : String} {ls : List String} : Cut s.toList ls ↔ ls = universalLines s := by
  constructor
  · intro cut
    rw [cut.eq_lines, ← (cut_universalLines s).eq_lines]
  · rintro rfl
    exact cut_universalLines s

/-- Without a carriage return only line feeds are breaks. -/
theorem universalLines_eq_lines {s : String} (none : '\r' ∉ s.toList) :
    universalLines s = lines s := by
  rw [(cut_universalLines s).eq_lines, unifyBreaks_eq_self none, String.ofList_toList]

/-! ## The normal form by its lines -/

theorem single_of_mem_contentLines {s l : String} (mem : l ∈ contentLines s) : Single l :=
  (cut_universalLines s).single l ((List.rdropWhile_prefix _ _).subset mem)

/-- The line feeds at the end of a text with its breaks put right are its empty lines there. -/
theorem dropTrailing_unifyBreaks (s : String) :
    dropTrailing '\n' (unifyBreaks s.toList) = (joinLines (contentLines s)).toList := by
  have cut := cut_universalLines s
  rw [dropTrailing_eq, cut.unifyBreaks_eq, rdropWhile_joinLines cut.single, contentLines]

theorem normalize_eq_joinLines (s : String) :
    normalize s = joinLines (contentLines s) ++ "\n" := by
  rw [normalize_eq, dropTrailing_unifyBreaks, String.ofList_append, String.ofList_toList]

theorem return_not_mem_normalize (s : String) : '\r' ∉ (normalize s).toList := by
  have joined : '\r' ∉ (joinLines (contentLines s)).toList :=
    not_mem_intercalate (by decide) fun l mem => (single_of_mem_contentLines mem).2
  simpa [normalize_eq_joinLines] using joined

/-- Before the line feed at the end of a normal form stands no other one. -/
theorem getLast?_joinLines_contentLines (s : String) :
    (joinLines (contentLines s)).toList.getLast? ≠ some '\n' := by
  rw [← dropTrailing_unifyBreaks, dropTrailing_eq]
  intro last
  have ne : (unifyBreaks s.toList).rdropWhile (· == '\n') ≠ [] := by
    intro nil
    simp [nil] at last
  have other := List.rdropWhile_last_not (· == '\n') _ ne
  rw [List.getLast?_eq_some_getLast ne] at last
  exact other (by simpa using last)

/-- The normal form has the lines of the text, up to the empty ones at the end. -/
theorem contentLines_normalize (s : String) : contentLines (normalize s) = contentLines s := by
  have again : (contentLines s).rdropWhile (· == "") = contentLines s :=
    List.rdropWhile_idempotent _ _
  have single : ∀ l ∈ contentLines s, Single l := fun l => single_of_mem_contentLines
  rw [contentLines, universalLines_eq_lines (return_not_mem_normalize s), normalize_eq_joinLines]
  by_cases none : contentLines s = []
  · rw [none]
    decide
  · have ended : lines (joinLines (contentLines s) ++ "\n") = contentLines s ++ [""] :=
      Code.lines_endLines single none
    rw [ended, List.rdropWhile_concat_pos _ _ _ (by decide), again]

/-- The normal form of a text, for every mixture of the three breaks: it consists of the lines
between them, joined by line feeds and without the empty ones at the end. So it has no carriage
return and exactly one line feed at its end, is its own normal form, and is shared by just the texts
with the same lines up to empty ones at the end. -/
theorem normalize_canonical (s : String) :
    (∀ ls, Cut s.toList ls ↔ ls = universalLines s) ∧
    normalize s = joinLines (contentLines s) ++ "\n" ∧
    '\r' ∉ (normalize s).toList ∧
    (∃ body, normalize s = body ++ "\n" ∧ body.toList.getLast? ≠ some '\n') ∧
    normalize (normalize s) = normalize s ∧
    ∀ t, normalize s = normalize t ↔ contentLines s = contentLines t := by
  refine ⟨fun ls => cut_iff, normalize_eq_joinLines s, return_not_mem_normalize s,
    ⟨joinLines (contentLines s), normalize_eq_joinLines s, getLast?_joinLines_contentLines s⟩,
    ?idempotent, fun t => ⟨fun same => ?lines, fun same => ?form⟩⟩
  case idempotent =>
    rw [normalize_eq_joinLines (normalize s), contentLines_normalize, normalize_eq_joinLines s]
  case lines => rw [← contentLines_normalize s, same, contentLines_normalize t]
  case form => rw [normalize_eq_joinLines s, same, normalize_eq_joinLines t]

example : normalize "a\r\r\nb\n\rc\r\n\n\r" = "a\n\nb\n\nc\n" := by decide

end Text
end Polyad
