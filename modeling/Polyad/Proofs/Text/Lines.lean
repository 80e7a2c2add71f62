import Mathlib.Data.List.DropRight
import Polyad.Code.Layout

/-!
# Lines of a text

A text of lines without breaks of their own has just these lines. Putting it in normal form takes
away the empty lines at its end and nothing else.
-/

namespace Polyad

namespace Text

/-- A text of one line: no line break is in it. -/
def Single (s : String) : Prop := '\n' ∉ s.toList ∧ '\r' ∉ s.toList

instance (s : String) : Decidable (Single s) := inferInstanceAs (Decidable (_ ∧ _))

theorem single_append {s t : String} : Single (s ++ t) ↔ Single s ∧ Single t := by
  simp only [Single, String.toList_append, List.mem_append, not_or]
  exact ⟨fun ⟨⟨a, b⟩, c, d⟩ => ⟨⟨a, c⟩, b, d⟩, fun ⟨⟨a, c⟩, b, d⟩ => ⟨⟨a, b⟩, c, d⟩⟩

theorem not_mem_intercalate {c : Char} {sep : String} {ls : List String} (own : c ∉ sep.toList)
    (each : ∀ l ∈ ls, c ∉ l.toList) : c ∉ (sep.intercalate ls).toList := by
  induction ls with
  | nil => exact nofun
  | cons l ls ih =>
    obtain ⟨first, rest⟩ := List.forall_mem_cons.1 each
    cases ls with
    | nil => simpa using first
    | cons m ms =>
      rw [String.intercalate_cons_cons]
      simpa [first, own] using ih rest

theorem single_intercalate {sep : String} {ls : List String} (own : Single sep)
    (each : ∀ l ∈ ls, Single l) : Single (sep.intercalate ls) :=
  ⟨not_mem_intercalate own.1 fun l mem => (each l mem).1,
    not_mem_intercalate own.2 fun l mem => (each l mem).2⟩

/-! ## Joining and cutting -/

theorem of_mem_splitOn {α : Type} [BEq α] [LawfulBEq α] {x : α} {xs part : List α}
    (h : part ∈ xs.splitOn x) : x ∉ part ∧ part ⊆ xs := by
  induction xs generalizing part with
  | nil =>
    rw [List.splitOn_nil, List.mem_singleton] at h
    simp [h]
  | cons y ys ih =>
    rw [List.splitOn_eq_splitOnP, List.splitOnP_cons_eq_if_modifyHead] at h
    split at h
    · rcases List.mem_cons.1 h with rfl | h
      · simp
      · exact (ih h).imp_right fun sub => List.subset_cons_of_subset y sub
    · next ne =>
      cases runs : ys.splitOnP (· == x) with
      | nil => exact absurd runs (List.splitOnP_ne_nil _ _)
      | cons r rs =>
        rw [← List.splitOn_eq_splitOnP] at runs
        rw [← List.splitOn_eq_splitOnP, runs, List.modifyHead_cons] at h
        rcases List.mem_cons.1 h with rfl | h
        · obtain ⟨none, sub⟩ := ih (runs ▸ List.mem_cons_self)
          have ne : x ≠ y := by
            rintro rfl
            simp at ne
          exact ⟨by simp [ne, none], List.cons_subset_cons y sub⟩
        · exact (ih (runs ▸ List.mem_cons_of_mem r h)).imp_right
            fun sub => List.subset_cons_of_subset y sub

theorem concat_cons (s : String) (ss : List String) :
    "".intercalate (s :: ss) = s ++ "".intercalate ss := by
  cases ss with
  | nil => simp
  | cons t ts => rw [String.intercalate_cons_cons, String.append_empty]

theorem joinLines_append {ls ms : List String} (left : ls ≠ []) (right : ms ≠ []) :
    joinLines (ls ++ ms) = joinLines ls ++ "\n" ++ joinLines ms := by
  induction ls with
  | nil => exact absurd rfl left
  | cons l ls ih =>
    cases ls with
    | nil =>
      obtain ⟨m, ms, rfl⟩ := List.exists_cons_of_ne_nil right
      simp [joinLines]
    | cons k ks =>
      have ih := ih (List.cons_ne_nil k ks)
      simp only [joinLines, List.cons_append, String.intercalate_cons_cons] at ih ⊢
      rw [ih]
      simp only [String.append_assoc]

theorem lines_joinLines {ls : List String} (single : ∀ l ∈ ls, Single l) (ne : ls ≠ []) :
    lines (joinLines ls) = ls := by
  have apart : ∀ cs ∈ ls.map String.toList, '\n' ∉ cs := by
    intro cs mem
    obtain ⟨l, there, rfl⟩ := List.mem_map.1 mem
    exact (single l there).1
  have cut := List.splitOn_intercalate '\n' apart (by simpa using ne)
  rw [lines, joinLines, String.toList_intercalate]
  change (List.splitOn '\n' (['\n'].intercalate _)).map _ = _
  rw [cut, List.map_map]
  exact (List.map_congr_left fun l _ => String.ofList_toList).trans (List.map_id ls)

/-! ## Normal form -/

theorem rdropWhile_append_of_last {α : Type} {p : α → Bool} {xs : List α} {x : α}
    (last : xs.getLast? = some x) (keep : p x = false) (ys : List α) :
    (xs ++ ys).rdropWhile p = xs ++ ys.rdropWhile p := by
  induction ys using List.reverseRecOn with
  | nil =>
    rw [List.rdropWhile_nil, List.append_nil, List.rdropWhile_eq_self_iff]
    intro ne
    rw [List.getLast?_eq_some_getLast ne] at last
    rw [Option.some.inj last, keep]
    decide
  | append_singleton ys y ih =>
    by_cases drop : p y
    · rw [← List.append_assoc, List.rdropWhile_concat_pos _ _ _ drop,
        List.rdropWhile_concat_pos _ _ _ drop, ih]
    · rw [← List.append_assoc, List.rdropWhile_concat_neg _ _ _ drop,
        List.rdropWhile_concat_neg _ _ _ drop, List.append_assoc]

theorem dropTrailing_eq (x : Char) (cs : List Char) :
    dropTrailing x cs = cs.rdropWhile (· == x) := rfl

theorem unifyBreaks_eq_self {cs : List Char} (h : '\r' ∉ cs) : unifyBreaks cs = cs := by
  induction cs with
  | nil => rfl
  | cons c cs ih =>
    rw [List.mem_cons, not_or] at h
    rw [unifyBreaks_cons (Ne.symm h.1), ih h.2]

/-- The last line ends a text. -/
theorem exists_joinLines_concat (ls : List String) (l : String) :
    ∃ front, (joinLines (ls ++ [l])).toList = front ++ l.toList := by
  by_cases none : ls = []
  · exact ⟨[], by simp [none, joinLines]⟩
  · refine ⟨(joinLines ls ++ "\n").toList, ?_⟩
    rw [joinLines_append none (List.cons_ne_nil _ _), String.toList_append]
    simp [joinLines]

theorem joinLines_concat_empty {ls : List String} (ne : ls ≠ []) :
    (joinLines (ls ++ [""])).toList = (joinLines ls).toList ++ ['\n'] := by
  rw [joinLines_append ne (List.cons_ne_nil _ _)]
  simp [joinLines]

/-- The line feeds at the end of a text are its empty lines at the end. -/
theorem rdropWhile_joinLines {ls : List String} (single : ∀ l ∈ ls, Single l) :
    (joinLines ls).toList.rdropWhile (· == '\n') =
      (joinLines (ls.rdropWhile (· == ""))).toList := by
  induction ls using List.reverseRecOn with
  | nil => rfl
  | append_singleton ls l ih =>
    have ih := ih fun k mem => single k (List.mem_append_left _ mem)
    by_cases empty : l = ""
    · rw [List.rdropWhile_concat_pos _ _ _ (by simpa using empty), ← ih, empty]
      by_cases none : ls = []
      · rw [none]
        rfl
      · rw [joinLines_concat_empty none, List.rdropWhile_concat_pos _ _ _ (by decide)]
    · rw [List.rdropWhile_concat_neg _ _ _ (by simpa using empty)]
      obtain ⟨front, chars⟩ := exists_joinLines_concat ls l
      rcases List.eq_nil_or_concat l.toList with nil | ⟨init, c, concat⟩
      · exact absurd (String.toList_eq_nil_iff.1 nil) empty
      · have ne : c ≠ '\n' := by
          rintro rfl
          exact (single l (by simp)).1 (by simp [concat])
        rw [chars, concat, List.concat_eq_append, ← List.append_assoc]
        exact List.rdropWhile_concat_neg _ _ _ (by simpa using ne)

end Text

namespace Code

open Text

theorem endLines_append {ls ms : List String} (left : ls ≠ []) (right : ms ≠ []) :
    endLines (ls ++ ms) = endLines ls ++ endLines ms := by
  rw [endLines, joinLines_append left right, endLines, endLines, String.append_assoc]

theorem endLines_eq {ls : List String} (ne : ls ≠ []) : endLines ls = joinLines (ls ++ [""]) := by
  rw [joinLines_append ne (List.cons_ne_nil _ _)]
  simp [endLines, joinLines]

/-- A text of lines that each end in a line feed has one more line, which is empty. -/
theorem lines_endLines {ls : List String} (single : ∀ l ∈ ls, Single l) (ne : ls ≠ []) :
    lines (endLines ls) = ls ++ [""] := by
  rw [endLines_eq ne]
  refine lines_joinLines (fun l mem => ?_) (by simp)
  rcases List.mem_append.1 mem with own | last
  · exact single l own
  · rw [List.mem_singleton.1 last]
    decide

/-- In normal form a text lacks the empty lines at its end. -/
theorem normalize_endLines {ls : List String} (single : ∀ l ∈ ls, Single l) :
    Text.normalize (endLines ls) = endLines (ls.rdropWhile (· == "")) := by
  have none : '\r' ∉ (endLines ls).toList := by
    have joined : '\r' ∉ (joinLines ls).toList :=
      not_mem_intercalate (by decide) fun l mem => (single l mem).2
    simpa [endLines] using joined
  rw [normalize_eq, unifyBreaks_eq_self none, dropTrailing_eq, endLines, String.toList_append]
  change String.ofList ((_ ++ ['\n']).rdropWhile _ ++ _) = _
  rw [List.rdropWhile_concat_pos _ _ _ (by decide), rdropWhile_joinLines single]
  apply String.toList_inj.1
  simp [endLines]

end Code
end Polyad
