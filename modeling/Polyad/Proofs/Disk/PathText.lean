import Polyad.Disk.Path
import Polyad.Proofs.Text.Lines

/-!
# Texts of paths

The text of a path is read as that path again: a text is put into plain form once. What is left of it
are slashes at the front and components that say something.
-/

namespace Polyad.Path

/-- Something between two slashes that is no dot. -/
structure IsPart (s : String) : Prop where
  proper : isProper s
  single : '/' ∉ s.toList

/-- The slashes and components that a text is read as. -/
structure IsPlain (p : Path) : Prop where
  root : p.root = "" ∨ p.root = "/" ∨ p.root = "//"
  parts : ∀ s ∈ p.parts, IsPart s

/-- What a text says between its slashes. -/
def partsOf (cs : List Char) : List String := ((cs.splitOn '/').map String.ofList).filter isProper

theorem isPlain_ofString (s : String) : (ofString s).IsPlain where
  root := by
    simp only [ofString, rootOf]
    split <;> simp
  parts part mem := by
    obtain ⟨mem, proper⟩ := List.mem_filter.1 mem
    obtain ⟨cs, there, rfl⟩ := List.mem_map.1 mem
    refine ⟨proper, ?_⟩
    rw [String.toList_ofList]
    exact (Text.of_mem_splitOn there).1

/-- Slashes at the front add no component. -/
theorem partsOf_slash (cs : List Char) : partsOf ('/' :: cs) = partsOf cs := by
  rw [partsOf, List.splitOn_eq_splitOnP, List.splitOnP_cons_eq_if_modifyHead, if_pos (by rfl)]
  rfl

theorem partsOf_intercalate {parts : List String} (each : ∀ s ∈ parts, IsPart s)
    (ne : parts ≠ []) : partsOf ("/".intercalate parts).toList = parts := by
  have apart : ∀ cs ∈ parts.map String.toList, '/' ∉ cs := by
    intro cs mem
    obtain ⟨s, there, rfl⟩ := List.mem_map.1 mem
    exact (each s there).single
  have cut := List.splitOn_intercalate '/' apart (by simpa using ne)
  rw [partsOf, String.toList_intercalate]
  change ((List.splitOn '/' (['/'].intercalate _)).map _).filter _ = _
  have texts : (parts.map String.toList).map String.ofList = parts := by
    rw [List.map_map]
    exact (List.map_congr_left fun s _ => String.ofList_toList).trans (List.map_id parts)
  rw [cut, texts]
  exact List.filter_eq_self.2 fun s mem => (each s mem).proper

/-- Components joined do not begin with a slash. -/
theorem takeWhile_intercalate {parts : List String} (each : ∀ s ∈ parts, IsPart s)
    (ne : parts ≠ []) : ("/".intercalate parts).toList.takeWhile (· == '/') = [] := by
  obtain ⟨first, rest, rfl⟩ := List.exists_cons_of_ne_nil ne
  obtain ⟨proper, single⟩ := each first (by simp)
  obtain ⟨c, cs, chars⟩ : ∃ c cs, first.toList = c :: cs := by
    refine List.exists_cons_of_ne_nil fun nil => ?_
    rw [String.toList_eq_nil_iff.1 nil] at proper
    exact absurd proper (by decide)
  have head : ∃ tail, ("/".intercalate (first :: rest)).toList = c :: tail := by
    cases rest with
    | nil => exact ⟨cs, by simpa using chars⟩
    | cons s ss =>
      rw [String.intercalate_cons_cons, String.toList_append, String.toList_append, chars]
      exact ⟨_, rfl⟩
  obtain ⟨tail, eq⟩ := head
  have other : (c == '/') = false := by
    rw [chars] at single
    simpa using fun eq => single (by simp [eq])
  rw [eq, List.takeWhile_cons, other]
  rfl

/-- A plain path is read from its text. -/
theorem ofString_text {p : Path} (plain : p.IsPlain) : ofString p.text = p := by
  obtain ⟨root, parts⟩ := p
  obtain ⟨slashes, each⟩ := plain
  dsimp only at slashes each
  by_cases nil : parts = []
  · subst nil
    rcases slashes with rfl | rfl | rfl <;> decide
  · have text : text ⟨root, parts⟩ = root ++ "/".intercalate parts := by
      simp [Path.text, nil]
    have between := partsOf_intercalate each nil
    have front := takeWhile_intercalate each nil
    have read : ofString (root ++ "/".intercalate parts) =
        ⟨rootOf ((root.toList ++ ("/".intercalate parts).toList).takeWhile (· == '/')).length,
          partsOf (root.toList ++ ("/".intercalate parts).toList)⟩ := by
      rw [ofString, String.toList_append]
      rfl
    rw [text, read]
    generalize ("/".intercalate parts).toList = cs at between front
    rcases slashes with rfl | rfl | rfl
    · simp [front, between, rootOf]
    · simp [front, between, rootOf, partsOf_slash]
    · simp [front, between, rootOf, partsOf_slash]

/-- What is in plain form stays as it is. -/
theorem ofString_text_ofString (s : String) : ofString (ofString s).text = ofString s :=
  ofString_text (isPlain_ofString s)

end Polyad.Path
