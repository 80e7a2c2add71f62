import Polyad.Proofs.Code.Anchor

/-!
# Lines of definitions

A definition is laid out in lines without line breaks, whatever the texts in it are, as long as no
line break is in them. None of these lines can be taken for an import: a definition starts with a
word of its own, and what belongs to it is indented.
-/

namespace Polyad

namespace Text

variable {s : String}

/-- The lines of a text have no breaks of their own. -/
theorem single_of_mem_lines (none : '\r' ∉ s.toList) {l : String} (mem : l ∈ lines s) :
    Single l := by
  obtain ⟨part, there, rfl⟩ := List.mem_map.1 mem
  obtain ⟨apart, sub⟩ := of_mem_splitOn there
  rw [Single, String.toList_ofList]
  exact ⟨apart, fun mem => none (sub mem)⟩

end Text

namespace Code

open Text

/-! ## Tidy outlines -/

/-- No text of a parameter holds a line break. -/
structure Parameter.Tidy (p : Parameter) : Prop where
  name : Single p.name
  annotation : ∀ t ∈ p.annotation, Single t.text
  default : ∀ s ∈ p.default, Single s

/-- Line feeds are in the docstring of a function only. -/
structure Function.Tidy (f : Function) : Prop where
  name : Single f.name
  parameters : ∀ p ∈ f.parameters, p.Tidy
  returns : ∀ t ∈ f.returns, Single t.text
  body : ∀ l ∈ f.lines, Single l
  decorators : ∀ s ∈ f.decorators, Single s
  docstring : ∀ s ∈ f.docstring, '\r' ∉ s.toList

structure Assignment.Tidy (a : Assignment) : Prop where
  target : Single a.target
  value : Single a.value.text

def ClassItem.Tidy : ClassItem → Prop
  | function f => f.Tidy
  | assignment a => a.Tidy

structure ClassDef.Tidy (c : ClassDef) : Prop where
  name : Single c.name
  bases : ∀ t ∈ c.bases, Single t.text
  docstring : ∀ s ∈ c.docstring, '\r' ∉ s.toList
  items : ∀ item ∈ c.items, item.Tidy

/-- At the top a target is a name that is no word of the language. -/
def Definition.Tidy : Definition → Prop
  | classDef c => c.Tidy
  | function f => f.Tidy
  | assignment a => a.Tidy ∧ isIdentifier a.target ∧ isHardKeyword a.target = false

/-- Imports are of modules and names that are identifiers, and line feeds are in docstrings only. -/
structure File.Tidy (f : File) : Prop where
  imports : ∀ i ∈ f.allImports, i.isWellNamed
  body : ∀ d ∈ f.body, d.Tidy
  comment : ∀ l ∈ f.comment, Single l

/-! ## Lines of definitions -/

section Lines

variable {l : String}

theorem single_indented (h : Single l) : Single (indented l) := by
  unfold indented
  split
  · decide
  · exact single_append.2 ⟨by decide, h⟩

theorem single_docstringLines {doc : String} (none : '\r' ∉ doc.toList)
    (mem : l ∈ docstringLines doc) : Single l := by
  have inner : '\r' ∉ dropTrailing '\n' (dropLeading '\n' doc.toList) := by
    intro mem
    exact none ((List.dropWhile_sublist _).subset ((List.rdropWhile_prefix _ _).subset mem))
  have each : ∀ l ∈ lines (String.ofList (dropTrailing '\n' (dropLeading '\n' doc.toList))),
      Single l := fun l => single_of_mem_lines (by rwa [String.toList_ofList])
  unfold docstringLines at mem
  dsimp only at mem
  split at mem
  · cases mem
  · next line eq =>
    rw [eq] at each
    rw [List.mem_singleton.1 mem]
    have := each line (by simp)
    exact single_append.2 ⟨single_append.2 ⟨by decide, this⟩, by decide⟩
  · next first rest _ eq =>
    rw [eq] at each
    obtain ⟨single, others⟩ := List.forall_mem_cons.1 each
    simp only [List.cons_append, List.mem_cons, List.mem_append, List.mem_map,
      List.not_mem_nil, or_false] at mem
    rcases mem with rfl | ⟨k, there, rfl⟩ | rfl
    · exact single_append.2 ⟨by decide, single⟩
    · unfold docstringLine
      split
      · decide
      · exact others k there
    · decide

/-- A docstring that is shown is the one that is there. -/
theorem eq_of_shownDocstring {doc : Option String} {s : String} (h : shownDocstring doc = some s) :
    doc = some s := (Option.filter_eq_some_iff.1 h).1

theorem single_optionalDocstring {doc : Option String} (none : ∀ s ∈ doc, '\r' ∉ s.toList)
    (mem : l ∈ optionalDocstring doc) : Single l := by
  unfold optionalDocstring at mem
  cases shown : shownDocstring doc with
  | none =>
    rw [shown] at mem
    cases mem
  | some s =>
    rw [shown, Option.map_some, Option.getD_some] at mem
    exact single_docstringLines (none s (eq_of_shownDocstring shown)) mem

theorem Parameter.Tidy.single_text {p : Parameter} (tidy : p.Tidy) : Single p.text := by
  have named : Single (if p.variadic then "*" ++ p.name else p.name) := by
    split
    · exact single_append.2 ⟨by decide, tidy.name⟩
    · exact tidy.name
  have annotated : Single ((p.annotation.map TypeTerm.text).getD "") := by
    cases annotation : p.annotation with
    | none => decide
    | some t => exact tidy.annotation t annotation
  unfold text
  dsimp only
  generalize (if p.variadic then "*" ++ p.name else p.name) = name at named
  generalize (p.annotation.map TypeTerm.text).getD "" = annotation at annotated
  have typed : Single (if annotation == "" then name else name ++ ": " ++ annotation) := by
    split
    · exact named
    · exact single_append.2 ⟨single_append.2 ⟨named, by decide⟩, annotated⟩
  generalize (if annotation == "" then name else name ++ ": " ++ annotation) = typed at *
  cases default : p.default with
  | none => assumption
  | some d =>
    have given := tidy.default d default
    dsimp only
    split
    · exact single_append.2 ⟨single_append.2 ⟨‹_›, by decide⟩, given⟩
    · exact single_append.2 ⟨single_append.2 ⟨‹_›, by decide⟩, given⟩

theorem Function.Tidy.single_header {f : Function} (tidy : f.Tidy) : Single f.header := by
  have parameters : Single (", ".intercalate (f.parameters.map Parameter.text)) := by
    refine single_intercalate (by decide) fun s mem => ?_
    obtain ⟨p, there, rfl⟩ := List.mem_map.1 mem
    exact (tidy.parameters p there).single_text
  have result : Single ((f.returns.map TypeTerm.text).getD "") := by
    cases returns : f.returns with
    | none => decide
    | some t => exact tidy.returns t returns
  unfold header
  dsimp only
  generalize (f.returns.map TypeTerm.text).getD "" = returns at *
  have arrow : Single (if returns == "" then "" else " -> " ++ returns) := by
    split
    · decide
    · exact single_append.2 ⟨by decide, result⟩
  simp only [single_append]
  exact ⟨⟨⟨⟨⟨⟨by decide, tidy.name⟩, by decide⟩, parameters⟩, by decide⟩, arrow⟩, by decide⟩

theorem Function.Tidy.single_inner {f : Function} (tidy : f.Tidy) (mem : l ∈ f.inner) :
    Single l := by
  unfold inner at mem
  dsimp only at mem
  split at mem
  · rw [List.mem_singleton.1 mem]
    decide
  · rcases List.mem_append.1 mem with doc | own
    · exact single_optionalDocstring tidy.docstring doc
    · exact tidy.body l own

theorem Function.Tidy.single_layout {f : Function} (tidy : f.Tidy) (mem : l ∈ f.layout) :
    Single l := by
  simp only [layout, List.mem_append, List.mem_map, List.mem_cons] at mem
  rcases mem with ⟨d, there, rfl⟩ | rfl | ⟨k, there, rfl⟩
  · exact single_append.2 ⟨by decide, tidy.decorators d there⟩
  · exact tidy.single_header
  · exact single_indented (tidy.single_inner there)

theorem Assignment.Tidy.single_layout {a : Assignment} (tidy : a.Tidy) (mem : l ∈ a.layout) :
    Single l := by
  rw [List.mem_singleton.1 mem]
  exact single_append.2 ⟨single_append.2 ⟨tidy.target, by decide⟩, tidy.value⟩

theorem ClassItem.single_layoutAll {items : List ClassItem} (tidy : ∀ item ∈ items, item.Tidy)
    (mem : l ∈ layoutAll items) : Single l := by
  have each : ∀ item ∈ items, ∀ l ∈ item.layout, Single l := by
    intro item there l mem
    have own := tidy item there
    cases item with
    | function f => exact Function.Tidy.single_layout own mem
    | assignment a => exact Assignment.Tidy.single_layout own mem
  fun_induction layoutAll items with
  | case1 => cases mem
  | case2 item => exact each item (by simp) l mem
  | case3 item next rest ih =>
    simp only [List.mem_append] at mem
    rcases mem with (own | gap) | others
    · exact each item (by simp) l own
    · split at gap
      · cases gap
      · rw [List.mem_singleton.1 gap]
        decide
    · exact ih (fun i there => tidy i (by simp [there])) others
        fun i there => each i (by simp [there])

theorem ClassDef.Tidy.single_header {c : ClassDef} (tidy : c.Tidy) : Single c.header := by
  have bases : Single (", ".intercalate (c.bases.map TypeTerm.text)) := by
    refine single_intercalate (by decide) fun s mem => ?_
    obtain ⟨t, there, rfl⟩ := List.mem_map.1 mem
    exact tidy.bases t there
  have listed : Single (if (c.bases.map TypeTerm.text).isEmpty then ""
      else "(" ++ ", ".intercalate (c.bases.map TypeTerm.text) ++ ")") := by
    split
    · decide
    · exact single_append.2 ⟨single_append.2 ⟨by decide, bases⟩, by decide⟩
  unfold header
  dsimp only
  exact single_append.2 ⟨single_append.2 ⟨single_append.2 ⟨by decide, tidy.name⟩, listed⟩,
    by decide⟩

theorem ClassDef.Tidy.single_layout {c : ClassDef} (tidy : c.Tidy) (mem : l ∈ c.layout) :
    Single l := by
  rcases List.mem_cons.1 mem with rfl | below
  · exact tidy.single_header
  · obtain ⟨k, there, rfl⟩ := List.mem_map.1 below
    refine single_indented ?_
    unfold inner at there
    dsimp only at there
    split at there
    · rw [List.mem_singleton.1 there]
      decide
    · rw [List.mem_append, List.mem_append] at there
      rcases there with (doc | gap) | items
      · exact single_optionalDocstring tidy.docstring doc
      · split at gap
        · rw [List.mem_singleton.1 gap]
          decide
        · cases gap
      · exact ClassItem.single_layoutAll tidy.items items

theorem Definition.Tidy.single_layout {d : Definition} (tidy : d.Tidy) (mem : l ∈ d.layout) :
    Single l := by
  cases d with
  | classDef c => exact ClassDef.Tidy.single_layout tidy mem
  | function f => exact Function.Tidy.single_layout tidy mem
  | assignment a => exact Assignment.Tidy.single_layout tidy.1 mem

/-! ## Lines that are no imports -/

/-- A line that starts like an import starts with one of two letters. -/
theorem startsImport_eq_false {c : Char} {cs : List Char} (chars : l.toList = c :: cs)
    (import_ : c ≠ 'i') (from_ : c ≠ 'f') : startsImport l = false := by
  simp [startsImport, chars, List.isPrefixOf, import_.symm, from_.symm]

theorem startsImport_indented (l : String) : startsImport (indented l) = false := by
  unfold indented
  split
  · decide
  · have chars : (indent ++ l).toList = ' ' :: ' ' :: ' ' :: ' ' :: l.toList := by simp [indent]
    exact startsImport_eq_false chars (by decide) (by decide)

/-- A word is cut off by the blank after it. -/
theorem eq_of_isPrefix_blank {v w rest : List Char} (left : ' ' ∉ v) (right : ' ' ∉ w)
    (h : v ++ [' '] <+: w ++ ' ' :: rest) : v = w := by
  induction v generalizing w with
  | nil =>
    cases w with
    | nil => rfl
    | cons c w =>
      obtain ⟨rfl, -⟩ := List.cons_prefix_cons.1 h
      simp at right
  | cons c v ih =>
    rw [List.mem_cons, not_or] at left
    cases w with
    | nil =>
      obtain ⟨rfl, -⟩ := List.cons_prefix_cons.1 h
      exact absurd rfl left.1
    | cons c' w =>
      rw [List.mem_cons, not_or] at right
      obtain ⟨rfl, more⟩ := List.cons_prefix_cons.1 h
      rw [ih left.2 right.2 more]

theorem startsImport_assignment {a : Assignment} (named : isIdentifier a.target)
    (free : isHardKeyword a.target = false) (mem : l ∈ a.layout) : startsImport l = false := by
  have blank : ' ' ∉ a.target.toList := by
    intro mem
    exact absurd (isNamePart_of_mem named mem) (by decide)
  have apart : ∀ w : String, ' ' ∉ w.toList → isHardKeyword w = true →
      ¬w.toList ++ [' '] <+: l.toList := by
    intro w single reserved starts
    rw [List.mem_singleton.1 mem] at starts
    have chars : (a.target ++ " = " ++ a.value.text).toList =
        a.target.toList ++ ' ' :: ('=' :: ' ' :: a.value.text.toList) := by simp
    rw [chars] at starts
    have same := String.toList_inj.1 (eq_of_isPrefix_blank single blank starts)
    rw [same, free] at reserved
    cases reserved
  have first := apart "import" (by decide) (by decide)
  have second := apart "from" (by decide) (by decide)
  rw [startsImport, Bool.or_eq_false_iff, Bool.eq_false_iff, Bool.eq_false_iff, Ne, Ne,
    List.isPrefixOf_iff_prefix, List.isPrefixOf_iff_prefix]
  exact ⟨first, second⟩

theorem ClassDef.exists_header (c : ClassDef) : ∃ cs, c.header.toList = 'c' :: cs := by
  simp [header]

theorem Function.exists_header (f : Function) : ∃ cs, f.header.toList = 'd' :: cs := by
  simp [header]

theorem Definition.Tidy.startsImport {d : Definition} (tidy : d.Tidy) (mem : l ∈ d.layout) :
    startsImport l = false := by
  cases d with
  | classDef c =>
    rcases List.mem_cons.1 mem with rfl | below
    · obtain ⟨cs, chars⟩ := c.exists_header
      exact startsImport_eq_false chars (by decide) (by decide)
    · obtain ⟨k, -, rfl⟩ := List.mem_map.1 below
      exact startsImport_indented k
  | function f =>
    simp only [layout, Function.layout, List.mem_append, List.mem_map, List.mem_cons] at mem
    rcases mem with ⟨s, -, rfl⟩ | rfl | ⟨k, -, rfl⟩
    · have chars : ("@" ++ s).toList = '@' :: s.toList := by simp
      exact startsImport_eq_false chars (by decide) (by decide)
    · obtain ⟨cs, chars⟩ := f.exists_header
      exact startsImport_eq_false chars (by decide) (by decide)
    · exact startsImport_indented k
  | assignment a => exact startsImport_assignment tidy.2.1 tidy.2.2 mem

/-! ## Definitions in order -/

/-- The first line of a definition is not empty. -/
theorem Definition.exists_layout (d : Definition) : ∃ l ls, d.layout = l :: ls ∧ l ≠ "" := by
  have solid : ∀ {s : String} {c cs}, s.toList = c :: cs → s ≠ "" := by
    rintro s c cs chars rfl
    cases chars
  cases d with
  | classDef c =>
    obtain ⟨cs, chars⟩ := c.exists_header
    exact ⟨_, _, rfl, solid chars⟩
  | function f =>
    obtain ⟨cs, chars⟩ := f.exists_header
    simp only [layout, Function.layout]
    cases f.decorators with
    | nil => exact ⟨_, _, rfl, solid chars⟩
    | cons s rest => exact ⟨_, _, rfl, by simp⟩
  | assignment a => exact ⟨_, _, rfl, by simp⟩

/-- The lines of definitions: the first, then each after two empty lines, or after none if it and
the one before it are assignments. -/
def Definition.spaced : List Definition → List String
  | [] => []
  | d :: ds => d.layout ++ (List.zipWith (fun before after =>
      (if before.isAssignment && after.isAssignment then [] else ["", ""]) ++ after.layout)
      (d :: ds) ds).flatten

theorem Definition.layoutAll_eq_spaced (ds : List Definition) : layoutAll ds = spaced ds := by
  fun_induction layoutAll ds with
  | case1 => rfl
  | case2 d => simp [spaced]
  | case3 d next rest ih =>
    rw [ih]
    simp [spaced, gap]

theorem Definition.mem_layoutAll {ds : List Definition} (mem : l ∈ layoutAll ds) :
    l = "" ∨ ∃ d ∈ ds, l ∈ d.layout := by
  fun_induction layoutAll ds with
  | case1 => cases mem
  | case2 d => exact .inr ⟨d, by simp, mem⟩
  | case3 d next rest ih =>
    simp only [List.mem_append] at mem
    rcases mem with (own | between) | others
    · exact .inr ⟨d, by simp, own⟩
    · left
      unfold gap at between
      split at between
      · cases between
      · simpa using between
    · refine (ih others).imp_right ?_
      rintro ⟨e, there, mem⟩
      exact ⟨e, List.mem_cons_of_mem d there, mem⟩

end Lines

end Code
end Polyad
