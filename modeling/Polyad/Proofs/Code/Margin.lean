import Polyad.Proofs.Code.Layout

/-!
# Lines at the margin

A line of a file starts at the margin or it is indented. What stands at the margin of a definition
is its heading, since everything inside it is one level deeper, whatever its docstring says. Parts
of a file are set apart by empty lines only, so the lines at the margin of the whole are those of
its parts.
-/

namespace Polyad.Code

open Text

/-! ## Parts with empty lines between them -/

/-- Lines that are the parts in order, with empty lines around them. -/
inductive SetApart : List (List String) → List String → Prop
  | nil (n : Nat) : SetApart [] (List.replicate n "")
  | cons (n : Nat) (part : List String) {parts : List (List String)} {ls : List String} :
      SetApart parts ls → SetApart (part :: parts) (List.replicate n "" ++ (part ++ ls))

namespace SetApart

variable {parts others : List (List String)} {part ls ms : List String}

theorem blank_append (n : Nat) (h : SetApart parts ls) :
    SetApart parts (List.replicate n "" ++ ls) := by
  cases h with
  | nil m =>
    rw [← List.replicate_add]
    exact .nil (n + m)
  | cons m part h =>
    rw [← List.append_assoc, ← List.replicate_add]
    exact .cons (n + m) part h

theorem append (left : SetApart parts ls) (right : SetApart others ms) :
    SetApart (parts ++ others) (ls ++ ms) := by
  induction left with
  | nil n => exact right.blank_append n
  | cons n part _ ih =>
    rw [List.append_assoc, List.append_assoc]
    exact .cons n part ih

theorem singleton (part : List String) : SetApart [part] part := by
  simpa using SetApart.cons 0 part (.nil 0)

theorem append_blank (n : Nat) (h : SetApart parts ls) :
    SetApart parts (ls ++ List.replicate n "") := by
  simpa using h.append (.nil n)

/-- Each part is found with the ones before it above and the ones after it below. -/
theorem exists_split (h : SetApart (parts ++ part :: others) ls) :
    ∃ above below, ls = above ++ (part ++ below) ∧ SetApart parts above ∧
      SetApart others below := by
  induction parts generalizing ls with
  | nil =>
    cases h with
    | cons n _ rest => exact ⟨List.replicate n "", _, rfl, .nil n, rest⟩
  | cons first parts ih =>
    cases h with
    | cons n _ rest =>
      obtain ⟨above, below, rfl, before, after⟩ := ih rest
      exact ⟨List.replicate n "" ++ (first ++ above), below, by simp, .cons n first before, after⟩

theorem mem (h : SetApart parts ls) {l : String} (mem : l ∈ ls) :
    l = "" ∨ ∃ part ∈ parts, l ∈ part := by
  induction h with
  | nil n => exact .inl (List.eq_of_mem_replicate mem)
  | cons n part _ ih =>
    rcases List.mem_append.1 mem with blank | mem
    · exact .inl (List.eq_of_mem_replicate blank)
    · rcases List.mem_append.1 mem with own | later
      · exact .inr ⟨part, by simp, own⟩
      · refine (ih later).imp_right ?_
        rintro ⟨p, there, mem⟩
        exact ⟨p, List.mem_cons_of_mem _ there, mem⟩

/-- Empty lines aside, what is chosen of the whole is what is chosen of the parts. -/
theorem filter (h : SetApart parts ls) {p : String → Bool} (empty : p "" = false) :
    ls.filter p = parts.flatMap (·.filter p) := by
  have blank : ∀ n, (List.replicate n "").filter p = [] := by
    intro n
    rw [List.filter_replicate, if_neg (by simp [empty])]
  induction h with
  | nil n => exact blank n
  | cons n part _ ih =>
    rw [List.filter_append, blank, List.nil_append, List.filter_append, ih, List.flatMap_cons]

theorem intercalate (parts : List (List String)) : SetApart parts ([""].intercalate parts) := by
  induction parts with
  | nil => exact .nil 0
  | cons part rest ih =>
    cases rest with
    | nil => simpa using SetApart.singleton part
    | cons next rest =>
      rw [List.intercalate_cons_cons, List.append_assoc]
      exact (SetApart.singleton part).append (ih.blank_append 1)

end SetApart

theorem ClassItem.setApart_layoutAll (items : List ClassItem) :
    SetApart (items.map layout) (layoutAll items) := by
  fun_induction layoutAll items with
  | case1 => exact .nil 0
  | case2 item => exact .singleton _
  | case3 item next rest ih =>
    rw [List.append_assoc]
    refine (SetApart.singleton item.layout).append ?_
    split
    · exact ih.blank_append 0
    · exact ih.blank_append 1

theorem Definition.setApart_layoutAll (ds : List Definition) :
    SetApart (ds.map layout) (layoutAll ds) := by
  fun_induction layoutAll ds with
  | case1 => exact .nil 0
  | case2 d => exact .singleton _
  | case3 d next rest ih =>
    rw [List.append_assoc]
    refine (SetApart.singleton d.layout).append ?_
    unfold gap
    split
    · exact ih.blank_append 0
    · exact ih.blank_append 2

/-- Below the import block the definitions are set apart from each other. -/
theorem File.setApart_linesBelow (f : File) {block : List String} {parts : List (List String)}
    (imports : SetApart parts block) :
    SetApart (parts ++ f.body.map Definition.layout) (f.linesBelow block) := by
  have below := Definition.setApart_layoutAll f.body
  cases block with
  | nil => exact imports.append below
  | cons l ls =>
    unfold linesBelow
    cases body : f.body with
    | nil => simpa using imports
    | cons d ds =>
      rw [body] at below
      exact (imports.append_blank 2).append below

/-! ## The margin -/

/-- Whether a line starts at the margin, with a character that is no space. -/
def atMargin (l : String) : Bool :=
  match l.toList with
  | [] => false
  | c :: _ => c != ' '

theorem atMargin_of_toList {l : String} {c : Char} {cs : List Char} (chars : l.toList = c :: cs)
    (ne : c ≠ ' ') : atMargin l = true := by
  rw [atMargin, chars]
  simpa using ne

theorem indented_of_ne {l : String} (ne : l ≠ "") : indented l = indent ++ l :=
  if_neg (by simpa using ne)

theorem atMargin_indented (l : String) : atMargin (indented l) = false := by
  unfold indented
  split
  · decide
  · have chars : (indent ++ l).toList = ' ' :: ' ' :: ' ' :: ' ' :: l.toList := by simp [indent]
    rw [atMargin, chars]
    rfl

/-- Whatever is put one level deeper leaves the margin. -/
theorem filter_atMargin_indented (ls : List String) : (ls.map indented).filter atMargin = [] := by
  rw [List.filter_eq_nil_iff]
  intro l mem
  obtain ⟨k, -, rfl⟩ := List.mem_map.1 mem
  simp [atMargin_indented]

/-- The lines of a function that are not inside it: its decorators and its header. -/
def Function.heading (f : Function) : List String := f.decorators.map ("@" ++ ·) ++ [f.header]

def ClassItem.heading : ClassItem → List String
  | function f => f.heading
  | assignment a => a.layout

def Definition.heading : Definition → List String
  | classDef c => [c.header]
  | function f => f.heading
  | assignment a => a.layout

theorem Function.layout_eq (f : Function) : f.layout = f.heading ++ f.inner.map indented := by
  simp [layout, heading]

theorem ClassDef.atMargin_header (c : ClassDef) : atMargin c.header = true := by
  obtain ⟨cs, chars⟩ := c.exists_header
  exact atMargin_of_toList chars (by decide)

theorem Function.atMargin_header (f : Function) : atMargin f.header = true := by
  obtain ⟨cs, chars⟩ := f.exists_header
  exact atMargin_of_toList chars (by decide)

theorem Function.filter_decorators (f : Function) :
    (f.decorators.map ("@" ++ ·)).filter atMargin = f.decorators.map ("@" ++ ·) := by
  refine List.filter_eq_self.2 fun l mem => ?_
  obtain ⟨s, -, rfl⟩ := List.mem_map.1 mem
  have chars : ("@" ++ s).toList = '@' :: s.toList := by simp
  exact atMargin_of_toList chars (by decide)

theorem Function.filter_heading (f : Function) : f.heading.filter atMargin = f.heading := by
  rw [heading, List.filter_append, f.filter_decorators, List.filter_singleton, f.atMargin_header]
  rfl

theorem Function.filter_layout (f : Function) : f.layout.filter atMargin = f.heading := by
  rw [layout_eq, List.filter_append, f.filter_heading, filter_atMargin_indented, List.append_nil]

/-- An identifier starts with a character that is no space. -/
theorem exists_identifier {s : String} (named : isIdentifier s) :
    ∃ c cs, s.toList = c :: cs ∧ c ≠ ' ' := by
  cases chars : s.toList with
  | nil => simp [isIdentifier, chars] at named
  | cons c cs =>
    refine ⟨c, cs, rfl, ?_⟩
    rintro rfl
    exact absurd (isNamePart_of_mem named (c := ' ') (by simp [chars])) (by decide)

theorem Assignment.filter_layout {a : Assignment} (named : isIdentifier a.target) :
    a.layout.filter atMargin = a.layout := by
  obtain ⟨c, cs, chars, ne⟩ := exists_identifier named
  have starts : (a.target ++ " = " ++ a.value.text).toList =
      c :: (cs ++ " = ".toList ++ a.value.text.toList) := by simp [chars]
  have start := atMargin_of_toList starts ne
  rw [layout, List.filter_singleton, start]
  rfl

/-! ## Names -/

/-- A name that a file may define: an identifier that is no word of the language. -/
def isFreeName (s : String) : Bool := isIdentifier s && !isHardKeyword s

theorem isFreeName_iff {s : String} :
    isFreeName s ↔ isIdentifier s ∧ isHardKeyword s = false := by
  rw [isFreeName, Bool.and_eq_true, Bool.not_eq_true']

theorem ClassItem.filter_layout {item : ClassItem} (named : isIdentifier item.name) :
    item.layout.filter atMargin = item.heading := by
  cases item with
  | function f => exact f.filter_layout
  | assignment a => exact Assignment.filter_layout named

theorem Definition.filter_layout {d : Definition} (named : isIdentifier d.name) :
    d.layout.filter atMargin = d.heading := by
  cases d with
  | classDef c =>
    rw [layout, ClassDef.layout, List.filter_cons_of_pos c.atMargin_header,
      filter_atMargin_indented]
    rfl
  | function f => exact f.filter_layout
  | assignment a => exact Assignment.filter_layout named

/-- The lines at the margin of items set apart are their headings. -/
theorem ClassItem.filter_setApart {items : List ClassItem} {ls : List String}
    (named : ∀ item ∈ items, isIdentifier item.name) (h : SetApart (items.map layout) ls) :
    ls.filter atMargin = items.flatMap heading := by
  rw [h.filter (by decide), List.flatMap_map]
  exact List.flatMap_congr fun item mem => filter_layout (named item mem)

/-! ## Depth -/

/-- Whether white space is all that there is in a line. -/
def isBlankLine (l : String) : Bool := l.toList.all isBlank

/-- The first line that is not blank is there and starts with so many spaces. -/
def OpensAt (width : Nat) (ls : List String) : Prop :=
  ∃ l, ls.find? (!isBlankLine ·) = some l ∧ List.replicate width ' ' <+: l.toList

theorem isBlankLine_indented (l : String) : isBlankLine (indented l) = isBlankLine l := by
  unfold indented
  split
  · next empty => rw [beq_iff_eq.1 empty]
  · have chars : (indent ++ l).toList = ' ' :: ' ' :: ' ' :: ' ' :: l.toList := by simp [indent]
    have blank : isBlank ' ' = true := by decide
    simp [isBlankLine, chars, blank]

namespace OpensAt

variable {width : Nat} {ls : List String}

theorem of_mem {l : String} (mem : l ∈ ls) (solid : isBlankLine l = false) : OpensAt 0 ls := by
  have found : (ls.find? (!isBlankLine ·)).isSome := by
    rw [List.find?_isSome]
    exact ⟨l, mem, by rw [solid]; rfl⟩
  obtain ⟨k, found⟩ := Option.isSome_iff_exists.1 found
  exact ⟨k, found, List.nil_prefix⟩

theorem append (h : OpensAt width ls) (rest : List String) : OpensAt width (ls ++ rest) := by
  obtain ⟨l, found, deep⟩ := h
  exact ⟨l, by rw [List.find?_append, found]; rfl, deep⟩

/-- One level deeper the first line that is not blank is one level deeper. -/
theorem indented (h : OpensAt width ls) : OpensAt (width + 4) (ls.map Code.indented) := by
  obtain ⟨l, found, deep⟩ := h
  have solid : isBlankLine l = false := by simpa using List.find?_some found
  have ne : l ≠ "" := by
    rintro rfl
    cases solid
  refine ⟨indent ++ l, ?_, ?_⟩
  · have same : (fun l => !isBlankLine l) ∘ Code.indented = fun l => !isBlankLine l :=
      funext fun k => by rw [Function.comp_apply, isBlankLine_indented]
    rw [List.find?_map, same, found, Option.map_some, indented_of_ne ne]
  · rw [Nat.add_comm, List.replicate_add, String.toList_append]
    exact (List.prefix_append_right_inj _).2 deep

end OpensAt

theorem isBlankLine_eq_false {l : String} {c : Char} (mem : c ∈ l.toList)
    (solid : isBlank c = false) : isBlankLine l = false := by
  rw [isBlankLine, Bool.eq_false_iff, Ne, List.all_eq_true]
  intro all
  rw [all c mem] at solid
  cases solid

/-- A docstring opens with its delimiter. -/
theorem exists_docstringLines (doc : String) :
    ∃ l ∈ docstringLines doc, isBlankLine l = false := by
  have quoted : ∀ s : String, isBlankLine ("\"\"\"" ++ s) = false := fun s =>
    isBlankLine_eq_false (c := '"') (by simp) (by decide)
  have cut : lines (String.ofList (dropTrailing '\n' (dropLeading '\n' doc.toList))) ≠ [] := by
    simp [lines]
  unfold docstringLines
  dsimp only
  split
  · next none => exact absurd none cut
  · next line _ =>
    refine ⟨_, List.mem_singleton_self _, ?_⟩
    rw [String.append_assoc]
    exact quoted _
  · next line rest _ _ => exact ⟨_, List.mem_append_left _ List.mem_cons_self, quoted line⟩

/-- A body that is there does not consist of blank lines only. -/
def Function.Filled (f : Function) : Prop :=
  f.body.isEmpty ∨ ∃ l ∈ f.lines, isBlankLine l = false

instance (f : Function) : Decidable f.Filled := inferInstanceAs (Decidable (_ ∨ _))

theorem opensAt_optionalDocstring {doc : Option String} (shown : (shownDocstring doc).isSome) :
    OpensAt 0 (optionalDocstring doc) := by
  obtain ⟨s, eq⟩ := Option.isSome_iff_exists.1 shown
  obtain ⟨l, mem, solid⟩ := exists_docstringLines s
  refine .of_mem (l := l) ?_ solid
  rwa [optionalDocstring, eq, Option.map_some, Option.getD_some]

theorem Function.Filled.opensAt_inner {f : Function} (filled : f.Filled) : OpensAt 0 f.inner := by
  unfold inner
  dsimp only
  split
  · exact .of_mem (l := "...") (by simp) (by decide)
  · next full =>
    by_cases shown : (shownDocstring f.docstring).isSome
    · exact (opensAt_optionalDocstring shown).append _
    · rcases filled with none | ⟨l, mem, solid⟩
      · simp [none] at full
        simp [full] at shown
      · exact .of_mem (List.mem_append_right _ mem) solid

/-- An item of a class starts with a line that is not blank. -/
theorem ClassItem.exists_layout (item : ClassItem) : ∃ l ∈ item.layout, isBlankLine l = false := by
  cases item with
  | function f =>
    obtain ⟨cs, chars⟩ := f.exists_header
    refine ⟨f.header, by simp [layout, Function.layout], ?_⟩
    exact isBlankLine_eq_false (c := 'd') (by simp [chars]) (by decide)
  | assignment a =>
    refine ⟨_, List.mem_singleton_self _, ?_⟩
    exact isBlankLine_eq_false (c := '=') (by simp) (by decide)

/-- The lines inside a class: its docstring, then its items set apart, or a single word. -/
theorem ClassDef.exists_inner (c : ClassDef) :
    (c.inner = ["pass"] ∧ c.items = []) ∨
    ∃ more, c.inner = optionalDocstring c.docstring ++ more ∧
      SetApart (c.items.map ClassItem.layout) more := by
  unfold inner
  dsimp only
  split
  · next none => exact .inl ⟨rfl, by simp at none; exact none.2⟩
  · refine .inr ⟨_, List.append_assoc _ _ _, ?_⟩
    split
    · exact (ClassItem.setApart_layoutAll c.items).blank_append 1
    · exact ClassItem.setApart_layoutAll c.items

theorem ClassDef.opensAt_inner (c : ClassDef) : OpensAt 0 c.inner := by
  by_cases shown : (shownDocstring c.docstring).isSome
  · rcases c.exists_inner with ⟨pass, -⟩ | ⟨more, eq, -⟩
    · exact .of_mem (l := "pass") (by simp [pass]) (by decide)
    · rw [eq]
      exact (opensAt_optionalDocstring shown).append more
  · cases items : c.items with
    | nil =>
      have pass : c.inner = ["pass"] := by
        rw [Option.not_isSome_iff_eq_none] at shown
        simp [inner, items, shown]
      exact .of_mem (l := "pass") (by simp [pass]) (by decide)
    | cons item rest =>
      rcases c.exists_inner with ⟨-, none⟩ | ⟨more, eq, apart⟩
      · rw [items] at none
        cases none
      · obtain ⟨l, mem, solid⟩ := item.exists_layout
        rw [items] at apart
        obtain ⟨above, below, rfl, -, -⟩ :=
          (show SetApart ([] ++ item.layout :: rest.map ClassItem.layout) more from
            apart).exists_split
        exact .of_mem (l := l) (by simp [eq, mem]) solid

end Polyad.Code
