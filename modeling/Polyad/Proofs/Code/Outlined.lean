import Polyad.Proofs.Code.Margin

/-!
# The outline of a file in its text

The lines at the margin of a text are its import lines and the headings of its definitions, so the
outline of the file is read off them. Below each header something stands that is one level deeper.
-/

namespace Polyad.Code

open Text

/-! ## Reading an outline -/

/-- What a definition defines. -/
inductive Kind where
  | classDef
  | function
  | assignment
  deriving DecidableEq, Repr

def Definition.kind : Definition → Kind
  | classDef _ => .classDef
  | function _ => .function
  | assignment _ => .assignment

/-- The name that stands in a line so many characters from the margin. -/
def nameAt (skipped : Nat) (l : String) : String :=
  String.ofList ((l.toList.drop skipped).takeWhile isNamePart)

/-- What a line at the margin defines and its name, if it is no import and no decorator. -/
def readHeading (l : String) : Option (Kind × String) :=
  if startsImport l || l.toList.head? == some '@' then none
  else if "class ".toList.isPrefixOf l.toList then some (.classDef, nameAt 6 l)
  else if "def ".toList.isPrefixOf l.toList then some (.function, nameAt 4 l)
  else some (.assignment, nameAt 0 l)

/-- The definitions of a text in order, by its lines at the margin. -/
def readOutline (ls : List String) : List (Kind × String) :=
  (ls.filter atMargin).filterMap readHeading

section Headings

variable {c : Char} {s : String}

/-- A name ends where a character follows that is no part of names. -/
theorem nameAt_eq (word : String) (named : isIdentifier s) (other : isNamePart c = false)
    {l : String} {rest : List Char} (chars : l.toList = word.toList ++ (s.toList ++ c :: rest)) :
    nameAt word.toList.length l = s := by
  rw [nameAt, chars, List.drop_left,
    List.takeWhile_append_of_pos fun c mem => isNamePart_of_mem named mem,
    List.takeWhile_cons_of_neg (by simp [other]), List.append_nil, String.ofList_toList]

theorem readHeading_class {cls : ClassDef} (named : isIdentifier cls.name) :
    readHeading cls.header = some (.classDef, cls.name) := by
  obtain ⟨c, rest, chars, other⟩ : ∃ c rest,
      cls.header.toList = "class ".toList ++ (cls.name.toList ++ c :: rest) ∧
        isNamePart c = false := by
    unfold ClassDef.header
    dsimp only
    split
    · exact ⟨':', [], by simp, by decide⟩
    · exact ⟨'(', (", ".intercalate (cls.bases.map TypeTerm.text) ++ "):").toList, by simp,
        by decide⟩
  have quiet : startsImport cls.header = false :=
    startsImport_eq_false (c := 'c') chars (by decide) (by decide)
  have name : nameAt 6 cls.header = cls.name := nameAt_eq "class " named other chars
  rw [readHeading, quiet, if_neg (by simp [chars]), if_pos (by simp [chars]), name]

theorem readHeading_function {f : Function} (named : isIdentifier f.name) :
    readHeading f.header = some (.function, f.name) := by
  obtain ⟨rest, chars⟩ : ∃ rest,
      f.header.toList = "def ".toList ++ (f.name.toList ++ '(' :: rest) := by
    simp [Function.header]
  have quiet : startsImport f.header = false :=
    startsImport_eq_false (c := 'd') chars (by decide) (by decide)
  have apart : ¬"class ".toList.isPrefixOf f.header.toList := by simp [chars]
  have name : nameAt 4 f.header = f.name := nameAt_eq "def " named (by decide) chars
  rw [readHeading, quiet, if_neg (by simp [chars]), if_neg apart, if_pos (by simp [chars]), name]

theorem readHeading_decorator : readHeading ("@" ++ s) = none := by
  rw [readHeading, if_pos (by simp)]

/-- A free name with a blank after it does not start like a word of the language. -/
theorem not_prefix_of_free (word : String) {rest : List Char} (free : isFreeName s)
    (blank : ' ' ∉ word.toList) (reserved : isHardKeyword word) :
    ¬word.toList ++ [' '] <+: s.toList ++ ' ' :: rest := by
  intro starts
  obtain ⟨named, other⟩ := isFreeName_iff.1 free
  have own : ' ' ∉ s.toList := fun mem => absurd (isNamePart_of_mem named mem) (by decide)
  rw [String.toList_inj.1 (eq_of_isPrefix_blank blank own starts), other] at reserved
  cases reserved

theorem readHeading_assignment {a : Assignment} (free : isFreeName a.target) :
    readHeading (a.target ++ " = " ++ a.value.text) = some (.assignment, a.target) := by
  obtain ⟨named, other⟩ := isFreeName_iff.1 free
  have chars : (a.target ++ " = " ++ a.value.text).toList =
      a.target.toList ++ ' ' :: ('=' :: ' ' :: a.value.text.toList) := by simp
  have quiet : startsImport (a.target ++ " = " ++ a.value.text) = false :=
    startsImport_assignment named other (List.mem_singleton_self _)
  have first : ¬"class ".toList.isPrefixOf (a.target ++ " = " ++ a.value.text).toList := by
    rw [chars, List.isPrefixOf_iff_prefix]
    exact not_prefix_of_free "class" free (by decide) (by decide)
  have second : ¬"def ".toList.isPrefixOf (a.target ++ " = " ++ a.value.text).toList := by
    rw [chars, List.isPrefixOf_iff_prefix]
    exact not_prefix_of_free "def" free (by decide) (by decide)
  have plain : (a.target ++ " = " ++ a.value.text).toList.head? ≠ some '@' := by
    cases start : a.target.toList with
    | nil => simp [isIdentifier, start] at named
    | cons c cs =>
      have part := isNamePart_of_mem named (c := c) (by simp [start])
      rw [chars, start]
      rintro same
      obtain rfl : c = '@' := by simpa using same
      exact absurd part (by decide)
  have name : nameAt 0 (a.target ++ " = " ++ a.value.text) = a.target :=
    nameAt_eq "" named (by decide) chars
  rw [readHeading, quiet, if_neg (by simpa using plain), if_neg first, if_neg second, name]

/-- A definition is read off its heading. -/
theorem Definition.read_heading {d : Definition} (free : isFreeName d.name) :
    d.heading.filterMap readHeading = [(d.kind, d.name)] := by
  have named := (isFreeName_iff.1 free).1
  cases d with
  | classDef c => simp [heading, readHeading_class named, kind, name]
  | function f =>
    have none : (f.decorators.map ("@" ++ ·)).filterMap readHeading = [] := by
      rw [List.filterMap_eq_nil_iff]
      intro l mem
      obtain ⟨s, -, rfl⟩ := List.mem_map.1 mem
      exact readHeading_decorator
    simp [heading, Function.heading, none, readHeading_function named, kind, name]
  | assignment a => simp [heading, Assignment.layout, readHeading_assignment free, kind, name]

theorem readHeading_import (l : ImportLine) : readHeading l.text = none := by
  rw [readHeading, l.startsImport_text, if_pos (by simp)]

theorem ImportLine.atMargin_text (l : ImportLine) : atMargin l.text := by
  unfold text
  cases l.names with
  | none => simp [atMargin]
  | some ns => simp [atMargin]

end Headings

/-! ## Files -/

/-- The functions of a definition: itself or the methods of a class. -/
def Definition.functions : Definition → List Function
  | classDef c => c.items.filterMap fun
    | .function f => some f
    | .assignment _ => none
  | function f => [f]
  | assignment _ => []

/-- The names that the items of a definition define. -/
def Definition.itemNames : Definition → List String
  | classDef c => c.items.map ClassItem.name
  | _ => []

/-- A file with line feeds in docstrings only, with free names, and with something to run in each
function that has a body. -/
structure File.Outlined (f : File) : Prop where
  imports : ∀ i ∈ f.imports, Single i.path ∧ ∀ n ∈ i.name, Single n
  body : ∀ d ∈ f.body, d.Tidy
  names : ∀ d ∈ f.body, isFreeName d.name ∧ ∀ n ∈ d.itemNames, isFreeName n
  filled : ∀ d ∈ f.body, ∀ g ∈ d.functions, g.Filled

/-- What some lines show of a file with these import lines. Where a header stands is said by what
stands at the margin above it, for a method above it in its class and below the docstring there. -/
structure File.Shows (f : File) (imports ls : List String) : Prop where
  margin : ls.filter atMargin = imports ++ f.body.flatMap Definition.heading
  inside : ∀ l ∈ ls, atMargin l = false → l = "" ∨ indent.toList <+: l.toList
  outline : readOutline ls = f.body.map fun d => (d.kind, d.name)
  classes : ∀ before c after, f.body = before ++ .classDef c :: after →
    ∃ above below, ls = above ++ c.header :: below ∧
      above.filter atMargin = imports ++ before.flatMap Definition.heading ∧ OpensAt 4 below
  functions : ∀ before g after, f.body = before ++ .function g :: after →
    ∃ above below, ls = above ++ g.header :: below ∧
      above.filter atMargin =
        imports ++ before.flatMap Definition.heading ++ g.decorators.map ("@" ++ ·) ∧
      OpensAt 4 below
  methods : ∀ before c after, f.body = before ++ .classDef c :: after →
    ∀ earlier g later, c.items = earlier ++ .function g :: later →
    ∃ above inside below, ls = above ++ c.header ::
        ((optionalDocstring c.docstring ++ inside).map indented ++ indented g.header :: below) ∧
      above.filter atMargin = imports ++ before.flatMap Definition.heading ∧
      inside.filter atMargin =
        earlier.flatMap ClassItem.heading ++ g.decorators.map ("@" ++ ·) ∧
      OpensAt 8 below

/-! ## Imports -/

section Imports

variable {imports : List Import}

theorem ImportLine.single_text_of_mem
    (single : ∀ i ∈ imports, Single i.path ∧ ∀ n ∈ i.name, Single n) {l : ImportLine}
    (mem : l ∈ ofImports imports) : Single l.text := by
  rcases mem_ofImports_iff.1 mem with ⟨i, there, -, rfl⟩ | ⟨i, there, -, rfl⟩
  · rw [text, single_append]
    exact ⟨by decide, (single i there).1⟩
  · have names : ∀ n ∈ sortedOnce
        (((imports.filter (·.name.isSome)).filter (·.path == i.path)).filterMap (·.name)),
        Single n := by
      intro n taken
      obtain ⟨j, own, -, name⟩ := mem_taken_iff.1 taken
      exact (single j own).2 n name
    have comma : Single ", " := by decide
    have joined := single_intercalate comma names
    rw [text, single_append, single_append, single_append]
    exact ⟨⟨⟨by decide, (single i there).1⟩, by decide⟩, joined⟩

/-- The line for a whole module without a word in its path has nothing to be put in order by. -/
theorem ImportLine.key_eq_error {l : ImportLine} (whole : l.names = none)
    (empty : Text.words l.path = []) (k : String) : l.key ≠ .ok k := by
  have first : Text.words "import" = ["import"] := by decide
  have text : l.text = "import" ++ " " ++ l.path := by
    rw [ImportLine.text, whole]
    exact String.toList_inj.1 (by simp)
  rw [key, text, words_append, first, empty]
  intro same
  cases same

/-- An import block is made of imports whose whole modules have words for paths, and only of them.
-/
theorem exists_importGroups_iff :
    (∃ groups, importGroups imports = .ok groups) ↔
      ∀ i ∈ imports, i.name = none → Text.words i.path ≠ [] := by
  constructor
  · rintro ⟨groups, made⟩ i mem whole empty
    let l : ImportLine := ⟨i.path, none⟩
    have line : l ∈ ImportLine.ofImports imports :=
      ImportLine.mem_ofImports_iff.2 (.inl ⟨i, mem, whole, rfl⟩)
    obtain ⟨all, sorted, -⟩ := Error.bind_eq_ok_iff.1 made
    have known : l.group ∈ ImportLine.Group.all := by cases l.group <;> decide
    obtain ⟨own, put⟩ := Error.exists_of_mapM_eq_ok sorted l.group known
    obtain ⟨keyed, keys, -⟩ := Error.bind_eq_ok_iff.1 put
    have there : l ∈ (ImportLine.ofImports imports).filter (·.group == l.group) :=
      List.mem_filter.2 ⟨line, by simp⟩
    obtain ⟨pair, found⟩ := Error.exists_of_mapM_eq_ok keys l there
    obtain ⟨k, key, -⟩ := Error.bind_eq_ok_iff.1 found
    exact ImportLine.key_eq_error (l := l) rfl empty k key
  · intro bare
    obtain ⟨groups, made, -⟩ := exists_importGroups bare
    exact ⟨groups, made⟩

theorem File.layout_eq_ok_iff {f : File} {text : String} :
    f.layout .plain = .ok text ↔ ∃ groups, importGroups f.imports = .ok groups ∧
      text = endLines (f.linesBelow
        ([""].intercalate (groups.map fun g => g.map ImportLine.text))) := by
  constructor
  · intro laid
    obtain ⟨block, made, eq⟩ := Error.bind_eq_ok_iff.1 laid
    obtain ⟨groups, grouped, joined⟩ := Error.bind_eq_ok_iff.1 made
    cases joined
    cases eq
    exact ⟨groups, grouped, rfl⟩
  · rintro ⟨groups, grouped, rfl⟩
    exact Error.bind_eq_ok_iff.2 ⟨_, Error.bind_eq_ok_iff.2 ⟨groups, grouped, rfl⟩, rfl⟩

end Imports

/-! ## Lines of a file -/

section Files

variable {f : File} {groups : List (List ImportLine)} {ls : List String}

/-- The parts of a file that are set apart from each other: the groups of its imports and its
definitions. -/
def partsOf (groups : List (List ImportLine)) (body : List Definition) : List (List String) :=
  groups.map (·.map ImportLine.text) ++ body.map Definition.layout

/-- The text of a file has the lines of its parts and empty ones. -/
theorem File.Outlined.setApart_lines (outlined : f.Outlined)
    (made : ∀ l ∈ groups.flatten, l ∈ ImportLine.ofImports f.imports) :
    SetApart (partsOf groups f.body) (lines (endLines (f.linesBelow
      ([""].intercalate (groups.map fun g => g.map ImportLine.text))))) := by
  have apart := f.setApart_linesBelow (SetApart.intercalate (groups.map (·.map ImportLine.text)))
  generalize f.linesBelow _ = ls at apart
  have single : ∀ l ∈ ls, Single l := by
    intro l mem
    rcases apart.mem mem with rfl | ⟨part, there, own⟩
    · decide
    · rcases List.mem_append.1 there with group | definition
      · obtain ⟨g, inside, rfl⟩ := List.mem_map.1 group
        obtain ⟨line, member, rfl⟩ := List.mem_map.1 own
        exact ImportLine.single_text_of_mem outlined.imports
          (made line (List.mem_flatten.2 ⟨g, inside, member⟩))
      · obtain ⟨d, inside, rfl⟩ := List.mem_map.1 definition
        exact (outlined.body d inside).single_layout own
  by_cases none : ls = []
  · subst none
    exact apart.append_blank 2
  · rw [lines_endLines single none]
    exact apart.append_blank 1

theorem filter_partsOf {body : List Definition} (named : ∀ d ∈ body, isIdentifier d.name)
    (apart : SetApart (partsOf groups body) ls) :
    ls.filter atMargin =
      groups.flatten.map ImportLine.text ++ body.flatMap Definition.heading := by
  have imports : ∀ g : List ImportLine, (g.map ImportLine.text).filter atMargin =
      g.map ImportLine.text := by
    intro g
    refine List.filter_eq_self.2 fun l mem => ?_
    obtain ⟨line, -, rfl⟩ := List.mem_map.1 mem
    exact line.atMargin_text
  rw [apart.filter (by decide), partsOf, List.flatMap_append, List.flatMap_map, List.flatMap_map]
  congr 1
  · simp only [imports]
    rw [List.map_flatten, ← List.flatMap_def]
  · exact List.flatMap_congr fun d mem => Definition.filter_layout (named d mem)

/-- A definition stands below those before it. -/
theorem exists_definition {before after : List Definition} {d : Definition}
    (apart : SetApart (partsOf groups (before ++ d :: after)) ls) :
    ∃ above below, ls = above ++ (d.layout ++ below) ∧ SetApart (partsOf groups before) above := by
  rw [partsOf, List.map_append, List.map_cons, ← List.append_assoc] at apart
  obtain ⟨above, below, eq, upper, -⟩ := apart.exists_split
  exact ⟨above, below, eq, upper⟩

/-- An item stands below the docstring of its class and the items before it. -/
theorem ClassDef.exists_item {c : ClassDef} {earlier later : List ClassItem} {item : ClassItem}
    (items : c.items = earlier ++ item :: later) :
    ∃ inside below, c.inner =
        optionalDocstring c.docstring ++ (inside ++ (item.layout ++ below)) ∧
      SetApart (earlier.map ClassItem.layout) inside := by
  rcases c.exists_inner with ⟨-, none⟩ | ⟨more, inner, apart⟩
  · simp [none] at items
  · rw [items, List.map_append, List.map_cons] at apart
    obtain ⟨inside, below, rfl, upper, -⟩ := apart.exists_split
    exact ⟨inside, below, inner, upper⟩

theorem indent_prefix_indented {l : String} (ne : l ≠ "") :
    indent.toList <+: (indented l).toList := by
  rw [indented_of_ne ne, String.toList_append]
  exact List.prefix_append _ _

/-- A line of a definition is at the margin, empty or indented. -/
theorem Definition.indented_of_mem {d : Definition} {l : String} (mem : l ∈ d.layout)
    (named : isIdentifier d.name) (inside : atMargin l = false) :
    l = "" ∨ indent.toList <+: l.toList := by
  have below : ∀ ls : List String, l ∈ ls.map indented → l = "" ∨ indent.toList <+: l.toList := by
    intro ls mem
    obtain ⟨k, -, rfl⟩ := List.mem_map.1 mem
    by_cases empty : k = ""
    · exact .inl (by rw [empty]; rfl)
    · exact .inr (indent_prefix_indented empty)
  have upper : l ∉ d.heading := by
    intro own
    rw [← filter_layout named, List.mem_filter] at own
    rw [own.2] at inside
    cases inside
  cases d with
  | classDef c =>
    rw [heading, List.mem_singleton] at upper
    exact below c.inner ((List.mem_cons.1 mem).resolve_left upper)
  | function f =>
    rw [layout, Function.layout_eq] at mem
    exact below f.inner ((List.mem_append.1 mem).resolve_left upper)
  | assignment a => exact absurd mem upper

theorem File.Outlined.shows (outlined : f.Outlined) (apart : SetApart (partsOf groups f.body) ls) :
    f.Shows (groups.flatten.map ImportLine.text) ls := by
  have named : ∀ d ∈ f.body, isIdentifier d.name := fun d mem =>
    (isFreeName_iff.1 (outlined.names d mem).1).1
  have margin := filter_partsOf named apart
  refine ⟨margin, ?_, ?_, ?_, ?_, ?_⟩
  · intro l mem inside
    rcases apart.mem mem with rfl | ⟨part, there, own⟩
    · exact .inl rfl
    · rcases List.mem_append.1 there with group | definition
      · obtain ⟨g, -, rfl⟩ := List.mem_map.1 group
        obtain ⟨line, -, rfl⟩ := List.mem_map.1 own
        rw [line.atMargin_text] at inside
        cases inside
      · obtain ⟨d, member, rfl⟩ := List.mem_map.1 definition
        exact Definition.indented_of_mem own (named d member) inside
  · have imports : (groups.flatten.map ImportLine.text).filterMap readHeading = [] := by
      rw [List.filterMap_eq_nil_iff]
      intro l mem
      obtain ⟨line, -, rfl⟩ := List.mem_map.1 mem
      exact readHeading_import line
    rw [readOutline, margin, List.filterMap_append, imports, List.nil_append,
      List.filterMap_flatMap, List.flatMap_congr fun d mem =>
        Definition.read_heading (outlined.names d mem).1]
    exact List.map_eq_flatMap.symm
  · intro before c after body
    rw [body] at apart named
    obtain ⟨above, below, rfl, upper⟩ := exists_definition apart
    exact ⟨above, c.inner.map indented ++ below, rfl,
      filter_partsOf (fun d mem => named d (List.mem_append_left _ mem)) upper,
      c.opensAt_inner.indented.append below⟩
  · intro before g after body
    have filled := outlined.filled (.function g) (by simp [body]) g (by simp [Definition.functions])
    rw [body] at apart named
    obtain ⟨above, below, rfl, upper⟩ := exists_definition apart
    refine ⟨above ++ g.decorators.map ("@" ++ ·), g.inner.map indented ++ below, ?_, ?_,
      filled.opensAt_inner.indented.append below⟩
    · simp [Definition.layout, Function.layout]
    · rw [List.filter_append,
        filter_partsOf (fun d mem => named d (List.mem_append_left _ mem)) upper,
        g.filter_decorators]
  · intro before c after body earlier g later items
    have owner : Definition.classDef c ∈ f.body := by simp [body]
    have filled := outlined.filled (.classDef c) owner g (by simp [Definition.functions, items])
    have inner := (outlined.names _ owner).2
    rw [body] at apart named
    obtain ⟨above, below, rfl, upper⟩ := exists_definition apart
    obtain ⟨inside, rest, eq, within⟩ := ClassDef.exists_item items
    have free : ∀ item ∈ earlier, isIdentifier item.name := by
      intro item mem
      refine (isFreeName_iff.1 (inner item.name ?_)).1
      rw [Definition.itemNames, items]
      exact List.mem_map_of_mem (List.mem_append_left _ mem)
    refine ⟨above, inside ++ g.decorators.map ("@" ++ ·),
      (g.inner.map indented ++ rest).map indented ++ below, ?_,
      filter_partsOf (fun d mem => named d (List.mem_append_left _ mem)) upper, ?_,
      (filled.opensAt_inner.indented.append rest).indented.append below⟩
    · simp [Definition.layout, ClassDef.layout, eq, ClassItem.layout, Function.layout]
    · rw [List.filter_append, ClassItem.filter_setApart free within, g.filter_decorators]

end Files

/-- A file has a text if and only if each whole module that it imports has a path with a word in it.
The lines at the margin of the text are the import lines and the headings of the definitions in
order, so the outline is read back from them. All other lines are empty or indented, and below the
header of a class, a function or a method the first line that is not blank is one level deeper. -/
theorem File.layout_shows {f : File} (outlined : f.Outlined) :
    ((∃ text, f.layout .plain = .ok text) ↔
      ∀ i ∈ f.imports, i.name = none → Text.words i.path ≠ []) ∧
    ∀ text, f.layout .plain = .ok text → ∃ groups, importGroups f.imports = .ok groups ∧
      (∀ l, l ∈ groups.flatten ↔ l ∈ ImportLine.ofImports f.imports) ∧
      f.Shows (groups.flatten.map ImportLine.text) (lines text) := by
  constructor
  · rw [← exists_importGroups_iff]
    constructor
    · rintro ⟨text, laid⟩
      obtain ⟨groups, made, -⟩ := layout_eq_ok_iff.1 laid
      exact ⟨groups, made⟩
    · rintro ⟨groups, made⟩
      exact ⟨_, layout_eq_ok_iff.2 ⟨groups, made, rfl⟩⟩
  · intro text laid
    obtain ⟨groups, made, rfl⟩ := layout_eq_ok_iff.1 laid
    obtain ⟨same, grouped, members⟩ :=
      exists_importGroups (exists_importGroups_iff.1 ⟨groups, made⟩)
    obtain rfl : groups = same := Except.ok.inj (made.symm.trans grouped)
    exact ⟨groups, made, members,
      outlined.shows (outlined.setApart_lines fun l mem => (members l).1 mem)⟩

/-- A file with a docstring that looks like definitions. -/
def deskFile : File where
  name := "desk"
  imports := [⟨"os", none⟩, ⟨".pkg", some "box"⟩]
  body := [
    .classDef {
      name := "Desk"
      docstring := some "A desk.\nclass Chair:\n  def sit():\n"
      items := [
        .assignment ⟨"legs", .int 4, []⟩,
        .function { name := "move", decorators := ["cached"], body := [.raw "", .raw "return"] }] },
    .assignment ⟨"first", .int 1, []⟩,
    .function { name := "load", docstring := some "first = 2" }]

theorem outlined_deskFile : deskFile.Outlined where
  imports := by decide
  body := by
    simp only [deskFile, List.forall_mem_cons, List.not_mem_nil, false_imp_iff, implies_true,
      and_true]
    refine ⟨⟨by decide, by simp, by decide, ?_⟩, ⟨⟨by decide, by decide⟩, by decide, by decide⟩,
      ⟨by decide, by simp, by simp, by decide, by simp, by decide⟩⟩
    simp only [List.forall_mem_cons, List.not_mem_nil, false_imp_iff, implies_true, and_true]
    exact ⟨⟨by decide, by decide⟩, ⟨by decide, by simp, by simp, by decide, by decide, by simp⟩⟩
  names := by decide
  filled := by decide

theorem layout_shows_deskFile :
    deskFile.Outlined ∧ (∀ i ∈ deskFile.imports, i.name = none → Text.words i.path ≠ []) ∧
    ∃ text imports, deskFile.layout .plain = .ok text ∧ deskFile.Shows imports (lines text) ∧
      readOutline (lines text) =
        [(.classDef, "Desk"), (.assignment, "first"), (.function, "load")] := by
  have words : ∀ i ∈ deskFile.imports, i.name = none → Text.words i.path ≠ [] := by decide
  obtain ⟨exists_iff, shows⟩ := File.layout_shows outlined_deskFile
  obtain ⟨text, laid⟩ := exists_iff.2 words
  obtain ⟨groups, -, -, own⟩ := shows text laid
  exact ⟨outlined_deskFile, words, text, _, laid, own, own.outline⟩

end Polyad.Code
