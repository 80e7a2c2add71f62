import Polyad.Proofs.Code.ImportReading
import Polyad.Code.Document

/-!
# Writing is transparent

Writing a file puts the collected imports in the place of its own, whether or not the text comes
about. The text depends on the imports of a file only as a set, together with those that its
definitions ask for, and no edit takes an import away. So a file that has been written goes on as
one that has not: a run of edits and writes answers as it would without any of the writes before.
-/

namespace Polyad.Code

/-! ## Edits -/

namespace Definition

/-- Adds an item to a class; nothing else takes one. -/
def addItem (item : ClassItem) : Definition → Definition
  | classDef c => .classDef (c.add item)
  | d => d

/-- Adds to the imports that a definition asks for itself. -/
def addImports (imports : List Import) : Definition → Definition
  | classDef c => .classDef { c with imports := c.imports ++ imports }
  | function f => .function { f with imports := f.imports ++ imports }
  | assignment a => .assignment { a with imports := a.imports ++ imports }

end Definition

/-- Changes the definitions at some places; of one that stands at several, these are all. -/
def File.changeAt (f : File) (places : List Nat) (change : Definition → Definition) : File :=
  { f with body := f.body.mapIdx fun n d => if n ∈ places then change d else d }

/-- What can be done to a file between two writes. -/
inductive Edit where
  | define (d : Definition)
  | addItem (places : List Nat) (item : ClassItem)
  | addImports (imports : List Import)
  | addImportsAt (places : List Nat) (imports : List Import)
  | rename (name : String)

def Edit.apply (f : File) : Edit → File
  | define d => f.add d
  | addItem places item => f.changeAt places (.addItem item)
  | addImports imports => f.addImports imports
  | addImportsAt places imports => f.changeAt places (.addImports imports)
  | rename name => f.rename name

/-! ## Files that are written alike -/

/-- Two files that differ in nothing but in which of their imports they ask for themselves, and in
what order and how often. -/
structure Alike (f g : File) : Prop where
  name : f.name = g.name
  body : f.body = g.body
  comment : f.comment = g.comment
  imports : ∀ i, i ∈ f.allImports ↔ i ∈ g.allImports

variable {f g h : File}

theorem Alike.refl (f : File) : Alike f f := ⟨rfl, rfl, rfl, fun _ => .rfl⟩

theorem Alike.symm (alike : Alike f g) : Alike g f :=
  ⟨alike.name.symm, alike.body.symm, alike.comment.symm, fun i => (alike.imports i).symm⟩

theorem Alike.trans (first : Alike f g) (second : Alike g h) : Alike f h :=
  ⟨first.name.trans second.name, first.body.trans second.body,
    first.comment.trans second.comment, fun i => (first.imports i).trans (second.imports i)⟩

/-- What a write leaves behind is like the file before it. -/
theorem alike_resolve (f : File) : Alike f.resolve f := by
  refine ⟨rfl, rfl, rfl, fun i => ?_⟩
  rw [File.allImports, File.resolve, List.mem_append, File.mem_collectImports]
  exact or_iff_left_of_imp (List.mem_append_right f.imports)

/-- Files that are alike have the same text or fail alike. -/
theorem Alike.document_eq (alike : Alike f g) (header : List String) :
    f.document .plain header = g.document .plain header := by
  have block : renderImports f.resolve.imports = renderImports g.resolve.imports :=
    renderImports_congr fun i =>
      File.mem_collectImports.trans ((alike.imports i).trans File.mem_collectImports.symm)
  have below (head : List String) :
      f.resolve.linesBelow head = g.resolve.linesBelow head := by
    simp only [File.linesBelow, File.resolve, alike.body]
  have text : f.resolve.layout .plain = g.resolve.layout .plain := by
    simp only [File.layout_plain, block, below]
  have filename : f.filename = g.filename := congrArg (· ++ ".py") alike.name
  simp only [File.document, text, alike.comment, filename]

/-- No definition is changed so that it asks for less. -/
theorem Definition.allImports_subset_addItem (d : Definition) (item : ClassItem) :
    d.allImports ⊆ (d.addItem item).allImports := by
  cases d with
  | classDef c => simp [addItem, allImports, ClassDef.add]
  | function f => exact List.Subset.refl _
  | assignment a => exact List.Subset.refl _

theorem Definition.allImports_subset_addImports (d : Definition) (imports : List Import) :
    d.allImports ⊆ (d.addImports imports).allImports := by
  cases d with
  | classDef c =>
    intro i mem
    rcases List.mem_append.1 mem with own | items
    · exact List.mem_append_left _ (List.mem_append_left _ own)
    · exact List.mem_append_right _ items
  | function f => exact List.subset_append_left ..
  | assignment a => exact List.subset_append_left ..

/-- Bodies that ask for no less than before leave files alike. -/
theorem Alike.withBody (alike : Alike f g) {body : List Definition}
    (grows : f.body.flatMap Definition.allImports ⊆ body.flatMap Definition.allImports) :
    Alike { f with body } { g with body } := by
  refine ⟨alike.name, rfl, alike.comment, fun i => ?_⟩
  have all := alike.imports i
  simp only [File.allImports, List.mem_append, ← alike.body] at all ⊢
  have kept : i ∈ f.body.flatMap Definition.allImports → i ∈ body.flatMap Definition.allImports :=
    fun mem => grows mem
  tauto

theorem Alike.changeAt (alike : Alike f g) (places : List Nat) {change : Definition → Definition}
    (grows : ∀ d : Definition, d.allImports ⊆ (change d).allImports) :
    Alike (f.changeAt places change) (g.changeAt places change) := by
  have below : f.body.flatMap Definition.allImports ⊆
      (f.body.mapIdx fun n d => if n ∈ places then change d else d).flatMap
        Definition.allImports := by
    intro i mem
    obtain ⟨d, there, own⟩ := List.mem_flatMap.1 mem
    obtain ⟨n, lt, rfl⟩ := List.mem_iff_getElem.1 there
    refine List.mem_flatMap.2 ⟨_, List.mem_mapIdx.2 ⟨n, lt, rfl⟩, ?_⟩
    split
    · exact grows _ own
    · exact own
  have same := alike.withBody below
  rw [File.changeAt, File.changeAt, ← alike.body]
  exact same

/-- An edit leaves files alike that are alike. -/
theorem Alike.apply (alike : Alike f g) (e : Edit) : Alike (e.apply f) (e.apply g) := by
  cases e with
  | define d =>
    have grows : f.body.flatMap Definition.allImports ⊆
        (f.body ++ [d]).flatMap Definition.allImports := by simp
    have same := alike.withBody grows
    rw [Edit.apply, Edit.apply, File.add, File.add, ← alike.body]
    exact same
  | addItem places item =>
    exact alike.changeAt places fun d => d.allImports_subset_addItem item
  | addImports imports =>
    refine ⟨alike.name, alike.body, alike.comment, fun i => ?_⟩
    have all := alike.imports i
    simp only [Edit.apply, File.addImports, File.allImports, List.mem_append] at all ⊢
    tauto
  | addImportsAt places imports =>
    exact alike.changeAt places fun d => d.allImports_subset_addImports imports
  | rename name => exact ⟨rfl, alike.body, alike.comment, alike.imports⟩

/-! ## Runs -/

/-- A step of a run: an edit, or a write with a header. The answer of an extra write is dropped. -/
inductive Step where
  | edit (e : Edit)
  | write (header : List String) (extra : Bool)

def Step.isExtra : Step → Bool
  | edit _ => false
  | write _ extra => extra

/-- The file after a step; every write resolves the imports, also one that fails. -/
def Step.after (f : File) : Step → File
  | edit e => e.apply f
  | write .. => f.resolve

/-- What the step answers, if it is a write that is not extra. -/
def Step.answer (f : File) : Step → List (Except Error String)
  | write header false => [f.document .plain header]
  | _ => []

namespace File

/-- The answers of a run, in order. -/
def answers (f : File) : List Step → List (Except Error String)
  | [] => []
  | s :: steps => s.answer f ++ (s.after f).answers steps

/-- The file after a run. -/
def after (f : File) (steps : List Step) : File := steps.foldl Step.after f

theorem answers_append (f : File) (first second : List Step) :
    f.answers (first ++ second) = f.answers first ++ (f.after first).answers second := by
  induction first generalizing f with
  | nil => rfl
  | cons s steps ih =>
    rw [List.cons_append, answers, answers, ih, List.append_assoc]
    rfl

end File

theorem Alike.after_step (alike : Alike f g) (s : Step) : Alike (s.after f) (s.after g) := by
  cases s with
  | edit e => exact alike.apply e
  | write header extra => exact (alike_resolve f).trans (alike.trans (alike_resolve g).symm)

theorem Alike.answer_eq (alike : Alike f g) (s : Step) : s.answer f = s.answer g := by
  match s with
  | .edit _ => rfl
  | .write header false => exact congrArg ([·]) (alike.document_eq header)
  | .write header true => rfl

/-- An extra write answers nothing and leaves the file as it was, up to the imports of its own. -/
theorem Step.extra_eq (f : File) {s : Step} (extra : s.isExtra = true) :
    s.answer f = [] ∧ Alike (s.after f) f := by
  match s, extra with
  | .write _ true, _ => exact ⟨rfl, alike_resolve f⟩

/-- Files that are alike stay so in a run and its copy without the extra writes. -/
theorem Alike.after_filter (alike : Alike f g) (steps : List Step) :
    Alike (f.after steps) (g.after (steps.filter (!·.isExtra))) := by
  induction steps generalizing f g with
  | nil => exact alike
  | cons s steps ih =>
    cases extra : s.isExtra with
    | true =>
      rw [List.filter_cons_of_neg (by simp [extra])]
      exact ih ((Step.extra_eq f extra).2.trans alike)
    | false =>
      rw [List.filter_cons_of_pos (by simp [extra])]
      exact ih (alike.after_step s)

theorem Alike.answers_filter (alike : Alike f g) (steps : List Step) :
    f.answers steps = g.answers (steps.filter (!·.isExtra)) := by
  induction steps generalizing f g with
  | nil => rfl
  | cons s steps ih =>
    cases extra : s.isExtra with
    | true =>
      obtain ⟨silent, same⟩ := Step.extra_eq f extra
      rw [List.filter_cons_of_neg (by simp [extra]), File.answers, silent, List.nil_append]
      exact ih (same.trans alike)
    | false =>
      rw [List.filter_cons_of_pos (by simp [extra]), File.answers, File.answers, alike.answer_eq,
        ih (alike.after_step s)]

/-- Written again and again, a file has one text or fails in one way. -/
theorem Alike.answers_replicate (alike : Alike f g) (header : List String) (n : Nat) :
    f.answers (.replicate n (.write header false)) =
      .replicate n (g.document .plain header) := by
  induction n generalizing f with
  | zero => rfl
  | succ n ih =>
    have next : Alike f.resolve g := (alike_resolve f).trans alike
    rw [List.replicate_succ, List.replicate_succ, File.answers, ← ih next]
    exact congrArg (· :: _) (alike.document_eq header)

/-- A run answers as it does without the extra writes; a write at its end, made any number of times,
answers every time what it would answer then. -/
theorem answers_writes_transparent (f : File) (steps : List Step) (header : List String) (n : Nat) :
    f.answers (steps ++ .replicate n (.write header false)) =
      f.answers (steps.filter (!·.isExtra)) ++
        .replicate n ((f.after (steps.filter (!·.isExtra))).document .plain header) := by
  have same := (Alike.refl f).after_filter steps
  rw [File.answers_append, (Alike.refl f).answers_filter, same.answers_replicate]

end Polyad.Code
