import Polyad.Proofs.Config.Grammar
import Polyad.Proofs.Generated.Heading
import Polyad.Run.Generate

/-!
# Headers of generated files

What stands above the imports of generated files is the header and nothing else, so it consists of
comments if the header does not hold line breaks in places where it should not. A header that is
given as one text never does; the items of a list are taken as they are.
-/

namespace Polyad

namespace Text

theorem not_isBoundary_of_mem {line cs : List Char} (own : ∀ c ∈ line, isBoundary c = false) :
    ∀ part ∈ paragraphsFrom line cs, ∀ c ∈ part, isBoundary c = false := by
  have turned {xs : List Char} (h : ∀ c ∈ xs, isBoundary c = false) :
      ∀ c ∈ xs.reverse, isBoundary c = false := fun c mem => h c (List.mem_reverse.1 mem)
  fun_induction paragraphsFrom line cs with
  | case1 line empty => exact nofun
  | case2 line full => simpa using own
  | case3 line rest ih => exact List.forall_mem_cons.2 ⟨turned own, ih nofun⟩
  | case4 line c rest apart ends ih => exact List.forall_mem_cons.2 ⟨turned own, ih nofun⟩
  | case5 line c rest apart goes ih =>
    exact ih (List.forall_mem_cons.2 ⟨Bool.eq_false_iff.2 goes, own⟩)

/-- The lines of a text by any convention have no breaks. -/
theorem single_of_mem_paragraphs {s l : String} (mem : l ∈ paragraphs s) : Single l := by
  obtain ⟨part, there, rfl⟩ := List.mem_map.1 mem
  have none := not_isBoundary_of_mem (by simp) part there
  have feed : isBoundary '\n' ∧ isBoundary '\r' := by decide
  rw [Single, String.toList_ofList]
  refine ⟨fun own => ?_, fun own => ?_⟩
  · exact Bool.false_ne_true ((none _ own).symm.trans feed.1)
  · exact Bool.false_ne_true ((none _ own).symm.trans feed.2)

end Text

namespace Config

open Code Text Generated

variable {fields : List (String × Value)} {c : Config} {f : Family} {reformat : Reformatter}

/-- The lines of the header that a document gives. -/
def headerGiven : Option Value → List String
  | none => defaultHeader
  | some (.str s) => paragraphs s
  | some v => (v.items?.getD []).map Value.text

theorem readHeader_eq_ok {v w : Value} (read : readHeader v = .ok w) :
    w = .list ((headerGiven (some v)).map .str) := by
  rw [readHeader.eq_def] at read
  split at read
  · cases read
    rfl
  · cases read
    rfl
  · next other text =>
    have given : headerGiven (some v) = (v.items?.getD []).map Value.text := by
      cases v with
      | str s => exact absurd rfl (text s)
      | _ => rfl
    rw [given]
    split at read
    · next items known =>
      rw [known, Option.getD_some]
      cases run : items.mapM readLine with
      | error e =>
        rw [run] at read
        cases read
      | ok ws =>
        have texts : ∀ i ∈ items, i.hasText := by
          intro i mem
          obtain ⟨w, own⟩ := Error.exists_of_mapM_eq_ok run i mem
          by_contra none
          rw [readLine, if_neg none] at own
          cases own
        rw [readLines_ok texts] at read
        cases read
        rw [List.map_map]
        rfl
    · cases read

/-- The header of a configuration is what the document gives, line by line. -/
theorem header_of_ofValue (distinct : (fields.map Prod.fst).Nodup)
    (read : ofValue (.dict (Json.named fields)) = .ok c) :
    c.header = .list ((headerGiven (field fields .header)).map .str) ∧
      isDottedPath c.runtimeModule.text := by
  rw [ofValue_named distinct] at read
  obtain ⟨-, -, read⟩ := Error.bind_eq_ok_iff.1 read
  obtain ⟨s, settings, check⟩ := Error.bind_eq_ok_iff.1 read
  obtain ⟨header, path⟩ := Settings.header_of_check check
  refine ⟨?_, path⟩
  obtain ⟨out, -, settings⟩ := Error.bind_eq_ok_iff.1 settings
  obtain ⟨form, -, settings⟩ := Error.bind_eq_ok_iff.1 settings
  obtain ⟨head, own, settings⟩ := Error.bind_eq_ok_iff.1 settings
  cases settings
  rw [header]
  cases given : field fields .header with
  | none =>
    rw [given] at own
    cases own
    rfl
  | some v =>
    rw [given] at own
    cases lines : readHeader v with
    | error e =>
      rw [mapM_error rfl lines] at own
      cases own
    | ok w =>
      simp only [Option.mapM_some, lines, Functor.map, Except.map] at own
      cases own
      exact readHeader_eq_ok lines

theorem headerLines_eq {ls : List String} (header : c.header = .list (ls.map .str)) :
    c.headerLines = .ok ls := by
  rw [headerLines, header]
  cases ls with
  | nil => rfl
  | cons l ls =>
    have line (s : String) : headerLine (.str s) = s := by
      by_cases empty : s = ""
      · rw [empty]
        rfl
      · simp [headerLine, Value.truthy, Value.content, empty]
    have lines : ((l :: ls).map Value.str).map headerLine = l :: ls := by
      rw [List.map_map]
      exact (List.map_congr_left fun s _ => line s).trans (List.map_id _)
    exact congrArg Except.ok lines

/-- Lines that are texts can be told. -/
theorem tellHeader_eq {ls : List String} (header : c.header = .list (ls.map .str)) :
    c.tellHeader = .ok () := by
  have told : ∀ ls : List String, Value.allHaveText (ls.map .str) := by
    intro ls
    induction ls with
    | nil => rfl
    | cons l ls ih => simpa [Value.allHaveText] using ih
  rw [tellHeader, header]
  exact if_pos (told ls)

/-- A header that is given as one text, or not at all, has lines without breaks. -/
theorem single_of_mem_headerGiven {o : Option Value} (text : ∀ v ∈ o, v = .null ∨ ∃ s, v = .str s) :
    ∀ line ∈ headerGiven o, Single line := by
  cases o with
  | none => decide
  | some v =>
    rcases text v rfl with rfl | ⟨s, rfl⟩
    · exact nofun
    · exact fun line mem => single_of_mem_paragraphs mem

/-! ## Rendering -/

theorem built_of_buildFrom {v : Value} (built : Family.buildFrom v = .ok f) :
    ∃ n, 1 ≤ n ∧ n ≤ Naming.letterBudget ∧ f = Family.built n := by
  cases v with
  | int k =>
    obtain ⟨n, -, pos, le, eq⟩ := Family.exists_built built
    exact ⟨n, pos, le, eq⟩
  | _ => cases built

/-- The family of a bound has both of its files, under any header. -/
theorem exists_files (built : Family.buildFrom c.maxArity = .ok f)
    (path : isDottedPath c.runtimeModule.text) (header : List String) :
    ∃ contracts concretes text text', c.files f = .ok (contracts, concretes) ∧
      StartsBelow contracts header text ∧ StartsBelow concretes header text' := by
  obtain ⟨n, pos, le, rfl⟩ := built_of_buildFrom built
  have budget := Naming.letterBudget_eq
  have size : (Family.built n).maxArity = n := rfl
  obtain ⟨⟨contracts, emitted⟩, concretes, emitted'⟩ := exists_emitted (Family.derived_built le)
    (by rw [size]; omega) (by rw [size]; omega) c.runtimeModule.text c.interfacesModule
    c.implementationsModule
  obtain ⟨text, own⟩ := contractsFile_starts emitted path header
  obtain ⟨text', own'⟩ := concretesFile_starts emitted' path header
  refine ⟨contracts, concretes, text, text', ?_, own, own'⟩
  exact Error.bind_eq_ok_iff.2 ⟨_, emitted, Error.bind_eq_ok_iff.2 ⟨_, emitted', rfl⟩⟩

/-- If both files have texts, a configuration renders them as long as its header can be told and its
runtime is a text. -/
theorem render_eq_ok_iff {header : List String} {contracts concretes : File} {text text' : String}
    (built : Family.buildFrom c.maxArity = .ok f) (lines : c.headerLines = .ok header)
    (files : c.files f = .ok (contracts, concretes))
    (own : contracts.document (c.finish reformat) header = .ok text)
    (own' : concretes.document (c.finish reformat) header = .ok text') (r : Rendered) :
    c.render reformat = .ok r ↔
      c.tellHeader = .ok () ∧ (∃ s, c.runtimeModule = .str s) ∧ r = ⟨f, text, text'⟩ := by
  rw [render, built]
  change c.renderFamily reformat f = _ ↔ _
  rw [renderFamily, lines, files]
  change (c.runtimePath >>= fun _ => _) = _ ↔ _
  rw [own, own', runtimePath.eq_def]
  cases c.runtimeModule with
  | str s =>
    cases c.tellHeader with
    | error e => exact ⟨nofun, nofun⟩
    | ok told =>
      exact ⟨fun h => ⟨rfl, ⟨s, rfl⟩, (Except.ok.inj h).symm⟩, fun ⟨_, _, eq⟩ => by rw [eq]; rfl⟩
  | _ => exact ⟨nofun, fun ⟨_, ⟨s, runtime⟩, _⟩ => nomatch runtime⟩

/-- What is known of the texts that a configuration renders: there are texts if the runtime is given
as a text, each of them is its header and then its import block, and what is above the block are
comments if all lines of a line of the header after its first are. -/
structure HeaderAbove (c : Config) (reformat : Reformatter) (f : Family) (header : List String) :
    Prop where
  rendered : (∃ r, c.render reformat = .ok r) ↔ ∃ s, c.runtimeModule = .str s
  above : ∀ r, c.render reformat = .ok r →
    ∃ contracts concretes, c.files f = .ok (contracts, concretes) ∧
      StartsBelow contracts header r.contracts ∧ StartsBelow concretes header r.concretes
  comments : (∀ row ∈ header.flatMap commentRows, IsComment row) ↔
    ∀ line ∈ header, ∀ row ∈ (rows line).tail, IsComment row

theorem headerAbove_of_ofValue (distinct : (fields.map Prod.fst).Nodup)
    (read : ofValue (.dict (Json.named fields)) = .ok c) (plain : c.formatter = .plain)
    (built : Family.buildFrom c.maxArity = .ok f) (reformat : Reformatter) :
    HeaderAbove c reformat f (headerGiven (field fields .header)) := by
  obtain ⟨header, path⟩ := header_of_ofValue distinct read
  obtain ⟨contracts, concretes, text, text', files, own, own'⟩ :=
    exists_files built path (headerGiven (field fields .header))
  have rendered := render_eq_ok_iff built (headerLines_eq header) files
    ((finish_plain plain reformat).symm ▸ own.written)
    ((finish_plain plain reformat).symm ▸ own'.written)
  have told := tellHeader_eq header
  refine ⟨?_, fun r ok => ?_, comments_iff _⟩
  · exact ⟨fun ⟨r, ok⟩ => ((rendered r).1 ok).2.1,
      fun runtime => ⟨_, (rendered _).2 ⟨told, runtime, rfl⟩⟩⟩
  · obtain ⟨-, -, rfl⟩ := (rendered r).1 ok
    exact ⟨contracts, concretes, files, own, own'⟩

/-- The texts of a configuration that is read start with its header, and above the import block
stands nothing else. A header that is given as one text, or left out, consists of comments. -/
theorem header_above_imports (distinct : (fields.map Prod.fst).Nodup)
    (read : ofValue (.dict (Json.named fields)) = .ok c) (plain : c.formatter = .plain)
    (built : Family.buildFrom c.maxArity = .ok f) (reformat : Reformatter) :
    HeaderAbove c reformat f (headerGiven (field fields .header)) ∧
      ((∀ v ∈ field fields .header, v = .null ∨ ∃ s, v = .str s) →
        ∀ row ∈ (headerGiven (field fields .header)).flatMap commentRows, IsComment row) := by
  have known := headerAbove_of_ofValue distinct read plain built reformat
  refine ⟨known, fun text => known.comments.2 fun line mem row own => ?_⟩
  rw [rows_of_single (single_of_mem_headerGiven text line mem)] at own
  cases own

/-- A document whose header has an item with a line break in it. -/
def brokenHeader : List (String × Value) := [
  ("formatter", .str "plain"), ("max_arity", .int 1), ("header", .list [.str "a\nb"])]

/-- The second line of the item stands in both texts as it is. -/
theorem brokenHeader_above_imports :
    (brokenHeader.map Prod.fst).Nodup ∧
    ∃ c f r, ofValue (.dict (Json.named brokenHeader)) = .ok c ∧ c.formatter = .plain ∧
      Family.buildFrom c.maxArity = .ok f ∧ c.render Code.reformat = .ok r ∧
      (∃ below, lines r.contracts = "# a" :: "b" :: below) ∧
      ∃ below, lines r.concretes = "# a" :: "b" :: below := by
  have distinct : (brokenHeader.map Prod.fst).Nodup := by decide
  let c : Config := {
    outputDir := .null
    maxArity := .int 1
    interfacesModule := "tuples"
    implementationsModule := "tuples_impl"
    runtimeModule := .str "tuplegen.runtime"
    formatter := .plain
    lineLength := none
    header := .list [.str "a\nb"] }
  have read : ofValue (.dict (Json.named brokenHeader)) = .ok c := rfl
  have built : Family.buildFrom c.maxArity = .ok (Family.built 1) :=
    Family.build_natCast (Nat.le_refl 1) (by decide)
  have known := (header_above_imports distinct read rfl built Code.reformat).1
  obtain ⟨r, ok⟩ := known.rendered.2 ⟨_, rfl⟩
  obtain ⟨contracts, concretes, -, own, own'⟩ := known.above r ok
  have rows : (headerGiven (field brokenHeader .header)).flatMap commentRows = ["# a", "b"] := by
    decide
  obtain ⟨first, more, below, -, -, eq⟩ := own.block
  obtain ⟨first', more', below', -, -, eq'⟩ := own'.block
  rw [rows] at eq eq'
  exact ⟨distinct, c, Family.built 1, r, read, rfl, built, ok, ⟨_, eq⟩, ⟨_, eq'⟩⟩

end Config
end Polyad
