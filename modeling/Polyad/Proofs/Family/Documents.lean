import Mathlib.Data.List.Forall2
import Polyad.Proofs.Family.Drafts
import Polyad.Yaml.Format

/-!
# Families as documents

A family is given back by its document, by the text of that document in JSON, and by its text in
any other format if reading undoes writing there for this document. No two families share a
document or a text.
-/

namespace Polyad

open Json (named sortKeys Tree)

/-! ## Equal documents -/

section Same

variable {fs gs : List (String × Value)}

theorem same_dict_iff : (Value.dict (named fs)).same (.dict (named gs)) = true ↔
    fs.length = gs.length ∧ ∀ f ∈ fs, ∃ g ∈ gs, f.1 = g.1 ∧ f.2.same g.2 = true := by
  have entries : Value.subEntries (named fs) (named gs) = true ↔
      ∀ f ∈ fs, ∃ g ∈ gs, f.1 = g.1 ∧ f.2.same g.2 = true := by
    induction fs with
    | nil => simp [named, Value.subEntries]
    | cons f fs ih =>
      have own : (named gs).any (fun e => (Value.str f.1).same e.1 && f.2.same e.2) = true ↔
          ∃ g ∈ gs, f.1 = g.1 ∧ f.2.same g.2 = true := by
        simp [named, List.any_map]
      rw [List.forall_mem_cons, ← ih, ← own, ← Bool.and_eq_true, named, List.map_cons,
        Value.subEntries]
      rfl
  have whole : (Value.dict (named fs)).same (.dict (named gs)) =
      ((named fs).length == (named gs).length && Value.subEntries (named fs) (named gs)) := by
    simp only [Value.same, Value.content, Value.sameAs]
  rw [whole, Bool.and_eq_true, entries, named, named, List.length_map, List.length_map, beq_iff_eq]

/-- Mappings with the same names in the same order are the same if the values under each name
are. -/
theorem same_named (names : fs.map Prod.fst = gs.map Prod.fst)
    (distinct : (gs.map Prod.fst).Nodup) :
    (Value.dict (named fs)).same (.dict (named gs)) = true ↔
      List.Forall₂ (fun f g => f.2.same g.2 = true) fs gs := by
  have length : fs.length = gs.length := by simpa using congrArg List.length names
  have name {i : Nat} (hf : i < fs.length) (hg : i < gs.length) : fs[i].1 = gs[i].1 := by
    have := List.getElem_of_eq names (i := i) (by simpa using hf)
    simpa using this
  rw [same_dict_iff, List.forall₂_iff_get]
  refine and_congr_right fun _ => ⟨fun each i hf hg => ?_, fun each f mem => ?_⟩
  · obtain ⟨g, mem, same, value⟩ := each fs[i] (List.getElem_mem hf)
    have own : g = gs[i] := List.inj_on_of_nodup_map distinct mem (List.getElem_mem hg)
      (same.symm.trans (name hf hg))
    rw [own] at value
    exact value
  · obtain ⟨i, hf, rfl⟩ := List.getElem_of_mem mem
    have hg : i < gs.length := length ▸ hf
    exact ⟨gs[i], List.getElem_mem hg, name hf hg, each i hf hg⟩

theorem same_list_map {α : Type} {form : α → Value}
    (each : ∀ a b, (form a).same (form b) = true ↔ a = b) (as bs : List α) :
    (Value.list (as.map form)).same (.list (bs.map form)) = true ↔ as = bs := by
  have items : Value.sameList (as.map form) (bs.map form) = true ↔ as = bs := by
    induction as generalizing bs with
    | nil => cases bs <;> simp [Value.sameList]
    | cons a as ih =>
      cases bs with
      | nil => simp [Value.sameList]
      | cons b bs =>
        rw [List.map_cons, List.map_cons, Value.sameList, ← Value.same, Bool.and_eq_true, each, ih,
          List.cons.injEq]
  have whole : (Value.list (as.map form)).same (.list (bs.map form)) =
      Value.sameList (as.map form) (bs.map form) := by
    simp only [Value.same, Value.content, Value.sameAs]
  rw [whole, items]

theorem same_strings (as bs : List String) :
    (Value.list (as.map .str)).same (.list (bs.map .str)) = true ↔ as = bs :=
  same_list_map (by simp) as bs

end Same

theorem Capability.name_inj {c d : Capability} : c.name = d.name ↔ c = d :=
  ⟨fun h => Option.some.inj (by rw [← ofName?_name c, h, ofName?_name]), congrArg name⟩

theorem Extension.name_inj {c d : Extension} : c.name = d.name ↔ c = d :=
  ⟨fun h => Option.some.inj (by rw [← ofName?_name c, h, ofName?_name]), congrArg name⟩

theorem Capabilities.toList_inj {s t : Capabilities} : s.toList = t.toList ↔ s = t :=
  ⟨fun h => by rw [← ofList_toList s, h, ofList_toList], congrArg toList⟩

theorem Draft.same_toValue (m n : Member) :
    (ofMember m).toValue.same (ofMember n).toValue = true ↔ m = n := by
  have capabilities : (Value.list (m.capabilities.toList.map (.str ·.name))).same
      (.list (n.capabilities.toList.map (.str ·.name))) = true ↔
        m.capabilities = n.capabilities := by
    rw [same_list_map (fun c d => by rw [Value.same_str, beq_iff_eq, Capability.name_inj]),
      Capabilities.toList_inj]
  have names : (ofMember m).fields.map Prod.fst = (ofMember n).fields.map Prod.fst := rfl
  rw [toValue_eq, toValue_eq, same_named names (names_nodup _)]
  simp only [fields, ofMember, List.forall₂_cons, List.forall₂_nil_left_iff, Value.same_int,
    Value.same_str, beq_iff_eq, same_strings, capabilities, Extension.name_inj, and_true]
  cases m
  cases n
  simp only [Member.mk.injEq]

namespace Family

theorem ext_iff {f g : Family} : f = g ↔ f.maxArity = g.maxArity ∧ f.members = g.members := by
  cases f
  cases g
  simp only [mk.injEq]

theorem same_toValue (f g : Family) : f.toValue.same g.toValue = true ↔ f = g := by
  have members := same_list_map Draft.same_toValue f.members g.members
  have names : (FamilyDraft.ofFamily f).fields.map Prod.fst =
      (FamilyDraft.ofFamily g).fields.map Prod.fst := rfl
  rw [toValue, toValue, FamilyDraft.toValue_eq, FamilyDraft.toValue_eq,
    same_named names (FamilyDraft.names_nodup _)]
  simp only [FamilyDraft.fields, FamilyDraft.ofFamily, List.forall₂_cons,
    List.forall₂_nil_left_iff, Value.same_int, beq_iff_eq, List.map_map, and_true]
  rw [ext_iff, ← members]
  rfl

theorem toValue_inj {f g : Family} (same : f.toValue = g.toValue) : f = g :=
  Option.some.inj (Except.ok.inj (by rw [← ofValue?_toValue f, same, ofValue?_toValue]))

end Family

/-! ## Texts -/

theorem widestWhole_pos : 0 < Value.widestWhole := by
  have pos (digits : Nat) : 0 < Nat.pow 10 digits := Nat.pow_pos (Nat.succ_pos 9)
  unfold Value.widestWhole
  apply pos

theorem allHaveText_iff {vs : List Value} :
    Value.allHaveText vs = true ↔ ∀ v ∈ vs, v.hasText = true := by
  induction vs with
  | nil => simp [Value.allHaveText]
  | cons v vs ih => rw [List.forall_mem_cons, ← ih, Value.allHaveText, Bool.and_eq_true]

theorem hasText_named {fields : List (String × Value)} :
    (Value.dict (named fields)).hasText = true ↔ ∀ f ∈ fields, f.2.hasText = true := by
  rw [Value.hasText]
  induction fields with
  | nil => simp [named, Value.entriesHaveText]
  | cons f fs ih =>
    rw [List.forall_mem_cons, ← ih, named, List.map_cons, Value.entriesHaveText, ← named,
      Value.hasText_str, Bool.true_and, Bool.and_eq_true]

namespace Json

theorem Tree.hasText {v : Value} (tree : Tree v) : v.hasText = true := by
  induction tree with
  | str s => exact Value.hasText_str s
  | int writable => exact writable
  | list _ ih => rwa [Value.hasText, allHaveText_iff]
  | dict _ _ ih => exact hasText_named.2 ih

/-- A mapping has a text only if all of its values have one. -/
theorem exists_render_of_named {fields : List (String × Value)} {t : String}
    (written : render (.dict (named fields)) = .ok t) :
    ∀ f ∈ fields, ∃ u, render f.2 = .ok u := by
  intro f mem
  rw [render, renderEntries_named, object] at written
  split at written
  · obtain ⟨ls, run, -⟩ := Error.bind_eq_ok_iff.1 written
    obtain ⟨l, own⟩ := Error.exists_of_mapM_eq_ok run (.str f.1, render f.2)
      (List.mem_mergeSort.2 (List.mem_map_of_mem mem))
    obtain ⟨name, -, own⟩ := Error.bind_eq_ok_iff.1 own
    obtain ⟨u, own, -⟩ := Error.bind_eq_ok_iff.1 own
    exact ⟨u, own⟩
  · cases written

end Json

namespace Family

variable (f : Family)

theorem toValue_eq : f.toValue = .dict (named (FamilyDraft.ofFamily f).fields) := rfl

theorem maxArity_nonneg : 0 ≤ f.maxArity := by
  have some := List.length_pos_iff.2 (checkFamily_eq_ok_iff.1 f.consistent).1
  have := length_members f
  omega

theorem hasText_int_iff {n : Int} (nonneg : 0 ≤ n) :
    (Value.int n).hasText = true ↔ n < Value.widestWhole := by
  rw [Value.hasText, decide_eq_true_iff]
  generalize Value.widestWhole = widest
  omega

/-- The document of a family is a tree unless its numbers have too many digits. -/
theorem tree_toValue (narrow : f.maxArity < Value.widestWhole) : Tree f.toValue := by
  have strings (ls : List String) : Tree (.list (ls.map .str)) := by
    refine .list fun v mem => ?_
    obtain ⟨l, -, rfl⟩ := List.mem_map.1 mem
    exact .str l
  have member (m : Member) (mem : m ∈ f.members) : Tree (Draft.ofMember m).toValue := by
    have bounds := arity_bounds mem
    have arity : (Value.int m.arity).hasText = true :=
      (hasText_int_iff bounds.1).2 (Int.lt_of_le_of_lt bounds.2 narrow)
    have capabilities := strings (m.capabilities.toList.map (·.name))
    rw [List.map_map] at capabilities
    rw [Draft.toValue_eq]
    refine .dict (Draft.names_nodup _) ?_
    simp only [Draft.fields, Draft.ofMember, List.forall_mem_cons, List.not_mem_nil,
      false_implies, implies_true, and_true]
    exact ⟨.int arity, .str _, .str _, strings _, strings _, strings _, capabilities, .str _⟩
  rw [toValue_eq]
  refine .dict (FamilyDraft.names_nodup _) ?_
  simp only [FamilyDraft.fields, FamilyDraft.ofFamily, List.forall_mem_cons, List.not_mem_nil,
    false_implies, implies_true, and_true]
  refine ⟨.int ((hasText_int_iff (maxArity_nonneg f)).2 narrow), .list fun v mem => ?_⟩
  rw [List.map_map] at mem
  obtain ⟨m, own, rfl⟩ := List.mem_map.1 mem
  exact member m own

theorem exists_write_toValue_iff (F : DocumentFormat) :
    (∃ s, F.write f.toValue = .ok s) ↔ f.maxArity < Value.widestWhole := by
  rw [F.exists_write_iff]
  refine ⟨fun written => ?_, fun narrow => (tree_toValue f narrow).hasText⟩
  rw [toValue_eq] at written
  have bound := hasText_named.1 written ("max_arity", .int f.maxArity) List.mem_cons_self
  exact (hasText_int_iff (maxArity_nonneg f)).1 bound

theorem exists_render_toValue_iff :
    (∃ s, Json.render f.toValue = .ok s) ↔ f.maxArity < Value.widestWhole := by
  refine ⟨fun ⟨s, written⟩ => ?_, fun narrow => ?_⟩
  · rw [toValue_eq] at written
    obtain ⟨u, bound⟩ := Json.exists_render_of_named written ("max_arity", .int f.maxArity)
      List.mem_cons_self
    rw [Json.render, Json.wholeText] at bound
    split at bound
    · next writable => exact (hasText_int_iff (maxArity_nonneg f)).1 writable
    · cases bound
  · obtain ⟨s, written, -⟩ := Json.read_render (tree_toValue f narrow)
    exact ⟨s, written⟩

theorem ofValue?_read_render {s : String} (written : Json.render f.toValue = .ok s) :
    (Json.read s).bind ofValue? = .ok (some f) := by
  obtain ⟨t, same, read⟩ :=
    Json.read_render (tree_toValue f ((exists_render_toValue_iff f).1 ⟨s, written⟩))
  rw [written] at same
  cases same
  rw [read]
  exact ofValue?_sortKeys f

theorem ofValue?_read_write {F : DocumentFormat} (undone : F.ReadsBack f.toValue) {s : String}
    (written : F.write f.toValue = .ok s) : (F.read (.whole s)).bind ofValue? = .ok (some f) := by
  rw [undone s written]
  exact ofValue?_toValue f

variable {f} {g : Family}

theorem render_toValue_inj (narrow : f.maxArity < Value.widestWhole) :
    Json.render f.toValue = Json.render g.toValue ↔ f = g := by
  refine ⟨fun same => ?_, fun same => by rw [same]⟩
  obtain ⟨s, written⟩ := (exists_render_toValue_iff f).2 narrow
  have own := ofValue?_read_render f written
  rw [ofValue?_read_render g (same ▸ written)] at own
  exact (Option.some.inj (Except.ok.inj own)).symm

theorem write_toValue_inj {F : DocumentFormat} (narrow : f.maxArity < Value.widestWhole)
    (undone : F.ReadsBack f.toValue) (other : F.ReadsBack g.toValue) :
    F.write f.toValue = F.write g.toValue ↔ f = g := by
  refine ⟨fun same => ?_, fun same => by rw [same]⟩
  obtain ⟨s, written⟩ := (exists_write_toValue_iff f F).2 narrow
  have own := undone s written
  rw [other s (same ▸ written)] at own
  exact (toValue_inj (Except.ok.inj own)).symm

end Family

theorem Capabilities.ofList_eq_iff {cs ds : List Capability} :
    ofList cs = ofList ds ↔ ∀ c, c ∈ cs ↔ c ∈ ds := by
  constructor
  · intro same c
    rw [← List.contains_iff_mem, ← has_ofList, same, has_ofList, List.contains_iff_mem]
  · intro same
    refine ext_has fun c => ?_
    rw [has_ofList, has_ofList, Bool.eq_iff_iff, List.contains_iff_mem, List.contains_iff_mem]
    exact same c

/-- A family is given back by its document and by its texts, and no other family has the same
document or text. In a format besides JSON this holds where reading undoes writing for the documents
of the families, which are trees of mappings, lists, strings and whole numbers. There are texts
unless the bound has more than 4300 digits. Capabilities in another order are the same. -/
theorem Family.documents_lossless (F : DocumentFormat) (f : Family) :
    ofValue? f.toValue = .ok (some f) ∧
    (∀ s, Json.render f.toValue = .ok s → (Json.read s).bind ofValue? = .ok (some f)) ∧
    (F.ReadsBack f.toValue →
      ∀ s, F.write f.toValue = .ok s → (F.read (.whole s)).bind ofValue? = .ok (some f)) ∧
    ((∃ s, Json.render f.toValue = .ok s) ↔ f.maxArity < Value.widestWhole) ∧
    ((∃ s, F.write f.toValue = .ok s) ↔ f.maxArity < Value.widestWhole) ∧
    (f.maxArity < Value.widestWhole → Tree f.toValue) ∧
    (∀ g : Family,
      (f.toValue.same g.toValue = true ↔ f = g) ∧
      (f.maxArity < Value.widestWhole →
        (Json.render f.toValue = Json.render g.toValue ↔ f = g) ∧
        (F.ReadsBack f.toValue → F.ReadsBack g.toValue →
          (F.write f.toValue = F.write g.toValue ↔ f = g)))) ∧
    ∀ cs ds, Capabilities.ofList cs = .ofList ds ↔ ∀ c, c ∈ cs ↔ c ∈ ds := by
  refine ⟨ofValue?_toValue f, fun s => ofValue?_read_render f,
    fun undone s => ofValue?_read_write f undone, exists_render_toValue_iff f,
    exists_write_toValue_iff f F, tree_toValue f, fun g => ⟨same_toValue f g, fun narrow => ?_⟩,
    fun cs ds => Capabilities.ofList_eq_iff⟩
  exact ⟨render_toValue_inj narrow, write_toValue_inj narrow⟩

/-! ## A family in YAML -/

namespace Family

/-- A family of one member, with names that YAML would take for a number and for nothing. -/
def nullOnly : Family where
  maxArity := 0
  members := [{
    arity := 0, interfaceName := "0", className := "null"
    capabilities := { listProjection := true, zip := true }
    extension := .overflow }]
  consistent := checkFamily_eq_ok_iff.2 (by simp [Member.isTerminal])

theorem narrow_nullOnly : nullOnly.maxArity < Value.widestWhole :=
  Int.natCast_pos.2 widestWhole_pos

theorem render_nullOnly : Yaml.render nullOnly.toValue =
    "max_arity: 0\nmembers:\n- arity: 0\n  interface_name: '0'\n  class_name: 'null'\n" ++
    "  labels: []\n  type_params: []\n  ordinals: []\n  capabilities:\n  - list_projection\n" ++
    "  - zip\n  extension: overflow\n" := by
  decide +kernel

theorem readsBack_nullOnly : Yaml.format.ReadsBack nullOnly.toValue := by
  intro s written
  have text := (tree_toValue nullOnly narrow_nullOnly).hasText
  rw [Yaml.format_write, Yaml.write, if_pos text, render_nullOnly, Except.ok.injEq] at written
  rw [← written, Yaml.format_read_whole, Yaml.read, TextStream.whole]
  -- The characters are taken from the literals; deciding would decode the bytes one by one.
  rw [String.toList_append, String.toList_append, String.toList_ofList, String.toList_ofList,
    String.toList_ofList]
  refine Json.eq_ok_of_agree ?_
  decide +kernel

/-- In YAML reading undoes writing for this family, so that it is given back by its text. -/
theorem nullOnly_read_write : Yaml.format.ReadsBack nullOnly.toValue ∧
    ∃ s, Yaml.write nullOnly.toValue = .ok s ∧
      (Yaml.read s).bind ofValue? = .ok (some nullOnly) := by
  obtain ⟨-, -, back, -, writable, -⟩ := documents_lossless Yaml.format nullOnly
  obtain ⟨s, written⟩ := writable.2 narrow_nullOnly
  have read := back readsBack_nullOnly s written
  rw [Yaml.format_read_whole] at read
  rw [Yaml.format_write] at written
  exact ⟨readsBack_nullOnly, s, written, read⟩

end Family
end Polyad
