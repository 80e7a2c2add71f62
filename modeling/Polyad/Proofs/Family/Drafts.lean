import Mathlib.Data.List.Nodup
import Polyad.Draft
import Polyad.Proofs.Family.Members
import Polyad.Proofs.Json.Trees

/-!
# Reading families

A family is given back by its document, also with the entries of each mapping in the order of their
names: fields are looked up by name, and what they give is checked again as a family, which a family
passes.
-/

namespace Polyad

open Json (named sortKeys inOrder Tree)

/-! ## Fields by name -/

section Fields

variable {fields : List (String × Value)}

theorem lookup_named (name : String) (fields : List (String × Value)) :
    Value.lookup (.str name) (named fields) = fields.lookup name := by
  induction fields with
  | nil => rfl
  | cons f fs ih =>
    change (if (Value.str name).same (.str f.1) then some f.2 else
      Value.lookup (.str name) (named fs)) = _
    rw [Value.same_str, ih, List.lookup_cons]
    cases name == f.1 <;> rfl

theorem lookup_of_mem (distinct : (fields.map Prod.fst).Nodup) {f : String × Value}
    (mem : f ∈ fields) : fields.lookup f.1 = some f.2 := by
  induction fields with
  | nil => cases mem
  | cons g gs ih =>
    rw [List.map_cons, List.nodup_cons] at distinct
    rw [List.lookup_cons]
    rcases List.mem_cons.1 mem with rfl | later
    · rw [beq_self_eq_true]
    · have other : (f.1 == g.1) = false :=
        beq_false_of_ne fun same => distinct.1 (same ▸ List.mem_map_of_mem later)
      rw [other]
      exact ih distinct.2 later

/-- The fields of a mapping in order, each of them in order. -/
def sorted (fields : List (String × Value)) : List (String × Value) :=
  (inOrder fields).map fun f => (f.1, sortKeys f.2)

theorem lookup_sorted (distinct : (fields.map Prod.fst).Nodup) {f : String × Value}
    (mem : f ∈ fields) : (sorted fields).lookup f.1 = some (sortKeys f.2) := by
  have perm : (inOrder fields).Perm fields := List.mergeSort_perm fields _
  have names : (sorted fields).map Prod.fst = (inOrder fields).map Prod.fst := by
    rw [sorted, List.map_map]
    rfl
  refine lookup_of_mem (f := (f.1, sortKeys f.2)) ?_ (List.mem_map.2 ⟨f, perm.mem_iff.2 mem, rfl⟩)
  rw [names]
  exact (perm.map Prod.fst).nodup_iff.2 distinct

variable {name : String}

theorem required_eq {v : Value} (found : fields.lookup name = some v) :
    required (named fields) name = .ok v := by
  rw [required, lookup_named, found]

theorem itemsUnder_eq {vs : List Value} (found : fields.lookup name = some (.list vs)) :
    itemsUnder (named fields) name = .ok vs := by
  rw [itemsUnder, lookup_named, found]
  rfl

end Fields

/-! ## Members -/

namespace Draft

variable {d : Draft}

def fields (d : Draft) : List (String × Value) := [
  ("arity", d.arity),
  ("interface_name", d.interfaceName),
  ("class_name", d.className),
  ("labels", .list d.labels),
  ("type_params", .list d.typeParams),
  ("ordinals", .list d.ordinals),
  ("capabilities", .list (d.capabilities.toList.map (.str ·.name))),
  ("extension", .str d.extension.name)]

theorem toValue_eq (d : Draft) : d.toValue = .dict (named d.fields) := rfl

theorem names_nodup (d : Draft) : (d.fields.map Prod.fst).Nodup := by
  simp only [fields, List.map_cons, List.map_nil]
  decide

theorem mapM_capabilityOf (cs : List Capability) :
    (cs.map fun c => Value.str c.name).mapM capabilityOf = .ok cs := by
  rw [List.mapM_map]
  have known : ∀ c ∈ cs, capabilityOf (.str c.name) = .ok (id c) := by
    intro c _
    rw [capabilityOf, Capability.ofName?_name]
    rfl
  exact (Error.mapM_eq_ok known).trans (by rw [List.map_id])

theorem extensionOf_name (e : Extension) : extensionOf (.str e.name) = .ok e := by
  rw [extensionOf, Extension.ofName?_name]

/-- A draft is read from any mapping that has its fields. -/
theorem ofValue_eq {found : List (String × Value)}
    (has : ∀ f ∈ d.fields, found.lookup f.1 = some f.2) :
    ofValue (.dict (named found)) = .ok d := by
  simp only [fields, List.forall_mem_cons, List.not_mem_nil, false_implies, implies_true,
    and_true] at has
  obtain ⟨arity, interfaceName, className, labels, typeParams, ordinals, capabilities,
    extension⟩ := has
  have entries : entriesOf (.dict (named found)) = .ok (named found) := rfl
  simp only [ofValue, entries, required_eq arity, required_eq interfaceName,
    required_eq className, itemsUnder_eq labels, itemsUnder_eq typeParams, itemsUnder_eq ordinals,
    itemsUnder_eq capabilities, mapM_capabilityOf, lookup_named, extension, Option.getD_some,
    extensionOf_name, Capabilities.ofList_toList, bind, Except.bind, pure, Except.pure]

theorem ofValue_toValue (d : Draft) : ofValue d.toValue = .ok d :=
  ofValue_eq fun _ mem => lookup_of_mem d.names_nodup mem

/-- The fields of a typed member hold no mappings. -/
theorem sortKeys_fields (m : Member) : ∀ f ∈ (ofMember m).fields, sortKeys f.2 = f.2 := by
  have strings (ls : List String) : sortKeys (.list (ls.map .str)) = .list (ls.map .str) := by
    rw [sortKeys, Json.sortItems_eq, List.map_map]
    rfl
  have capabilities := strings (m.capabilities.toList.map (·.name))
  rw [List.map_map] at capabilities
  simp only [fields, ofMember, List.forall_mem_cons, List.not_mem_nil, false_implies,
    implies_true, and_true, strings, true_and]
  exact ⟨rfl, rfl, rfl, capabilities, rfl⟩

theorem ofValue_sortKeys (m : Member) :
    ofValue (sortKeys (ofMember m).toValue) = .ok (ofMember m) := by
  rw [toValue_eq, Json.sortKeys_dict]
  refine ofValue_eq fun f mem => ?_
  rw [← sorted, lookup_sorted (names_nodup _) mem, sortKeys_fields m f mem]

theorem strings?_str (ls : List String) : strings? (ls.map .str) = some ls := by
  rw [strings?, List.mapM_map]
  induction ls with
  | nil => rfl
  | cons l ls ih =>
    rw [List.mapM_cons, ih]
    rfl

theorem toMember?_ofMember (m : Member) : (ofMember m).toMember? = some m := by
  simp only [toMember?, ofMember, strings?_str]
  rfl

end Draft

/-! ## Families -/

namespace FamilyDraft

def fields (d : FamilyDraft) : List (String × Value) := [
  ("max_arity", d.maxArity),
  ("members", .list (d.members.map Draft.toValue))]

theorem toValue_eq (d : FamilyDraft) : d.toValue = .dict (named d.fields) := rfl

theorem names_nodup (d : FamilyDraft) : (d.fields.map Prod.fst).Nodup := by
  simp only [fields, List.map_cons, List.map_nil]
  decide

theorem ofDrafts_eq (d : FamilyDraft) : ofDrafts d.maxArity d.members = .ok d := by
  unfold ofDrafts
  split
  · rfl
  · next failed =>
    rw [d.consistent] at failed
    cases failed

/-- A family is read from any mapping that has its bound and the documents of its members. -/
theorem ofValue_eq {d : FamilyDraft} {found : List (String × Value)} {form : Draft → Value}
    (bound : found.lookup "max_arity" = some d.maxArity)
    (members : found.lookup "members" = some (.list (d.members.map form)))
    (each : ∀ m ∈ d.members, Draft.ofValue (form m) = .ok m) :
    ofValue (.dict (named found)) = .ok d := by
  have entries : entriesOf (.dict (named found)) = .ok (named found) := rfl
  have drafts : (d.members.map form).mapM Draft.ofValue = .ok d.members := by
    rw [List.mapM_map]
    exact (Error.mapM_eq_ok (g := id) each).trans (by rw [List.map_id])
  simp only [ofValue, entries, required_eq bound, itemsUnder_eq members, drafts, bind, Except.bind]
  exact ofDrafts_eq d

theorem ofValue_toValue (d : FamilyDraft) : ofValue d.toValue = .ok d :=
  ofValue_eq (lookup_of_mem d.names_nodup (f := ("max_arity", _)) (by simp [fields]))
    (lookup_of_mem d.names_nodup (f := ("members", _)) (by simp [fields]))
    fun m _ => Draft.ofValue_toValue m

theorem ofValue_sortKeys (f : Family) :
    ofValue (sortKeys (ofFamily f).toValue) = .ok (ofFamily f) := by
  rw [toValue_eq, Json.sortKeys_dict, ← sorted]
  have bound := lookup_sorted (names_nodup (ofFamily f))
    (f := ("max_arity", (ofFamily f).maxArity)) (by simp [fields])
  have members := lookup_sorted (names_nodup (ofFamily f))
    (f := ("members", .list ((ofFamily f).members.map Draft.toValue))) (by simp [fields])
  rw [sortKeys, Json.sortItems_eq, List.map_map] at members
  refine ofValue_eq bound members fun d mem => ?_
  obtain ⟨m, -, rfl⟩ := List.mem_map.1 mem
  exact Draft.ofValue_sortKeys m

theorem toFamily?_ofFamily (f : Family) : (ofFamily f).toFamily? = some f := by
  have typed : (f.members.map Draft.ofMember).mapM Draft.toMember? = some f.members := by
    rw [List.mapM_map]
    induction f.members with
    | nil => rfl
    | cons m ms ih =>
      rw [List.mapM_cons, ih, Function.comp_apply, Draft.toMember?_ofMember]
      rfl
  simp only [toFamily?, ofFamily, typed, Family.ofMembers_eq_ok f.consistent]
  rfl

end FamilyDraft

namespace Family

theorem ofValue?_eq {f : Family} {v : Value}
    (read : FamilyDraft.ofValue v = .ok (.ofFamily f)) : ofValue? v = .ok (some f) := by
  rw [ofValue?, read]
  exact congrArg Except.ok (FamilyDraft.toFamily?_ofFamily f)

theorem ofValue?_toValue (f : Family) : ofValue? f.toValue = .ok (some f) :=
  ofValue?_eq (FamilyDraft.ofValue_toValue _)

theorem ofValue?_sortKeys (f : Family) : ofValue? (sortKeys f.toValue) = .ok (some f) :=
  ofValue?_eq (FamilyDraft.ofValue_sortKeys f)

end Family

end Polyad
