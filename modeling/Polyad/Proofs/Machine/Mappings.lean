import Mathlib.Data.List.Induction
import Polyad.Proofs.Machine.Keys

/-!
# Mappings

Entries put one after another under keys that can be told apart by an equivalence. A key stays where
and as it was first put, with the value that was put last. So the keys are the first of those that
are the same, in order, and each has the last value under a key of the same kind.
-/

namespace Polyad.Machine

/-! ## Putting entries -/

section

variable {α β : Type} (same : α → α → Bool)

/-- An entry put under a key: the first key and the last value stay. -/
def insertEntry (key : α) (value : β) : List (α × β) → List (α × β)
  | [] => [(key, value)]
  | (k, v) :: rest =>
    if same k key then (k, value) :: rest else (k, v) :: insertEntry key value rest

/-- Entries put one after another. -/
def insertEntries (pairs : List (α × β)) : List (α × β) :=
  pairs.foldl (fun done e => insertEntry same e.1 e.2 done) []

/-- The first of those that are the same, in order. -/
def firstKeys : List α → List α
  | [] => []
  | k :: ks => k :: (firstKeys ks).filter (!same k ·)

/-- What was put last under a key that is the same. -/
def lastValue? (key : α) (pairs : List (α × β)) : Option β :=
  (pairs.reverse.find? (same key ·.1)).map Prod.snd

/-- An equivalence between the keys of a kind. -/
structure TellsApart (same : α → α → Bool) (IsKey : α → Prop) : Prop where
  refl : ∀ {a}, IsKey a → same a a = true
  symm : ∀ {a b}, IsKey a → IsKey b → same a b = true → same b a = true
  trans : ∀ {a b c}, IsKey a → IsKey b → IsKey c → same a b = true → same b c = true →
    same a c = true

variable {same} {IsKey : α → Prop} {keys : List α} {pairs es : List (α × β)} {key k : α} {v : β}

theorem firstKeys_sublist (keys : List α) : (firstKeys same keys).Sublist keys := by
  induction keys with
  | nil => exact .slnil
  | cons k ks ih => exact (List.filter_sublist.trans ih).cons_cons k

theorem pairwise_firstKeys (keys : List α) :
    (firstKeys same keys).Pairwise fun a b => same a b = false := by
  induction keys with
  | nil => exact .nil
  | cons k ks ih =>
    refine List.pairwise_cons.2 ⟨fun a mem => ?_, ih.filter _⟩
    simpa using (List.mem_filter.1 mem).2

theorem isKey_of_firstKeys (own : ∀ e ∈ pairs, IsKey e.1)
    (keys : es.map Prod.fst = firstKeys same (pairs.map Prod.fst)) : ∀ e ∈ es, IsKey e.1 := by
  intro e mem
  have there := (firstKeys_sublist _).subset (keys ▸ List.mem_map_of_mem (f := Prod.fst) mem)
  obtain ⟨e', mem', eq⟩ := List.mem_map.1 there
  exact eq ▸ own e' mem'

theorem insertEntries_concat (pairs : List (α × β)) (e : α × β) :
    insertEntries same (pairs ++ [e]) = insertEntry same e.1 e.2 (insertEntries same pairs) :=
  List.foldl_concat ..

theorem lastValue?_concat (key : α) (pairs : List (α × β)) (e : α × β) :
    lastValue? same key (pairs ++ [e]) =
      if same key e.1 then some e.2 else lastValue? same key pairs := by
  rw [lastValue?, List.reverse_concat, List.find?_cons]
  cases same key e.1 <;> rfl

theorem key_of_mem_insertEntry {e : α × β} (mem : e ∈ insertEntry same key v es) :
    e.1 = key ∨ ∃ e' ∈ es, e'.1 = e.1 := by
  induction es with
  | nil => exact .inl (congrArg Prod.fst (List.mem_singleton.1 mem))
  | cons e' es ih =>
    rw [insertEntry] at mem
    split at mem
    · rcases List.mem_cons.1 mem with rfl | mem
      · exact .inr ⟨e', List.mem_cons_self, rfl⟩
      · exact .inr ⟨e, List.mem_cons_of_mem _ mem, rfl⟩
    · rcases List.mem_cons.1 mem with rfl | mem
      · exact .inr ⟨_, List.mem_cons_self, rfl⟩
      · exact (ih mem).imp_right fun ⟨e'', there, eq⟩ => ⟨e'', List.mem_cons_of_mem _ there, eq⟩

namespace TellsApart

variable (t : TellsApart same IsKey)

include t

theorem same_congr {a b c : α} (ha : IsKey a) (hb : IsKey b) (hc : IsKey c)
    (ab : same a b = true) : same a c = same b c := by
  rw [Bool.eq_iff_iff]
  exact ⟨t.trans hb ha hc (t.symm ha hb ab), t.trans ha hb hc ab⟩

/-- One more key is one of the first ones if none of those is the same. -/
theorem firstKeys_concat (own : ∀ a ∈ keys, IsKey a) (hk : IsKey k) :
    firstKeys same (keys ++ [k]) =
      if (firstKeys same keys).any (same · k) then firstKeys same keys
      else firstKeys same keys ++ [k] := by
  induction keys with
  | nil => rfl
  | cons a ks ih =>
    obtain ⟨ha, own⟩ := List.forall_mem_cons.1 own
    rw [List.cons_append, firstKeys, firstKeys, ih own, List.any_cons]
    cases first : same a k with
    | true =>
      rw [Bool.true_or, if_pos rfl]
      split
      · rfl
      · simp [first]
    | false =>
      -- What the first key leaves out is not the same as the new one either.
      have kept : ((firstKeys same ks).filter (!same a ·)).any (same · k) =
          (firstKeys same ks).any (same · k) := by
        rw [List.any_filter, Bool.eq_iff_iff, List.any_eq_true, List.any_eq_true]
        refine exists_congr fun b => and_congr_right fun mem => ?_
        have hb := own b ((firstKeys_sublist ks).subset mem)
        rw [Bool.and_eq_true, Bool.not_eq_true']
        refine and_iff_right_of_imp fun bk => Bool.eq_false_iff.2 fun ab => ?_
        rw [t.same_congr ha hb hk ab, bk] at first
        cases first
      rw [Bool.false_or, kept]
      split
      · rfl
      · rw [List.filter_append, List.filter_cons_of_pos (by simp [first]), List.filter_nil,
          List.cons_append]

/-- Under keys that differ from one another an entry changes at most one, or comes to the others. -/
theorem insertEntry_eq (own : ∀ e ∈ es, IsKey e.1) (hk : IsKey k)
    (apart : (es.map Prod.fst).Pairwise fun a b => same a b = false) :
    insertEntry same k v es =
      es.map (fun e => if same e.1 k then (e.1, v) else e) ++
        if es.any (same ·.1 k) then [] else [(k, v)] := by
  induction es with
  | nil => rfl
  | cons e es ih =>
    obtain ⟨a, w⟩ := e
    obtain ⟨ha, own⟩ := List.forall_mem_cons.1 own
    obtain ⟨differs, apart⟩ := List.pairwise_cons.1 apart
    rw [insertEntry, List.map_cons, List.any_cons]
    cases found : same a k with
    | true =>
      have others : es.map (fun e => if same e.1 k then (e.1, v) else e) = es := by
        refine (List.map_congr_left fun e mem => ?_).trans (List.map_id es)
        have he := own e mem
        have ne := differs e.1 (List.mem_map_of_mem mem)
        rw [t.same_congr ha hk he found] at ne
        exact if_neg fun ek => by rw [t.symm he hk ek] at ne; cases ne
      simp [others]
    | false => simp only [ih own apart, Bool.false_or, Bool.false_eq_true, if_false, List.cons_append]

/-- The keys are the first of those that are the same. -/
theorem keys_insertEntries (own : ∀ e ∈ pairs, IsKey e.1) :
    (insertEntries same pairs).map Prod.fst = firstKeys same (pairs.map Prod.fst) := by
  induction pairs using List.reverseRecOn with
  | nil => rfl
  | append_singleton pairs e ih =>
    obtain ⟨own, last⟩ := List.forall_mem_append.1 own
    have keys := ih own
    have he := last e List.mem_cons_self
    have unchanged : (Prod.fst ∘ fun e' : α × β => if same e'.1 e.1 then (e'.1, e.2) else e') =
        Prod.fst := by
      funext e'
      dsimp only [Function.comp]
      split <;> rfl
    rw [insertEntries_concat, t.insertEntry_eq (isKey_of_firstKeys own keys) he
      (keys ▸ pairwise_firstKeys _), List.map_append, List.map_map, List.map_append,
      List.map_singleton, t.firstKeys_concat (by simpa using own) he, ← keys, List.any_map,
      unchanged]
    dsimp only [Function.comp_def]
    split
    · exact List.append_nil _
    · rfl

/-- Each key has the last value under a key that is the same. -/
theorem lastValue?_of_mem (own : ∀ e ∈ pairs, IsKey e.1) {e : α × β}
    (mem : e ∈ insertEntries same pairs) : lastValue? same e.1 pairs = some e.2 := by
  induction pairs using List.reverseRecOn generalizing e with
  | nil => cases mem
  | append_singleton pairs last ih =>
    obtain ⟨own, hlast⟩ := List.forall_mem_append.1 own
    have keys := t.keys_insertEntries own
    have hl := hlast last List.mem_cons_self
    rw [insertEntries_concat, t.insertEntry_eq (isKey_of_firstKeys own keys) hl
      (keys ▸ pairwise_firstKeys _), List.mem_append] at mem
    rw [lastValue?_concat]
    rcases mem with changed | new
    · obtain ⟨e', there, rfl⟩ := List.mem_map.1 changed
      cases found : same e'.1 last.1 with
      | true => simp [found]
      | false => simpa [found] using ih own there
    · split at new
      · cases new
      · cases List.mem_singleton.1 new
        rw [if_pos (t.refl hl)]

end TellsApart

end

/-! ## Running -/

open Code Generated

/-- Some keys, and a test that tells which of them are the same. -/
structure Decides (p : Program) (f : Family) (h : Heap) (keys : List Datum)
    (same : Datum → Datum → Bool) : Prop where
  own : ∀ x ∈ keys, IsKey f h x
  iff : ∀ x ∈ keys, ∀ y ∈ keys, same x y = true ↔ Same p h x y

/-- A mapping that was made of some entries: they were put one after another, its keys are the first
of those that are the same, and each has the last value under a key that is the same. -/
structure IsMapping (same : Datum → Datum → Bool) (pairs es : List (Datum × Datum)) : Prop where
  entries : es = insertEntries same pairs
  keys : es.map Prod.fst = firstKeys same (pairs.map Prod.fst)
  values : ∀ e ∈ es, lastValue? same e.1 pairs = some e.2

/-- Putting one more entry, under a key that must have a hash. -/
def putNext (cx : Context) (done : List (Datum × Datum)) (e : Datum × Datum) :
    Exec (List (Datum × Datum)) := do
  let _ ← cx.digest e.1
  cx.putEntry e.1 e.2 done

theorem putEntries_eq (cx : Context) (pairs : List (Datum × Datum)) :
    cx.putEntries pairs = pairs.foldlM (putNext cx) [] := rfl

namespace Program.Hosts

variable {p : Program} {f : Family} {h : Heap} {same : Datum → Datum → Bool} {keys : List Datum}
variable {pairs done : List (Datum × Datum)} {e : Datum × Datum}

variable (o : p.Hosts f)

include o

/-- To be the same is an equivalence between keys. -/
theorem tellsApart (decides : Decides p f h keys same) : TellsApart same (· ∈ keys) where
  refl ha := (decides.iff _ ha _ ha).2 (.refl _)
  symm ha hb ab := (decides.iff _ hb _ ha).2
    (o.same_symm (decides.own _ ha) (decides.own _ hb) ((decides.iff _ ha _ hb).1 ab))
  trans ha hb hc ab bc := (decides.iff _ ha _ hc).2
    (o.same_trans (decides.own _ ha) (decides.own _ hb) (decides.own _ hc)
      ((decides.iff _ ha _ hb).1 ab) ((decides.iff _ hb _ hc).1 bc))

theorem isMapping (decides : Decides p f h (pairs.map Prod.fst) same) :
    IsMapping same pairs (insertEntries same pairs) := by
  have t := o.tellsApart decides
  have own : ∀ e ∈ pairs, e.1 ∈ pairs.map Prod.fst := fun e mem => List.mem_map_of_mem mem
  exact ⟨rfl, t.keys_insertEntries own, fun e => t.lastValue?_of_mem own⟩

/-- Putting an entry compares its key with those that are there, one by one. -/
theorem yields_putEntry (decides : Decides p f h keys same) (he : e.1 ∈ keys)
    (own : ∀ e ∈ done, e.1 ∈ keys) :
    Yields p h (fun cx => cx.putEntry e.1 e.2 done) (.ok (insertEntry same e.1 e.2 done)) := by
  induction done with
  | nil =>
    simp only [Context.putEntry]
    exact .pure _
  | cons e' done ih =>
    obtain ⟨k, v⟩ := e'
    obtain ⟨hk, own⟩ := List.forall_mem_cons.1 own
    have iff := decides.iff k hk e.1 he
    simp only [Context.putEntry, insertEntry]
    cases found : same k e.1 with
    | true =>
      refine Yields.bind (yields_same_true (iff.1 found)) ?_
      exact .pure _
    | false =>
      have ne : ¬Same p h k e.1 := fun same' => by
        rw [iff.2 same'] at found
        cases found
      have compared := o.compared_keys (decides.own k hk) (decides.own e.1 he)
      refine Yields.bind (yields_same_false compared ne) ?_
      exact (ih own).bind (.pure _)

/-- Entries with hashes are put one after another. -/
theorem yields_foldlM_putNext (decides : Decides p f h keys same)
    (hashes : ∀ e ∈ pairs, e.1 ∈ keys ∧ ∃ d, HashesTo p h e.1 d) (own : ∀ e ∈ done, e.1 ∈ keys) :
    Yields p h (fun cx => pairs.foldlM (putNext cx) done)
      (.ok (pairs.foldl (fun done e => insertEntry same e.1 e.2 done) done)) := by
  induction pairs generalizing done with
  | nil => exact .pure done
  | cons e pairs ih =>
    obtain ⟨⟨he, d, hash⟩, hashes⟩ := List.forall_mem_cons.1 hashes
    have own' : ∀ e' ∈ insertEntry same e.1 e.2 done, e'.1 ∈ keys := by
      intro e' mem
      rcases key_of_mem_insertEntry mem with eq | ⟨e'', there, eq⟩
      · exact eq ▸ he
      · exact eq ▸ own e'' there
    simp only [List.foldlM_cons, List.foldl_cons, putNext]
    exact Yields.bind (hash.bind (o.yields_putEntry decides he own)) (ih hashes own')

/-- The first entry without a hash stops it all. -/
theorem yields_foldlM_putNext_error
    (each : ∀ e ∈ pairs, (IsKey f h e.1 ∧ ∃ d, HashesTo p h e.1 d) ∨ Refuses p h e.1)
    (fails : ∃ e ∈ pairs, Refuses p h e.1) (own : ∀ e ∈ done, IsKey f h e.1) :
    Yields p h (fun cx => pairs.foldlM (putNext cx) done) (.error .wrongType) := by
  classical
  induction pairs generalizing done with
  | nil => simp at fails
  | cons e pairs ih =>
    obtain ⟨head, each⟩ := List.forall_mem_cons.1 each
    simp only [List.foldlM_cons, putNext]
    rcases head with ⟨he, d, hash⟩ | refuses
    · have later : ∃ e ∈ pairs, Refuses p h e.1 := by
        rcases (List.exists_mem_cons_iff ..).1 fails with refuses | later
        · exact absurd refuses.unhashable hash.not_unhashable
        · exact later
      have decides : Decides p f h (e.1 :: done.map Prod.fst) fun x y => decide (Same p h x y) :=
        ⟨by simpa using ⟨he, by simpa using own⟩, fun _ _ _ _ => decide_eq_true_iff⟩
      have there : ∀ e' ∈ done, e'.1 ∈ e.1 :: done.map Prod.fst := fun e' mem =>
        List.mem_cons_of_mem _ (List.mem_map_of_mem mem)
      have put := o.yields_putEntry decides List.mem_cons_self there
      refine Yields.bind (hash.bind put) (ih each later fun e' mem => ?_)
      rcases key_of_mem_insertEntry mem with eq | ⟨e'', there, eq⟩
      · exact eq ▸ he
      · exact eq ▸ own e'' there
    · exact Yields.bind_error _ (refuses.bind_error _)

/-- Entries make a mapping, unless one of their keys has no hash. -/
theorem yields_putEntries (data : ∀ e ∈ pairs, IsData f h e.1) :
    ((∃ e ∈ pairs, Unhashable p h e.1) ∧
      Yields p h (fun cx => cx.putEntries pairs) (.error .wrongType)) ∨
    ((∀ e ∈ pairs, IsKey f h e.1 ∧ ¬Unhashable p h e.1) ∧
      ∀ same, Decides p f h (pairs.map Prod.fst) same →
        Yields p h (fun cx => cx.putEntries pairs) (.ok (insertEntries same pairs))) := by
  simp only [putEntries_eq]
  have each := fun e mem => o.hash_data (data e mem)
  by_cases fails : ∃ e ∈ pairs, Refuses p h e.1
  · obtain ⟨e, mem, refuses⟩ := fails
    refine .inl ⟨⟨e, mem, refuses.unhashable⟩, ?_⟩
    exact o.yields_foldlM_putNext_error each ⟨e, mem, refuses⟩ (by simp)
  · have hashes := fun e mem => (each e mem).resolve_right fun refuses => fails ⟨e, mem, refuses⟩
    refine .inr ⟨fun e mem => ⟨(hashes e mem).1, ?_⟩, fun same decides => ?_⟩
    · obtain ⟨-, d, hash⟩ := hashes e mem
      exact hash.not_unhashable
    · exact o.yields_foldlM_putNext decides
        (fun e mem => ⟨List.mem_map_of_mem mem, (hashes e mem).2⟩) (by simp)

end Program.Hosts

end Polyad.Machine
