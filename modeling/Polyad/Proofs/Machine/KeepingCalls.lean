import Polyad.Proofs.Machine.Keeping

/-!
# Calls that keep the heap

Running bodies and calling what can be called, as long as all code is harmless. What supporting
classes do themselves keeps the heap too, but for the two methods that write slots and the one that
finds code under any name.
-/

namespace Polyad.Machine

open Code Exec

/-! ## Items -/

section

variable {i x : Datum} {items : List Datum}

theorem keeps_sliceBound (v : Datum) : (sliceBound v).Keeps fun _ => True := by
  unfold sliceBound
  repeat' split
  all_goals first | exact keeps_pure trivial | exact keeps_throw

theorem keeps_slicePlaces (size : Nat) (start stop step : Datum) :
    (slicePlaces size start stop step).Keeps fun _ => True := by
  unfold slicePlaces
  refine (keeps_sliceBound step).bind fun by' _ => ?_
  dsimp only
  split
  · exact keeps_throw_bind
  · exact (keeps_sliceBound start).bind fun _ _ =>
      (keeps_sliceBound stop).bind fun _ _ => keeps_pure trivial

theorem harmless_of_itemAt? {v : Datum} {n : Int} (each : AllHarmless items)
    (found : itemAt? items n = some v) : v.Harmless := by
  unfold itemAt? at found
  extract_lets position at found
  split at found
  · cases found
  · exact each v (List.mem_of_getElem? found)

theorem keeps_sequenceItem (kind : String) {make : Bool → List Datum → Exec Datum}
    (each : AllHarmless items)
    (made : ∀ whole taken, AllHarmless taken → (make whole taken).Keeps Datum.Harmless) :
    (sequenceItem kind make items i).Keeps Datum.Harmless := by
  unfold sequenceItem
  split
  · refine (keeps_slicePlaces _ _ _ _).bind fun places _ => made _ _ fun v mem => ?_
    obtain ⟨place, -, found⟩ := List.mem_filterMap.1 mem
    exact each v (List.mem_of_getElem? found)
  · split
    · exact keeps_throw
    · dsimp only
      split
      · exact keeps_throw_bind
      · split
        · next found => exact keeps_pure (harmless_of_itemAt? each found)
        · exact keeps_throw

end

namespace Context.Keeps

variable {cx : Context} (k : cx.Keeps) {x y i f : Datum} {args vs : List Datum}
variable {name : String}

include k

theorem item (hx : x.Harmless) (hi : i.Harmless) : (cx.item x i).Keeps Datum.Harmless := by
  unfold Context.item
  split
  · refine keeps_sequenceItem _ (Datum.harmless_tuple.1 hx) fun whole taken each => ?_
    exact keeps_ite (keeps_pure hx) (keeps_tuple each)
  · exact keeps_sequenceItem _ (Datum.harmless_list.1 hx) fun _ _ each => keeps_list each
  · refine keeps_sequenceItem _ (fun v mem => ?_) fun _ _ _ => keeps_pure (harmless_text _)
    obtain ⟨c, -, rfl⟩ := List.mem_map.1 mem
    exact harmless_text _
  · refine (k.lookupEntry hi (Datum.harmless_dict.1 hx)).bind fun found harmless => ?_
    split
    · exact keeps_pure (harmless _ rfl)
    · exact (k.shown i).bind fun _ _ => keeps_throw
  · exact k.send _ (by decide) (by simp [hi])
  · exact keeps_throw

/-! ## Attributes -/

/-- What is found under any name is harmless, unless that of a setter is asked for. -/
theorem getAttribute (x : Datum) (field : String) :
    (cx.getAttribute x field).Keeps fun v => field ∉ setterNames → v.Harmless := by
  unfold Context.getAttribute
  split
  · next id =>
    refine (keeps_className id).bind fun c _ => ?_
    split
    · next a found =>
      cases a with
      | slot name => exact (keeps_getSlot id name).imp fun v harmless _ => harmless
      | property r =>
        have ran := k.run r [.object id] (k.program.properties _ _ _ found)
          (by simp [harmless_object])
        exact ran.imp fun v harmless _ => harmless
      | method r =>
        refine keeps_pure fun plain => Datum.harmless_method.2 ⟨?_, harmless_object id⟩
        exact k.program.attributes _ _ _ plain found
      | value v => exact keeps_pure fun plain => k.program.attributes _ _ _ plain found
    · exact keeps_throw
  · unfold typeAttribute
    refine keeps_ite (keeps_pure fun _ => harmless_text _) ?_
    split
    · next found =>
      exact keeps_pure fun plain =>
        Datum.harmless_routine.2 (k.program.attributes _ _ _ plain found)
    · next found => exact keeps_pure fun plain => k.program.attributes _ _ _ plain found
    · exact keeps_throw
  · exact keeps_ite (keeps_pure fun _ => Datum.harmless_of_plain rfl) keeps_throw
  · exact keeps_throw

/-! ## Operators -/

omit k in
theorem floatOf (v : Datum) : (floatOf v).Keeps fun _ => True := by
  unfold Context.floatOf
  split
  · exact keeps_pure trivial
  · split
    · unfold floatOfInt
      dsimp only
      split
      · exact keeps_throw
      · exact keeps_pure trivial
    · exact keeps_throw

theorem add (hx : x.Harmless) (hy : y.Harmless) : (cx.add x y).Keeps Datum.Harmless := by
  unfold Context.add
  split
  · refine (k.special? _ (by decide)).bind fun found harmless => ?_
    split
    · exact k.run _ _ (harmless _ rfl) (by simp [hx, hy])
    · exact keeps_throw
  · exact keeps_pure (harmless_text _)
  · have hx := Datum.harmless_list.1 hx
    have hy := Datum.harmless_list.1 hy
    exact keeps_list (allHarmless_append.2 ⟨hx, hy⟩)
  · refine keeps_ite (keeps_pure hy) (keeps_ite (keeps_pure hx) (keeps_tuple ?_))
    exact allHarmless_append.2 ⟨Datum.harmless_tuple.1 hx, Datum.harmless_tuple.1 hy⟩
  · split
    · exact keeps_pure (Datum.harmless_of_plain rfl)
    · split
      · exact keeps_throw
      · exact (floatOf x).bind fun _ _ => (floatOf y).bind fun _ _ => keeps_float _

omit k

mutual

theorem less (k : cx.Keeps) {x y : Datum} (hx : x.Harmless) (hy : y.Harmless) :
    (cx.less x y).Keeps fun _ => True := by
  unfold Context.less
  split
  · exact keeps_pure trivial
  · exact lessItems k _ _ (Datum.harmless_list.1 hx) (Datum.harmless_list.1 hy)
  · exact lessItems k _ _ (Datum.harmless_tuple.1 hx) (Datum.harmless_tuple.1 hy)
  · split
    · exact keeps_pure trivial
    · exact keeps_throw

theorem lessItems (k : cx.Keeps) (xs ys : List Datum) (hx : AllHarmless xs)
    (hy : AllHarmless ys) : (cx.lessItems xs ys).Keeps fun _ => True := by
  unfold Context.lessItems
  split
  · exact keeps_pure trivial
  · exact keeps_pure trivial
  · obtain ⟨hx, hxs⟩ := allHarmless_cons.1 hx
    obtain ⟨hy, hys⟩ := allHarmless_cons.1 hy
    exact (k.same hx hy).bind fun _ _ => keeps_ite (lessItems k _ _ hxs hys) (less k hx hy)

end

include k

theorem ascending (each : AllHarmless vs) : (cx.ascending vs).Keeps fun _ => True := by
  fun_induction Context.ascending cx vs with
  | case1 x y rest ih =>
    obtain ⟨hx, rest⟩ := allHarmless_cons.1 each
    have hy := (allHarmless_cons.1 rest).1
    exact (k.less hx hy).bind fun _ _ => keeps_ite (ih rest) (keeps_pure trivial)
  | case2 => exact keeps_pure trivial

/-! ## Calls -/

theorem callNamed (name : String) (each : AllHarmless args) :
    (cx.callNamed name args).Keeps Datum.Harmless := by
  unfold Context.callNamed
  split
  · next found =>
    exact k.run _ _ (Datum.harmless_routine.1 (k.program.names _ _ found)) each
  · exact keeps_throw

theorem callCallback (c : Callback) {extra : List Datum} (hextra : AllHarmless extra)
    (each : AllHarmless args) : (cx.callCallback c extra args).Keeps Datum.Harmless := by
  have null : Datum.null.Harmless := Datum.harmless_of_plain rfl
  unfold Context.callCallback
  split
  · exact keeps_tuple each
  · exact keeps_pure (Datum.harmless_of_plain rfl)
  · refine keeps_pure ?_
    cases extra with
    | nil => exact null
    | cons v _ => exact (allHarmless_cons.1 hextra).1
  · exact k.callNamed _ fun v mem => each v (List.mem_reverse.1 mem)
  · exact (k.ascending each).bind fun _ _ => keeps_pure (Datum.harmless_of_plain rfl)
  · obtain ⟨hx, rest⟩ := allHarmless_cons.1 each
    exact keeps_foldlM hx fun v w mem hv => k.add hv (rest w mem)
  · exact keeps_pure (allHarmless_cons.1 each).1
  · next x rest =>
    obtain ⟨hx, hrest⟩ := allHarmless_cons.1 each
    refine keeps_pure ?_
    cases last : rest.getLast? with
    | none => exact hx
    | some v => exact hrest v (List.mem_of_getLast? last)
  · exact keeps_pure null
  · exact keeps_throw

theorem callBuiltin (b : Builtin) (each : AllHarmless args) :
    (cx.callBuiltin b args).Keeps Datum.Harmless := by
  unfold Context.callBuiltin
  split
  · exact keeps_pure (Datum.harmless_of_plain rfl)
  · exact (k.truth _).bind fun _ _ => keeps_pure (Datum.harmless_of_plain rfl)
  · exact (k.digest _).bind fun _ _ => keeps_pure (Datum.harmless_of_plain rfl)
  · exact (isInstance _ _).bind fun _ _ => keeps_pure (Datum.harmless_of_plain rfl)
  · refine (k.iterate (allHarmless_cons.1 each).1).bind fun items harmless => ?_
    exact keeps_pure (Datum.harmless_iterator.2 harmless)
  · exact (k.length _).bind fun _ _ => keeps_pure (Datum.harmless_of_plain rfl)
  · exact (typeName _).bind fun _ _ => keeps_pure (Datum.harmless_of_plain rfl)
  · exact (k.plainText _).bind fun _ _ => keeps_pure (Datum.harmless_of_plain rfl)
  · refine (k.plainText _).bind fun _ _ => (keeps_warn _ _).bind fun _ _ => ?_
    exact keeps_pure (Datum.harmless_of_plain rfl)
  · exact keeps_throw

theorem call (hf : f.Harmless) (each : AllHarmless args) :
    (cx.call f args).Keeps Datum.Harmless := by
  unfold Context.call
  split
  · exact k.run _ _ (Datum.harmless_routine.1 hf) each
  · obtain ⟨harmless, self⟩ := Datum.harmless_method.1 hf
    exact k.run _ _ harmless (allHarmless_cons.2 ⟨self, each⟩)
  · exact k.construct _ _ each
  · exact k.callBuiltin _ each
  · exact k.callCallback _ (Datum.harmless_callback.1 hf) each
  · exact keeps_throw

theorem callMethod (x : Datum) (plain : name ∉ setterNames) (each : AllHarmless args) :
    (cx.callMethod x name args).Keeps Datum.Harmless :=
  (k.getAttribute x name).bind fun _ harmless => k.call (harmless plain) each

end Context.Keeps
end Polyad.Machine
