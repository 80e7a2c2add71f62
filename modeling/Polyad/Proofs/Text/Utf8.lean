import Polyad.Text.Utf8

/-!
# Reading undoes writing in UTF-8

A first character is found exactly where its bytes are, what is wrong with some bytes stays wrong
whatever follows, and of bytes that are cut off nothing is lost.
-/

namespace Polyad.Text

variable {c : Char} {a b : UInt8} {bs : List UInt8} {n : Nat}

/-- The bytes of a character. -/
abbrev bytesOf (c : Char) : List UInt8 := String.utf8EncodeChar c

/-! ## First characters -/

theorem isContinuation_iff : isContinuation b = true ↔ 128 ≤ b.toNat ∧ b.toNat < 192 := by
  simp [isContinuation, UInt8.le_iff_toNat_le, UInt8.lt_iff_toNat_lt]

theorem secondFits_iff : secondFits a b = true ↔ (128 ≤ b.toNat ∧ b.toNat < 192) ∧
    (a.toNat = 224 → 160 ≤ b.toNat) ∧ (a.toNat = 237 → b.toNat < 160) ∧
    (a.toNat = 240 → 144 ≤ b.toNat) ∧ (a.toNat = 244 → b.toNat < 144) := by
  simp [secondFits, isContinuation_iff, UInt8.le_iff_toNat_le, UInt8.lt_iff_toNat_lt,
    ← UInt8.toNat_inj, and_assoc, Decidable.imp_iff_not_or]

theorem sequenceLength_eq (a : UInt8) : sequenceLength a =
    if a.toNat < 128 then some 1 else if a.toNat < 194 then none
    else if a.toNat < 224 then some 2 else if a.toNat < 240 then some 3
    else if a.toNat < 245 then some 4 else none := by
  simp only [sequenceLength, UInt8.lt_iff_toNat_lt]
  rfl

theorem sequenceLength_eq_some_iff : sequenceLength a = some n ↔
    n = 1 ∧ a.toNat < 128 ∨ n = 2 ∧ 194 ≤ a.toNat ∧ a.toNat < 224 ∨
    n = 3 ∧ 224 ≤ a.toNat ∧ a.toNat < 240 ∨ n = 4 ∧ 240 ≤ a.toNat ∧ a.toNat < 245 := by
  rw [sequenceLength_eq]
  repeat' split
  all_goals
    simp only [Option.some.injEq, reduceCtorEq, false_iff]
    omega

theorem sequenceLength_one : sequenceLength a = some 1 ↔ a.toNat < 128 := by
  simp [sequenceLength_eq_some_iff]

theorem sequenceLength_two : sequenceLength a = some 2 ↔ 194 ≤ a.toNat ∧ a.toNat < 224 := by
  simp [sequenceLength_eq_some_iff]

theorem sequenceLength_three : sequenceLength a = some 3 ↔ 224 ≤ a.toNat ∧ a.toNat < 240 := by
  simp [sequenceLength_eq_some_iff]

theorem sequenceLength_four : sequenceLength a = some 4 ↔ 240 ≤ a.toNat ∧ a.toNat < 245 := by
  simp [sequenceLength_eq_some_iff]

theorem toNat_valid (c : Char) : c.toNat < 0xd800 ∨ 0xdfff < c.toNat ∧ c.toNat < 0x110000 := c.valid

/-- Which bytes write a character. -/
inductive Writes (c : Char) : List UInt8 → Prop where
  | one {a : UInt8} : sequenceLength a = some 1 → c.toNat = a.toNat → Writes c [a]
  | two {a b : UInt8} : sequenceLength a = some 2 → secondFits a b = true →
      c.toNat = codePoint [a, b] → Writes c [a, b]
  | three {a b d : UInt8} : sequenceLength a = some 3 → secondFits a b = true →
      isContinuation d = true → c.toNat = codePoint [a, b, d] → Writes c [a, b, d]
  | four {a b d e : UInt8} : sequenceLength a = some 4 → secondFits a b = true →
      isContinuation d = true → isContinuation e = true → c.toNat = codePoint [a, b, d, e] →
      Writes c [a, b, d, e]

theorem writes_bytesOf (c : Char) : Writes c (bytesOf c) := by
  have valid := toNat_valid c
  have point : c.val.toNat = c.toNat := rfl
  simp only [bytesOf, String.utf8EncodeChar, point]
  split
  · refine .one (sequenceLength_one.2 ?_) ?_ <;> simp only [UInt8.toNat_ofNat'] <;> omega
  · split
    · refine .two (sequenceLength_two.2 ?_) (secondFits_iff.2 ?_) ?_ <;>
        simp only [codePoint, UInt8.toNat_ofNat'] <;> omega
    · split
      · refine .three (sequenceLength_three.2 ?_) (secondFits_iff.2 ?_)
          (isContinuation_iff.2 ?_) ?_ <;> simp only [codePoint, UInt8.toNat_ofNat'] <;> omega
      · refine .four (sequenceLength_four.2 ?_) (secondFits_iff.2 ?_)
          (isContinuation_iff.2 ?_) (isContinuation_iff.2 ?_) ?_ <;>
          simp only [codePoint, UInt8.toNat_ofNat'] <;> omega

/-- No other bytes write it. -/
theorem Writes.eq (h : Writes c bs) : bs = bytesOf c := by
  have point : c.val.toNat = c.toNat := rfl
  simp only [bytesOf, String.utf8EncodeChar, point]
  cases h with
  | one first eq =>
    have := sequenceLength_one.1 first
    rw [if_pos (by omega)]
    simp only [List.cons.injEq, ← UInt8.toNat_inj, UInt8.toNat_ofNat', and_true]
    omega
  | two first second eq =>
    have := sequenceLength_two.1 first
    have := secondFits_iff.1 second
    simp only [codePoint] at eq
    rw [if_neg (by omega), if_pos (by omega)]
    simp only [List.cons.injEq, ← UInt8.toNat_inj, UInt8.toNat_ofNat', and_true]
    omega
  | three first second third eq =>
    have := sequenceLength_three.1 first
    have := secondFits_iff.1 second
    have := isContinuation_iff.1 third
    simp only [codePoint] at eq
    rw [if_neg (by omega), if_neg (by omega), if_pos (by omega)]
    simp only [List.cons.injEq, ← UInt8.toNat_inj, UInt8.toNat_ofNat', and_true]
    omega
  | four first second third fourth eq =>
    have := sequenceLength_four.1 first
    have := secondFits_iff.1 second
    have := isContinuation_iff.1 third
    have := isContinuation_iff.1 fourth
    simp only [codePoint] at eq
    rw [if_neg (by omega), if_neg (by omega), if_neg (by omega)]
    simp only [List.cons.injEq, ← UInt8.toNat_inj, UInt8.toNat_ofNat', and_true]
    omega

theorem firstChar_append (h : Writes c bs) (rest : List UInt8) :
    firstChar (bs ++ rest) = .ok (c, bs.length) := by
  cases h with
  | one first eq => simp [firstChar, first, ← eq]
  | two first second eq => simp [firstChar, first, second, ← eq]
  | three first second third eq => simp [firstChar, first, second, third, ← eq]
  | four first second third fourth eq => simp [firstChar, first, second, third, fourth, ← eq]

theorem toNat_ofNat {v : Nat} (valid : v < 0xd800 ∨ 0xdfff < v ∧ v < 0x110000) :
    (Char.ofNat v).toNat = v := by
  have valid : v.isValidChar := valid
  rw [Char.ofNat, dif_pos valid]
  rfl

/-- After the first of several bytes comes one that fits, and then as many as the first asks for. -/
theorem firstChar_cons_cons {m : Nat} (first : sequenceLength a = some m) (longer : m ≠ 1)
    (b : UInt8) (rest : List UInt8) : firstChar (a :: b :: rest) =
      let more := (rest.take (m - 2)).takeWhile isContinuation
      if secondFits a b = false then .error (invalidContinuation 1)
      else if more.length = m - 2 then .ok (Char.ofNat (codePoint (a :: b :: more)), m)
      else if rest.length = more.length then .error (endOfData (2 + more.length))
      else .error (invalidContinuation (2 + more.length)) := by
  rcases sequenceLength_eq_some_iff.1 first with ⟨rfl, -⟩ | ⟨rfl, -⟩ | ⟨rfl, -⟩ | ⟨rfl, -⟩
  · exact absurd rfl longer
  all_goals simp [firstChar, first]

theorem takeWhile_eq_take {p : UInt8 → Bool} {k : Nat}
    (enough : ((bs.take k).takeWhile p).length = k) :
    (bs.take k).takeWhile p = bs.take k ∧ (bs.take k).length = k := by
  have shorter := (List.takeWhile_prefix (l := bs.take k) p).length_le
  have bounded := List.length_take_le k bs
  have count : (bs.take k).length = k := by omega
  exact ⟨(List.takeWhile_prefix p).eq_of_length (by omega), count⟩

theorem writes_of_longer {more : List UInt8} (first : sequenceLength a = some (more.length + 2))
    (second : secondFits a b = true) (others : ∀ d ∈ more, isContinuation d = true) :
    Writes (Char.ofNat (codePoint (a :: b :: more))) (a :: b :: more) := by
  have fits := secondFits_iff.1 second
  match more with
  | [] =>
    have := sequenceLength_two.1 first
    refine .two first second (toNat_ofNat ?_)
    simp only [codePoint]
    omega
  | [d] =>
    have := sequenceLength_three.1 first
    have third := others d (by simp)
    have := isContinuation_iff.1 third
    refine .three first second third (toNat_ofNat ?_)
    simp only [codePoint]
    omega
  | [d, e] =>
    have := sequenceLength_four.1 first
    have third := others d (by simp)
    have fourth := others e (by simp)
    have := isContinuation_iff.1 third
    have := isContinuation_iff.1 fourth
    refine .four first second third fourth (toNat_ofNat ?_)
    simp only [codePoint]
    omega
  | _ :: _ :: _ :: _ =>
    have := sequenceLength_eq_some_iff.1 first
    simp only [List.length_cons] at this
    omega

theorem firstChar_eq_ok (run : firstChar bs = .ok (c, n)) :
    ∃ own rest, bs = own ++ rest ∧ Writes c own ∧ n = own.length := by
  match bs with
  | [] => cases run
  | a :: bs =>
    cases first : sequenceLength a with
    | none => simp [firstChar, first] at run
    | some m =>
      by_cases one : m = 1
      · subst one
        simp only [firstChar, first, Except.ok.injEq, Prod.mk.injEq] at run
        obtain ⟨rfl, rfl⟩ := run
        have small := sequenceLength_one.1 first
        exact ⟨[a], bs, rfl, .one first (toNat_ofNat (.inl (by omega))), rfl⟩
      · match bs with
        | [] => simp [firstChar, first] at run
        | b :: rest =>
          have two : 2 ≤ m := by
            have := sequenceLength_eq_some_iff.1 first
            omega
          rw [firstChar_cons_cons first one] at run
          split at run
          · cases run
          · next second =>
            dsimp only at run
            split at run
            · next enough =>
              simp only [Except.ok.injEq, Prod.mk.injEq] at run
              obtain ⟨rfl, rfl⟩ := run
              obtain ⟨whole, count⟩ := takeWhile_eq_take enough
              have others : ∀ d ∈ rest.take (m - 2), isContinuation d = true := by
                rw [← whole]
                exact List.all_eq_true.1 List.all_takeWhile
              rw [whole]
              refine ⟨a :: b :: rest.take (m - 2), rest.drop (m - 2), by simp,
                writes_of_longer ?_ (by simpa using second) others, ?_⟩
              · rw [count, first]
                congr 1
                omega
              · simp only [List.length_cons]
                omega
            · split at run <;> cases run

/-- What is read first is one character, from exactly its bytes. -/
theorem firstChar_eq_ok_iff :
    firstChar bs = .ok (c, n) ↔ n = (bytesOf c).length ∧ ∃ rest, bs = bytesOf c ++ rest := by
  constructor
  · intro run
    obtain ⟨own, rest, rfl, writes, rfl⟩ := firstChar_eq_ok run
    exact ⟨by rw [writes.eq], rest, by rw [writes.eq]⟩
  · rintro ⟨rfl, rest, rfl⟩
    exact firstChar_append (writes_bytesOf c) rest

theorem firstChar_bytesOf (c : Char) (rest : List UInt8) :
    firstChar (bytesOf c ++ rest) = .ok (c, (bytesOf c).length) :=
  firstChar_append (writes_bytesOf c) rest

theorem bytesOf_ne_nil (c : Char) : bytesOf c ≠ [] := String.utf8EncodeChar_ne_nil

/-- The first bytes of a character are no character, but only for want of the others. -/
theorem firstChar_take {k : Nat} (h : Writes c bs) (part : k < bs.length) :
    firstChar (bs.take k) = .error (endOfData k) := by
  cases h with
  | one =>
    obtain rfl : k = 0 := by simpa using part
    rfl
  | two first second =>
    match k, part with
    | 0, _ => rfl
    | 1, _ => simp [firstChar, first]
  | three first second third =>
    match k, part with
    | 0, _ => rfl
    | 1, _ => simp [firstChar, first]
    | 2, _ => simp [firstChar, first, second]
  | four first second third fourth =>
    match k, part with
    | 0, _ => rfl
    | 1, _ => simp [firstChar, first]
    | 2, _ => simp [firstChar, first, second]
    | 3, _ => simp [firstChar, first, second, third]

/-- What is wrong with bytes that are not cut off is wrong whatever follows them. -/
theorem ne_of_firstChar_eq_error {bad : BadBytes} (run : firstChar bs = .error bad)
    (final : isCutOff bs bad = false) (more rest : List UInt8) :
    bs ++ more ≠ bytesOf c ++ rest := by
  intro eq
  obtain ⟨k, own, -⟩ | ⟨k, own, -⟩ := List.append_eq_append_iff.1 eq
  · have part : bs = (bytesOf c).take bs.length := by rw [own, List.take_left]
    by_cases lt : bs.length < (bytesOf c).length
    · rw [part, firstChar_take (writes_bytesOf c) lt] at run
      rw [← Except.error.inj run] at final
      simp [isCutOff, endOfData] at final
    · rw [List.take_of_length_le (by omega)] at part
      rw [part, ← List.append_nil (bytesOf c), firstChar_bytesOf] at run
      cases run
  · rw [own, firstChar_bytesOf] at run
    cases run

/-! ## Texts -/

/-- The bytes of some characters. -/
abbrev bytesOfAll (cs : List Char) : List UInt8 := cs.flatMap bytesOf

theorem bytesOf_append_inj {d : Char} {xs ys : List UInt8}
    (eq : bytesOf c ++ xs = bytesOf d ++ ys) : c = d ∧ xs = ys := by
  have read := firstChar_bytesOf c xs
  rw [eq, firstChar_bytesOf, Except.ok.injEq, Prod.mk.injEq] at read
  obtain rfl := read.1
  exact ⟨rfl, List.append_cancel_left eq⟩

/-- Bytes that start with those of some characters write these characters first. -/
theorem exists_of_bytesOfAll_append {cs ds : List Char} {rest : List UInt8}
    (eq : bytesOfAll cs ++ rest = bytesOfAll ds) :
    ∃ more, ds = cs ++ more ∧ rest = bytesOfAll more := by
  induction cs generalizing ds with
  | nil => exact ⟨ds, rfl, eq⟩
  | cons c cs ih =>
    match ds with
    | [] => simp at eq
    | d :: ds =>
      simp only [bytesOfAll, List.flatMap_cons, List.append_assoc] at eq
      obtain ⟨rfl, tail⟩ := bytesOf_append_inj eq
      obtain ⟨more, rfl, rfl⟩ := ih tail
      exact ⟨more, rfl, rfl⟩

theorem bytesOfAll_inj {cs ds : List Char} : bytesOfAll cs = bytesOfAll ds ↔ cs = ds := by
  refine ⟨fun eq => ?_, congrArg bytesOfAll⟩
  obtain ⟨more, rfl, none⟩ := exists_of_bytesOfAll_append ((List.append_nil _).trans eq)
  match more with
  | [] => rw [List.append_nil]
  | c :: _ => exact absurd (List.append_eq_nil_iff.1 none.symm).1 (bytesOf_ne_nil c)

variable {fuel offset : Nat} {cs done done' : List Char} {pending : List UInt8}

/-- No character starts some bytes. -/
def Unread (pending : List UInt8) : Prop := pending = [] ∨ ∃ bad, firstChar pending = .error bad

/-- A chunk is read as the characters it starts with; what is left starts with none. -/
theorem decodeChunk_eq_ok (run : decodeChunk fuel offset done bs = .ok (done', pending)) :
    ∃ cs, done' = cs.reverse ++ done ∧ bs = bytesOfAll cs ++ pending ∧
      (bs.length ≤ fuel → Unread pending) := by
  fun_induction decodeChunk fuel offset done bs with
  | case1 offset done bs =>
    cases run
    refine ⟨[], rfl, rfl, fun short => .inl ?_⟩
    exact List.eq_nil_of_length_eq_zero (Nat.le_zero.1 short)
  | case2 fuel offset done =>
    cases run
    exact ⟨[], rfl, rfl, fun _ => .inl rfl⟩
  | case3 fuel offset done bs some c n first ih =>
    obtain ⟨rfl, rest, rfl⟩ := firstChar_eq_ok_iff.1 first
    rw [List.drop_left] at run ih
    obtain ⟨cs, rfl, rfl, unread⟩ := ih run
    refine ⟨c :: cs, by simp, by simp, fun enough => unread ?_⟩
    have := List.length_pos_iff.2 (bytesOf_ne_nil c)
    simp only [List.length_append] at enough ⊢
    omega
  | case4 fuel offset done bs some bad first cut =>
    cases run
    exact ⟨[], rfl, rfl, fun _ => .inr ⟨bad, first⟩⟩
  | case5 => cases run

theorem decodeChunk_eq_error {complaint : String}
    (run : decodeChunk fuel offset done bs = .error complaint) (more : List UInt8) :
    bs ++ more ≠ bytesOfAll cs := by
  fun_induction decodeChunk fuel offset done bs generalizing cs with
  | case1 => cases run
  | case2 => cases run
  | case3 fuel offset done bs some c n first ih =>
    obtain ⟨rfl, rest, rfl⟩ := firstChar_eq_ok_iff.1 first
    rw [List.drop_left] at run ih
    intro eq
    match cs with
    | [] => simp at eq
    | d :: cs =>
      rw [List.append_assoc, bytesOfAll, List.flatMap_cons] at eq
      exact ih run (bytesOf_append_inj eq).2
  | case4 => cases run
  | case5 fuel offset done bs some bad first cut =>
    intro eq
    match cs with
    | [] => exact some (List.append_eq_nil_iff.1 eq).1
    | d :: cs =>
      rw [bytesOfAll, List.flatMap_cons] at eq
      exact ne_of_firstChar_eq_error first (by simpa using cut) more _ eq

theorem Unread.eq_nil (unread : Unread pending) (eq : pending = bytesOfAll cs) : cs = [] := by
  match cs with
  | [] => rfl
  | c :: cs =>
    rw [bytesOfAll, List.flatMap_cons] at eq
    obtain nil | ⟨bad, first⟩ := unread
    · rw [nil] at eq
      exact absurd (List.append_eq_nil_iff.1 eq.symm).1 (bytesOf_ne_nil c)
    · rw [eq, firstChar_bytesOf] at first
      cases first

theorem toList_loop (bytes : ByteArray) (i : Nat) (done : List UInt8) :
    ByteArray.toList.loop bytes i done = done.reverse ++ bytes.data.toList.drop i := by
  fun_induction ByteArray.toList.loop bytes i done with
  | case1 i done lt ih =>
    have lt : i < bytes.data.toList.length := lt
    have here : bytes.get! i = bytes.data.toList[i] := getElem!_pos bytes.data i lt
    rw [ih, here, List.reverse_cons, List.append_assoc, List.singleton_append,
      List.getElem_cons_drop]
  | case2 i done ge =>
    have ge : bytes.data.toList.length ≤ i := Nat.le_of_not_lt ge
    rw [List.drop_eq_nil_of_le ge, List.append_nil]

theorem toUTF8_eq_iff {bytes : ByteArray} {s : String} :
    s.toUTF8 = bytes ↔ bytes.data.toList = bytesOfAll s.toList := by
  rw [String.toUTF8_eq_toByteArray, ← String.utf8Encode_toList, List.utf8Encode]
  constructor
  · rintro rfl
    rw [List.toList_data_toByteArray]
  · intro eq
    refine ByteArray.ext ?_
    rw [List.data_toByteArray]
    exact (congrArg List.toArray eq).symm

end Polyad.Text
