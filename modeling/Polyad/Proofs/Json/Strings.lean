import Polyad.Json.Reader

/-!
# Strings between quotes

What is written for a character is read as that character again, whatever follows. Beyond the basic
plane two escapes stand for one character; an escape within it is never taken for the first of two,
since no character has the code of half a pair.
-/

namespace Polyad.Json

/-! ## Code units -/

theorem hexValue?_hexDigit : ∀ d < 16, hexValue? (Text.hexDigit d) = some d := by decide

/-- Four digits are read as the number they were written for. -/
theorem unit?_hexDigits {n : Nat} (lt : n < 0x10000) :
    ∃ a b c d, Text.hexDigits 4 n = [a, b, c, d] ∧ unit? a b c d = some n := by
  refine ⟨_, _, _, _, rfl, ?_⟩
  simp only [unit?, hexValue?_hexDigit _ (Nat.mod_lt _ (by decide : 16 > 0)), Option.bind_eq_bind,
    Option.bind_some, Option.pure_def, Option.some.injEq]
  omega

/-- Half a pair, as a code unit. -/
def isHalf (n : Nat) : Bool := isHigh n || isLow n

theorem isHalf_toNat (c : Char) : isHalf c.toNat = false := by
  have valid := c.valid
  have same : c.val.toNat = c.toNat := rfl
  simp only [UInt32.isValidChar, Nat.isValidChar, same] at valid
  simp only [isHalf, isHigh, isLow, Bool.or_eq_false_iff, Bool.and_eq_false_iff,
    decide_eq_false_iff_not]
  omega

variable {n : Nat} {rest : List Char}

/-- What reading does once the first character is known. -/
def prepend (c : Char) (r : Option (List Char × List Char)) : Option (List Char × List Char) :=
  r.map fun p => (c :: p.1, p.2)

theorem readChars_unitEscape (lt : n < 0x10000) (whole : isHalf n = false) (rest : List Char) :
    readChars (unitEscape n ++ rest) = prepend (Char.ofNat n) (readChars rest) := by
  obtain ⟨a, b, c, d, digits, unit⟩ := unit?_hexDigits lt
  have high : isHigh n = false := (Bool.or_eq_false_iff.1 whole).1
  rw [unitEscape, digits]
  change readChars ('\\' :: 'u' :: a :: b :: c :: d :: rest) = _
  by_cases next : ∃ e f g h more, rest = '\\' :: 'u' :: e :: f :: g :: h :: more
  · obtain ⟨e, f, g, h, more, rfl⟩ := next
    rw [readChars.eq_3, unit]
    simp only [high, Option.bind_eq_bind, Option.bind_some]
    cases readChars ('\\' :: 'u' :: e :: f :: g :: h :: more) <;> rfl
  · rw [readChars.eq_4 _ _ _ _ _ fun e f g h more eq => next ⟨e, f, g, h, more, eq⟩, unit]
    have whole : (isHigh n || isLow n) = false := whole
    simp only [whole, Option.bind_eq_bind, Option.bind_some]
    cases readChars rest <;> rfl

theorem readChars_pair {high low : Nat} (first : isHigh high) (second : isLow low)
    (rest : List Char) :
    readChars (unitEscape high ++ (unitEscape low ++ rest)) =
      prepend (pairChar high low) (readChars rest) := by
  have lt : high < 0x10000 := by
    simp only [isHigh, Bool.and_eq_true, decide_eq_true_eq] at first
    omega
  have lt' : low < 0x10000 := by
    simp only [isLow, Bool.and_eq_true, decide_eq_true_eq] at second
    omega
  obtain ⟨a, b, c, d, digits, unit⟩ := unit?_hexDigits lt
  obtain ⟨e, f, g, h, digits', unit'⟩ := unit?_hexDigits lt'
  rw [unitEscape, unitEscape, digits, digits']
  change readChars ('\\' :: 'u' :: a :: b :: c :: d :: '\\' :: 'u' :: e :: f :: g :: h :: rest) = _
  rw [readChars.eq_3, unit]
  simp only [first, unit', second, Option.bind_eq_bind, Option.bind_some]
  cases readChars rest <;> rfl

/-! ## Characters -/

theorem readChars_charEscape (c : Char) (rest : List Char) :
    readChars (charEscape c ++ rest) = prepend c (readChars rest) := by
  unfold charEscape
  dsimp only
  split
  · next lt =>
    rw [readChars_unitEscape lt (isHalf_toNat c), Char.ofNat_toNat]
  · next ge =>
    have bound : c.toNat < 0x110000 := by
      have valid := c.valid
      have same : c.val.toNat = c.toNat := rfl
      simp only [UInt32.isValidChar, Nat.isValidChar, same] at valid
      omega
    rw [List.append_assoc, readChars_pair]
    · have code : 0x10000 + (0xd800 + (c.toNat - 0x10000) / 0x400 - 0xd800) * 0x400 +
          (0xdc00 + (c.toNat - 0x10000) % 0x400 - 0xdc00) = c.toNat := by omega
      rw [pairChar, code, Char.ofNat_toNat]
    · simp only [isHigh, Bool.and_eq_true, decide_eq_true_eq]
      omega
    · simp only [isLow, Bool.and_eq_true, decide_eq_true_eq]
      omega

theorem readChars_simpleEscape {e c : Char} (known : simpleEscape? e = some c)
    (rest : List Char) : readChars ('\\' :: e :: rest) = prepend c (readChars rest) := by
  have other : e ≠ 'u' := by
    rintro rfl
    cases known
  rw [readChars.eq_5 e rest (fun _ _ _ _ _ _ _ _ _ eq => absurd eq other)
    fun _ _ _ _ _ eq => absurd eq other, known]
  simp only [Option.bind_eq_bind, Option.bind_some]
  cases readChars rest <;> rfl

/-- A character that needs no escape is read as it is. -/
theorem readChars_plain {c : Char} (quote : c ≠ '"') (slash : c ≠ '\\') (shown : 32 ≤ c.toNat)
    (rest : List Char) : readChars (c :: rest) = prepend c (readChars rest) := by
  rw [readChars.eq_6 c rest quote (fun _ _ _ _ _ _ _ _ _ eq => absurd eq slash)
    (fun _ _ _ _ _ eq => absurd eq slash) (fun _ _ eq => absurd eq slash),
    if_neg (Nat.not_lt.2 shown)]
  cases readChars rest <;> rfl

/-- The characters with a short escape of their own. -/
def shortEscaped : List Char := ['"', '\\', '\n', '\r', '\t', '\x0c', '\x08']

theorem simpleEscape?_of_short : ∀ c ∈ shortEscaped,
    ∃ e ∈ ['"', '\\', 'n', 'r', 't', 'f', 'b'], encodeChar c = ['\\', e] ∧
      simpleEscape? e = some c := by
  simp [shortEscaped, simpleEscape?, encodeChar]

theorem encodeChar_of_not_short {c : Char} (other : c ∉ shortEscaped) :
    encodeChar c = if 32 ≤ c.toNat && c.toNat < 127 then [c] else charEscape c := by
  simp only [shortEscaped, List.mem_cons, List.not_mem_nil, or_false, not_or] at other
  obtain ⟨a, b, c, d, e, f, g⟩ := other
  simp [encodeChar, a, b, c, d, e, f, g]

theorem readChars_encodeChar (c : Char) (rest : List Char) :
    readChars (encodeChar c ++ rest) = prepend c (readChars rest) := by
  by_cases short : c ∈ shortEscaped
  · obtain ⟨e, -, written, known⟩ := simpleEscape?_of_short c short
    rw [written]
    exact readChars_simpleEscape known rest
  · rw [encodeChar_of_not_short short]
    split
    · next shown =>
      simp only [Bool.and_eq_true, decide_eq_true_eq] at shown
      have quote : c ≠ '"' := fun eq => short (eq ▸ by decide)
      have slash : c ≠ '\\' := fun eq => short (eq ▸ by decide)
      exact readChars_plain quote slash shown.1 rest
    · exact readChars_charEscape c rest

/-- A string is read up to its closing quote. -/
theorem readChars_encode (cs rest : List Char) :
    readChars (cs.flatMap encodeChar ++ '"' :: rest) = some (cs, rest) := by
  induction cs with
  | nil => exact readChars_quote rest
  | cons c cs ih =>
    rw [List.flatMap_cons, List.append_assoc, readChars_encodeChar, ih]
    rfl

theorem readString_encode (s : String) (rest : List Char) :
    readString (s.toList.flatMap encodeChar ++ '"' :: rest) = .ok (s, rest) := by
  rw [readString, readChars_encode]
  exact congrArg (fun t => Except.ok (t, rest)) String.ofList_toList

end Polyad.Json
