/-!
# Punycode

A text in ASCII alone: first its ASCII characters and a hyphen, then where the others go. These are
taken in order of their numbers, and each is told by how many places later it comes than the one
before, in digits of base 36 whose thresholds adapt to what was told so far.
-/

namespace Polyad.Text.Punycode

def digit (n : Nat) : Char :=
  if n < 26 then Char.ofNat (97 + n) else Char.ofNat (48 + n - 26)

/-- The least value that the digit at a place cannot end a number with. -/
def threshold (place bias : Nat) : Nat := min 26 (max 1 (36 * (place + 1) - bias))

/-- A number in digits, least first. -/
def digits (bias place n : Nat) : List Char :=
  let t := threshold place bias
  if n < t then [digit n]
  else digit (t + (n - t) % (36 - t)) :: digits bias (place + 1) ((n - t) / (36 - t))
termination_by n
decreasing_by
  have positive : 1 ≤ threshold place bias := by simp only [threshold]; omega
  exact Nat.lt_of_le_of_lt (Nat.div_le_self _ _) (by omega)

/-- How often a distance is divided by 35 until it is small, and what is left. -/
def scaled (distance times : Nat) : Nat × Nat :=
  if 455 < distance then scaled (distance / 35) (times + 1) else (distance, times)
termination_by distance

/-- The bias after a distance, when `count` characters have been told. -/
def adapted (distance count : Nat) (isFirst : Bool) : Nat :=
  let distance := if isFirst then distance / 700 else distance / 2
  let (rest, times) := scaled (distance + distance / count) 0
  36 * times + 36 * rest / (rest + 38)

/-- What has been told: the digits so far in reverse, the distance since the last character, the
bias and the number of characters that have their place. -/
structure Telling where
  written : List Char := []
  distance : Nat := 0
  bias : Nat := 72
  placed : Nat

namespace Telling

/-- The character numbered `n` put before the next place. -/
def put (t : Telling) (basic : Nat) : Telling where
  written := (digits t.bias 0 t.distance).reverse ++ t.written
  bias := adapted t.distance (t.placed + 1) (t.placed == basic)
  placed := t.placed + 1

/-- Goes past a character of the text while those numbered `n` are told. -/
def pass (basic n : Nat) (t : Telling) (c : Char) : Telling :=
  if c.toNat < n then { t with distance := t.distance + 1 }
  else if c.toNat == n then t.put basic
  else t

/-- Tells the characters of each number in turn; `last` is one past the number before. -/
def tellAll (text : List Char) (basic : Nat) (t : Telling) (last : Nat) : List Nat → Telling
  | [] => t
  | n :: rest =>
    let reached := { t with distance := t.distance + (n - last) * (t.placed + 1) }
    let told := text.foldl (pass basic n) reached
    tellAll text basic { told with distance := told.distance + 1 } (n + 1) rest

end Telling

/-- The ASCII form of a text. -/
def encode (text : List Char) : List Char :=
  let basic := text.filter (·.toNat < 0x80)
  let others := ((text.filter (0x80 ≤ ·.toNat)).map Char.toNat).eraseDups.mergeSort
  let told := Telling.tellAll text basic.length { placed := basic.length } 0x80 others
  basic ++ (if basic.isEmpty then [] else ['-']) ++ told.written.reverse

end Polyad.Text.Punycode
