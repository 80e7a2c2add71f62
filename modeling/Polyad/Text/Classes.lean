/-!
# Character classes

Blanks, decimal digits and capitals as the readers of this library understand them. Blanks and
digits follow Unicode 14; capitals are needed only where the outcome is compared with ASCII words.
-/

namespace Polyad.Text

/-- Whether a code point lies in one of the closed ranges. -/
def inRanges (rs : List (Nat × Nat)) (n : Nat) : Bool :=
  rs.any fun (lo, hi) => lo ≤ n && n ≤ hi

private def blankRanges : List (Nat × Nat) := [
  (9, 13), (28, 32), (133, 133), (160, 160), (5760, 5760), (8192, 8202), (8232, 8233),
  (8239, 8239), (8287, 8287), (12288, 12288)]

/-- White space of any kind: controls, blanks and separators. -/
def isBlank (c : Char) : Bool := inRanges blankRanges c.toNat

/-- Where each block of ten decimal digits begins. -/
private def digitZeros : List Nat := [
  48, 1632, 1776, 1984, 2406, 2534, 2662, 2790, 2918, 3046, 3174, 3302, 3430, 3558, 3664, 3792,
  3872, 4160, 4240, 6112, 6160, 6470, 6608, 6784, 6800, 6992, 7088, 7232, 7248, 42528, 43216,
  43264, 43472, 43504, 43600, 44016, 65296, 66720, 68912, 69734, 69872, 69942, 70096, 70384,
  70736, 70864, 71248, 71360, 71472, 71904, 72016, 72784, 73040, 73120, 92768, 92864, 93008,
  120782, 120792, 120802, 120812, 120822, 123200, 123632, 125264, 130032]

/-- The value of a decimal digit of any script. -/
def digitValue? (c : Char) : Option Nat :=
  (digitZeros.find? fun z => z ≤ c.toNat && c.toNat < z + 10).map (c.toNat - ·)

/-- The capital of a letter, where that capital is an ASCII letter. -/
def asciiCapital (c : Char) : Char :=
  if c.isLower then c.toUpper
  else if c = 'ı' then 'I'
  else if c = 'ſ' then 'S'
  else c

/-- The runs of characters between blanks. -/
def words (s : String) : List String :=
  ((s.toList.splitOnP isBlank).filter (· ≠ [])).map String.ofList

end Polyad.Text
