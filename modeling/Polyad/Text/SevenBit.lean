import Polyad.Text.Units

/-!
# The seven-bit form

A text in ASCII alone: runs of other characters stand between a plus sign and a hyphen, as digits of
six bits each that spell their units of two bytes. The hyphen is left out where the next character
ends the run by itself.
-/

namespace Polyad.Text

/-- A text in the seven-bit form while it is written: what stands there in reverse and, within a run
of other characters, the bits that make no whole digit yet. -/
structure SevenBit where
  written : List Char := []
  run : Option (List Bool) := none

namespace SevenBit

/-- Whether a character stands for itself outside a run. -/
def isDirect (c : Char) : Bool :=
  (0x20 ≤ c.toNat && c.toNat < 0x7e && c != '+' && c != '\\') || c == '\t' || c == '\n' || c == '\r'

def sextetDigits : List Char :=
  "ABCDEFGHIJKLMNOPQRSTUVWXYZabcdefghijklmnopqrstuvwxyz0123456789+/".toList

def bitsOf (b : UInt8) : List Bool := (List.range 8).map fun i => b.toNat.testBit (7 - i)

def sextet (bits : List Bool) : Char :=
  sextetDigits.getD (bits.foldl (fun n b => 2 * n + b.toNat) 0) 'A'

/-- Writes the digits of all whole sextets. -/
def flush (written : List Char) : List Bool → SevenBit
  | a :: b :: c :: d :: e :: f :: rest => flush (sextet [a, b, c, d, e, f] :: written) rest
  | rest => ⟨written, some rest⟩

/-- Ends a run: its last bits are filled up with zeros. -/
def finish (written : List Char) (bits : List Bool) : List Char :=
  if bits.isEmpty then written
  else sextet (bits ++ List.replicate (6 - bits.length) false) :: written

def add (s : SevenBit) (c : Char) : SevenBit :=
  match s.run, isDirect c with
  | none, true => ⟨c :: s.written, none⟩
  | some bits, true =>
    let ended := finish s.written bits
    ⟨c :: (if sextetDigits.contains c || c == '-' then '-' :: ended else ended), none⟩
  | none, false =>
    if c == '+' then ⟨'-' :: '+' :: s.written, none⟩
    else flush ('+' :: s.written) ((units true c).flatMap bitsOf)
  | some bits, false => flush s.written (bits ++ (units true c).flatMap bitsOf)

def text (s : SevenBit) : List Char :=
  match s.run with
  | none => s.written.reverse
  | some bits => ('-' :: finish s.written bits).reverse

/-- The seven-bit form of a text. -/
def encode (cs : List Char) : List Char := (cs.foldl add {}).text

end SevenBit
end Polyad.Text
