/-!
# Units

Characters as units of two or four bytes, the most significant byte first or last.
-/

namespace Polyad.Text

/-- A number as two bytes. -/
def twoBytes (big : Bool) (n : Nat) : List UInt8 :=
  let bytes := [(n / 256).toUInt8, (n % 256).toUInt8]
  if big then bytes else bytes.reverse

def fourBytes (big : Bool) (n : Nat) : List UInt8 :=
  let high := twoBytes big (n / 65536)
  let low := twoBytes big (n % 65536)
  if big then high ++ low else low ++ high

/-- A character as one or two units of two bytes. -/
def units (big : Bool) (c : Char) : List UInt8 :=
  if c.toNat < 0x10000 then twoBytes big c.toNat
  else
    let n := c.toNat - 0x10000
    twoBytes big (0xd800 + n / 0x400) ++ twoBytes big (0xdc00 + n % 0x400)

def mark : Char := '\ufeff'

end Polyad.Text
