import Polyad.Text.Quoted

/-!
# Reading UTF-8

The characters of some bytes, or else where and why they are none. Bytes are read in chunks, and
positions are counted from the start of what is read together.
-/

namespace Polyad.Text

/-- Why bytes are no text: how many of them are meant, and the complaint. -/
structure BadBytes where
  count : Nat
  complaint : String
  deriving DecidableEq, Repr

def invalidStart : BadBytes := ⟨1, "invalid start byte"⟩

/-- A byte that does not go on after `count` good ones. -/
def invalidContinuation (count : Nat) : BadBytes := ⟨count, "invalid continuation byte"⟩

def endOfData (count : Nat) : BadBytes := ⟨count, "unexpected end of data"⟩

def isContinuation (b : UInt8) : Bool := 0x80 ≤ b && b < 0xc0

/-- Whether a second byte fits the first one: no overlong form, no surrogate, no number too large.
-/
def secondFits (first second : UInt8) : Bool :=
  isContinuation second &&
    !(first == 0xe0 && second < 0xa0) && !(first == 0xed && 0xa0 ≤ second) &&
    !(first == 0xf0 && second < 0x90) && !(first == 0xf4 && 0x90 ≤ second)

/-- How many bytes the character of a first byte has. -/
def sequenceLength (first : UInt8) : Option Nat :=
  if first < 0x80 then some 1
  else if first < 0xc2 then none
  else if first < 0xe0 then some 2
  else if first < 0xf0 then some 3
  else if first < 0xf5 then some 4
  else none

/-- The code point of the bytes of one character. -/
def codePoint : List UInt8 → Nat
  | [a] => a.toNat
  | [a, b] => (a.toNat % 32) * 64 + b.toNat % 64
  | [a, b, c] => (a.toNat % 16) * 4096 + (b.toNat % 64) * 64 + c.toNat % 64
  | [a, b, c, d] =>
    (a.toNat % 8) * 262144 + (b.toNat % 64) * 4096 + (c.toNat % 64) * 64 + d.toNat % 64
  | _ => 0

/-- The first character of some bytes and the number of its bytes. -/
def firstChar : List UInt8 → Except BadBytes (Char × Nat)
  | [] => .error (endOfData 0)
  | a :: rest =>
    match sequenceLength a, rest with
    | none, _ => .error invalidStart
    | some 1, _ => .ok (Char.ofNat a.toNat, 1)
    | some _, [] => .error (endOfData 1)
    | some n, b :: rest =>
      if !secondFits a b then .error (invalidContinuation 1)
      else
        let more := (rest.take (n - 2)).takeWhile isContinuation
        if more.length == n - 2 then .ok (Char.ofNat (codePoint (a :: b :: more)), n)
        else if rest.length == more.length then .error (endOfData (2 + more.length))
        else .error (invalidContinuation (2 + more.length))

/-- A failure at `position`, of which `bytes` are the ones from there on. -/
def badBytesText (position : Nat) (bad : BadBytes) (bytes : List UInt8) : String :=
  let what := match bad.count, bytes with
    | 1, b :: _ =>
      "byte 0x" ++ String.ofList (hexDigits 2 b.toNat) ++ " in position " ++ toString position
    | n, _ => "bytes in position " ++ toString position ++ "-" ++ toString (position + n - 1)
  "'utf-8' codec can't decode " ++ what ++ ": " ++ bad.complaint

/-- Whether some bytes are the first two of a surrogate. -/
def startsSurrogate : List UInt8 → Bool
  | [a, b] => a == 0xed && isContinuation b && 0xa0 ≤ b
  | _ => false

/-- Whether the bytes may be the start of a character that is cut off; a surrogate counts as one. -/
def isCutOff (bytes : List UInt8) (bad : BadBytes) : Bool :=
  bad.complaint == (endOfData 0).complaint || startsSurrogate bytes

/-- The characters of a chunk onto those `done`, and the bytes of a last one that is cut off;
`offset` counts the bytes before. -/
def decodeChunk : Nat → Nat → List Char → List UInt8 →
    Except String (List Char × List UInt8)
  | 0, _, done, bytes => .ok (done, bytes)
  | _, _, done, [] => .ok (done, [])
  | fuel + 1, offset, done, bytes =>
    match firstChar bytes with
    | .ok (c, n) => decodeChunk fuel (offset + n) (c :: done) (bytes.drop n)
    | .error bad =>
      if isCutOff bytes bad then .ok (done, bytes) else .error (badBytesText offset bad bytes)

end Polyad.Text
