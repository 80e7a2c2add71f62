import Polyad.Text.CodePage
import Polyad.Text.EncodingName
import Polyad.Text.Punycode
import Polyad.Text.Quoted
import Polyad.Text.SevenBit

/-!
# Encodings

Texts as bytes. `encode` knows encodings by their names, however these are spelled, and says which
characters it cannot encode.
-/

namespace Polyad.Text

inductive Encoding where
  | utf8
  /-- With a byte order mark in front. -/
  | utf8Marked
  | ascii
  | latin1
  | page (p : CodePage)
  | utf16 (big marked : Bool)
  | utf32 (big marked : Bool)
  | utf7
  /-- ASCII with escapes; a raw one escapes only what is not Latin-1. -/
  | escaped (raw : Bool)
  | punycode
  /-- Refuses every text. -/
  | refusing
  /-- Goes from bytes to bytes and has no meaning for a text. -/
  | binary
  deriving DecidableEq, Repr

inductive EncodeFailure where
  | unknown
  /-- The name has a null character in it. -/
  | nullInName
  | notOfTexts
  | unencodable (reason : String)
  deriving DecidableEq, Repr

namespace Encoding

def named : List (String × Encoding) := [
  ("utf_8", utf8), ("utf_8_sig", utf8Marked), ("ascii", ascii), ("latin_1", latin1),
  ("charmap", latin1), ("utf_16", utf16 false true), ("utf_16_le", utf16 false false),
  ("utf_16_be", utf16 true false), ("utf_32", utf32 false true), ("utf_32_le", utf32 false false),
  ("utf_32_be", utf32 true false), ("utf_7", utf7), ("unicode_escape", escaped false),
  ("raw_unicode_escape", escaped true), ("punycode", punycode), ("undefined", refusing),
  ("base64_codec", binary), ("bz2_codec", binary), ("hex_codec", binary),
  ("quopri_codec", binary), ("rot_13", binary), ("uu_codec", binary), ("zlib_codec", binary)]

/-- The encoding of a standard name. -/
def ofStandard? (name : String) : Option Encoding :=
  (named.lookup name).or ((CodePage.all.find? (·.name == name)).map page)

def ofName? (s : String) : Option Encoding := (EncodingName.standard? s).bind ofStandard?

/-! ## One byte for each character -/

/-- The characters that an encoding lists. -/
def listed : Encoding → List Char
  | page p => p.characters
  | _ => []

/-- The byte of a character in an encoding of one byte each, which lists some characters. -/
def byte? (listed : List Char) : Encoding → Char → Option UInt8
  | ascii, c => if c.toNat < 0x80 then some c.toNat.toUInt8 else none
  | latin1, c => if c.toNat < 0x100 then some c.toNat.toUInt8 else none
  | page p, c => p.byteIn listed c
  | _, _ => none

/-- How a failure names the encoding, and what it says about a character. -/
def complaint : Encoding → String × String
  | ascii => ("ascii", "ordinal not in range(128)")
  | latin1 => ("latin-1", "ordinal not in range(256)")
  | _ => ("charmap", "character maps to <undefined>")

/-- What is said about a run of characters from number `start` on that have no byte. -/
def refusal (e : Encoding) (start : Nat) (run : List Char) : String :=
  let (name, why) := e.complaint
  let what := match run with
    | [c] =>
      "character '" ++ String.ofList (codeEscape c.toNat) ++ "' in position " ++ toString start
    | run => "characters in position " ++ toString start ++ "-" ++ toString (start + run.length - 1)
  "'" ++ name ++ "' codec can't encode " ++ what ++ ": " ++ why

/-- The bytes of a text, one for each character. -/
def singleBytes (e : Encoding) (cs : List Char) : Except EncodeFailure ByteArray :=
  let byte := byte? e.listed e
  let fine := cs.takeWhile fun c => (byte c).isSome
  match cs.drop fine.length with
  | [] => .ok ⟨(cs.filterMap byte).toArray⟩
  | rest =>
    .error (.unencodable (e.refusal fine.length (rest.takeWhile fun c => (byte c).isNone)))

/-! ## ASCII forms -/

def asciiBytes (cs : List Char) : ByteArray := ⟨(cs.map fun c => c.toNat.toUInt8).toArray⟩

/-- A character with its escape where it needs one. -/
def escape (raw : Bool) (c : Char) : List Char :=
  if raw then if c.toNat < 0x100 then [c] else codeEscape c.toNat
  else
    match c with
    | '\\' => ['\\', '\\']
    | '\t' => ['\\', 't']
    | '\n' => ['\\', 'n']
    | '\r' => ['\\', 'r']
    | c => if 0x20 ≤ c.toNat && c.toNat < 0x7f then [c] else codeEscape c.toNat

/-- The bytes of a text in the encoding that goes by `name`. -/
def bytes (name : String) (e : Encoding) (s : String) : Except EncodeFailure ByteArray :=
  match e with
  | utf8 => .ok s.toUTF8
  | utf8Marked => .ok (String.singleton mark ++ s).toUTF8
  | utf16 big marked =>
    .ok ⟨((if marked then [mark] else []) ++ s.toList).flatMap (units big) |>.toArray⟩
  | utf32 big marked =>
    .ok ⟨((if marked then [mark] else []) ++ s.toList).flatMap (fourBytes big ·.toNat) |>.toArray⟩
  | utf7 => .ok (asciiBytes (SevenBit.encode s.toList))
  | escaped raw => .ok (asciiBytes (s.toList.flatMap (escape raw)))
  | punycode => .ok (asciiBytes (Punycode.encode s.toList))
  | refusing => .error <| .unencodable <|
      "encoding with '" ++ name ++ "' codec failed (UnicodeError: undefined encoding)"
  | binary => .error .notOfTexts
  | e => e.singleBytes s.toList

end Encoding

/-- The bytes of a text in the encoding of a name. -/
def encode (name s : String) : Except EncodeFailure ByteArray :=
  if name.toList.contains '\x00' then .error .nullInName
  else
    match Encoding.ofName? name with
    | some e => e.bytes name s
    | none => .error .unknown

end Polyad.Text
