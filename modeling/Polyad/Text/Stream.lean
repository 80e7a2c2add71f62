import Polyad.Text.Lines
import Polyad.Text.Utf8

/-!
# Text files

Who reads a file as text asks for one piece of it after the other. The bytes behind the pieces are
read in chunks of another size: a line break or a character may be cut in two by the end of a chunk,
and where later bytes turn out to be no text, the pieces that were full by then have been handed
out.
-/

namespace Polyad

/-- A text that comes in pieces, and what stops it before its end. -/
structure TextStream where
  pieces : List (List Char)
  failure : Option String := none
  deriving DecidableEq, Repr

namespace TextStream

/-- A text that is there as a whole. -/
def whole (s : String) : TextStream := { pieces := [s.toList] }

/-- How many characters a piece has, unless it is the last one. -/
def pieceSize : Nat := 4096

/-- The first pieces of some characters, so many, and the characters after them. -/
def cutPieces : Nat → List Char → List (List Char) × List Char
  | 0, cs => ([], cs)
  | n + 1, cs =>
    let (pieces, rest) := cutPieces n (cs.drop pieceSize)
    (cs.take pieceSize :: pieces, rest)

/-- The full pieces of some characters and what is left. -/
def fullPieces (cs : List Char) : List (List Char) × List Char :=
  cutPieces (cs.length / pieceSize) cs

def ofChars (cs : List Char) : TextStream :=
  let (pieces, last) := fullPieces cs
  { pieces := if last.isEmpty then pieces else pieces ++ [last] }

/-- The pieces of a file of some text. -/
def ofText (s : String) : TextStream := ofChars (Text.unifyBreaks s.toList)

/-- A reader of a file: the bytes still to be read, and what is left over from those before. -/
structure Reader where
  unread : List UInt8
  /-- The bytes of a character that is cut off. -/
  pending : List UInt8 := []
  /-- Whether a carriage return waits for what follows it. -/
  held : Bool := false
  /-- The characters that do not fill a piece yet. -/
  ready : List Char := []
  /-- How many bytes the last chunk had, and how many characters came of them. -/
  chunkBytes : Nat := 0
  chunkChars : Nat := 0

namespace Reader

/-- How many bytes are read at least. -/
def chunkSize : Nat := 8192

/-- How many bytes are read next: if those of the last chunk were many for their characters, so many
that the piece should become full. -/
def nextSize (r : Reader) : Nat :=
  max chunkSize (r.chunkBytes * (pieceSize - r.ready.length) / r.chunkChars)

/-- The characters that some others are after what was left over. -/
def behind (r : Reader) (cs : List Char) : List Char := if r.held then '\r' :: cs else cs

/-- The reader after one more chunk. -/
def readChunk (r : Reader) : Except String Reader := do
  let chunk := r.unread.take r.nextSize
  let data := r.pending ++ chunk
  let (done, pending) ← Text.decodeChunk data.length 0 [] data
  let cs := r.behind done.reverse
  let held := cs.getLast? == some '\r'
  let more := Text.unifyBreaks (if held then cs.dropLast else cs)
  return {
    unread := r.unread.drop r.nextSize, pending, held, ready := r.ready ++ more
    chunkBytes := chunk.length, chunkChars := more.length }

/-- What comes at the end of the file. -/
def finish (r : Reader) : TextStream :=
  match r.pending, Text.firstChar r.pending with
  | [], _ => ofChars (r.ready ++ Text.unifyBreaks (r.behind []))
  | bytes, .error bad => { pieces := [], failure := some (Text.badBytesText 0 bad bytes) }
  | _, .ok _ => { pieces := [] }

/-- All that a reader hands out. Each chunk takes at least one byte. -/
def stream : Nat → Reader → TextStream
  | 0, _ => { pieces := [] }
  | fuel + 1, r =>
    if r.unread.isEmpty then r.finish
    else
      match r.readChunk with
      | .error complaint => { pieces := [], failure := some complaint }
      | .ok r =>
        let (pieces, ready) := fullPieces r.ready
        let later := stream fuel { r with ready }
        { later with pieces := pieces ++ later.pieces }

end Reader

/-- The pieces of a file of some bytes. -/
def ofBytes (bytes : ByteArray) : TextStream :=
  Reader.stream (bytes.size + 1) { unread := bytes.toList }

end TextStream

namespace Text

/-- The text of a file of some bytes, or what is wrong with them. -/
def decodeUtf8 (bytes : ByteArray) : Except String String :=
  let t := TextStream.ofBytes bytes
  match t.failure with
  | none => .ok (String.ofList t.pieces.flatten)
  | some complaint => .error complaint

end Text
end Polyad
