import Polyad.Proofs.Text.Rows
import Polyad.Proofs.Text.Utf8
import Polyad.Text.Stream

/-!
# What is read of a text file

If the bytes of a file are those of a text, then the pieces of the text are read, wherever the
chunks end that the bytes are read in. Otherwise reading fails, and the pieces before are the start
of a text that the bytes start with.
-/

namespace Polyad.TextStream

open Text

variable {cs : List Char}

/-! ## Pieces -/

theorem fullPieces_of_lt (short : cs.length < pieceSize) : fullPieces cs = ([], cs) := by
  rw [fullPieces, Nat.div_eq_of_lt short]
  rfl

theorem fullPieces_of_le (long : pieceSize ≤ cs.length) :
    fullPieces cs =
      (cs.take pieceSize :: (fullPieces (cs.drop pieceSize)).1,
        (fullPieces (cs.drop pieceSize)).2) := by
  rw [fullPieces, Nat.div_eq_sub_div (by decide) long, ← List.length_drop]
  rfl

/-- Characters that fill no piece are cut together with those that follow. -/
theorem fullPieces_append (as bs : List Char) :
    fullPieces (as ++ bs) =
      ((fullPieces as).1 ++ (fullPieces ((fullPieces as).2 ++ bs)).1,
        (fullPieces ((fullPieces as).2 ++ bs)).2) := by
  induction size : as.length using Nat.strong_induction_on generalizing as with
  | _ n ih =>
    subst size
    by_cases short : as.length < pieceSize
    · rw [fullPieces_of_lt short]
      rfl
    · have long : pieceSize ≤ as.length := by omega
      have pos : 0 < pieceSize := by decide
      have shorter : (as.drop pieceSize).length < as.length := by
        rw [List.length_drop]
        omega
      have both : pieceSize ≤ (as ++ bs).length := by
        rw [List.length_append]
        omega
      rw [fullPieces_of_le both, fullPieces_of_le long, List.take_append_of_le_length long,
        List.drop_append_of_le_length long, ih _ shorter _ rfl]
      rfl

theorem flatten_fullPieces (cs : List Char) :
    (fullPieces cs).1.flatten ++ (fullPieces cs).2 = cs := by
  induction size : cs.length using Nat.strong_induction_on generalizing cs with
  | _ n ih =>
    subst size
    by_cases short : cs.length < pieceSize
    · rw [fullPieces_of_lt short]
      rfl
    · have long : pieceSize ≤ cs.length := by omega
      have pos : 0 < pieceSize := by decide
      have shorter : (cs.drop pieceSize).length < cs.length := by
        rw [List.length_drop]
        omega
      rw [fullPieces_of_le long, List.flatten_cons, List.append_assoc, ih _ shorter _ rfl,
        List.take_append_drop]

theorem ofChars_append (as bs : List Char) :
    ofChars (as ++ bs) =
      { pieces := (fullPieces as).1 ++ (ofChars ((fullPieces as).2 ++ bs)).pieces } := by
  simp only [ofChars, fullPieces_append as bs]
  split <;> simp

/-! ## Chunks -/

namespace Reader

variable {r r' : Reader} {complaint : String} {fuel : Nat}

/-- All that a reader hands out if characters `cs` are still to come. -/
def textWith (r : Reader) (cs : List Char) : List Char := r.ready ++ unifyBreaks (r.behind cs)

theorem behind_append (r : Reader) (cs ds : List Char) :
    r.behind (cs ++ ds) = r.behind cs ++ ds := by
  unfold behind
  split <;> rfl

/-- A return at the end of a chunk is left for the next one. -/
theorem unifyBreaks_held (cs ds : List Char) :
    unifyBreaks (cs ++ ds) =
      unifyBreaks (if cs.getLast? == some '\r' then cs.dropLast else cs) ++
        unifyBreaks (if cs.getLast? == some '\r' then '\r' :: ds else ds) := by
  split
  · next held =>
    obtain ⟨front, rfl⟩ := List.getLast?_eq_some_iff.1 (beq_iff_eq.1 held)
    rw [List.dropLast_concat, List.append_assoc, List.singleton_append]
    exact unifyBreaks_append_of_whole fun _ => by simp
  · next other =>
    exact unifyBreaks_append_of_whole fun ret => absurd (beq_iff_eq.2 ret) other

/-- A chunk is read as some characters, and nothing of the text is lost with it. -/
theorem readChunk_eq_ok (run : r.readChunk = .ok r') (some : r.unread ≠ []) :
    ∃ cs, r.pending ++ r.unread = bytesOfAll cs ++ (r'.pending ++ r'.unread) ∧
      (∀ ds, r.textWith (cs ++ ds) = r'.textWith ds) ∧
      Unread r'.pending ∧ r'.unread.length < r.unread.length := by
  cases chunk : decodeChunk (r.pending ++ r.unread.take r.nextSize).length 0 []
      (r.pending ++ r.unread.take r.nextSize) with
  | error m =>
    rw [readChunk, chunk] at run
    cases run
  | ok result =>
    obtain ⟨done, pending⟩ := result
    obtain ⟨cs, rfl, own, unread⟩ := decodeChunk_eq_ok chunk
    rw [readChunk, chunk] at run
    cases run
    refine ⟨cs, ?_, fun ds => ?_, unread (Nat.le_refl _), ?_⟩
    · rw [← List.append_assoc, ← own, List.append_assoc, List.take_append_drop]
    · rw [textWith, behind_append, unifyBreaks_held, ← List.append_assoc]
      simp [textWith, behind]
    · have pos := List.length_pos_iff.2 some
      have size : 0 < r.nextSize := Nat.lt_of_lt_of_le (by decide) (Nat.le_max_left chunkSize _)
      simp only [List.length_drop]
      omega

theorem readChunk_eq_error (run : r.readChunk = .error complaint) (ds : List Char) :
    r.pending ++ r.unread ≠ bytesOfAll ds := by
  cases chunk : decodeChunk (r.pending ++ r.unread.take r.nextSize).length 0 []
      (r.pending ++ r.unread.take r.nextSize) with
  | error m =>
    have never : _ ≠ bytesOfAll ds := decodeChunk_eq_error chunk (r.unread.drop r.nextSize)
    rwa [List.append_assoc, List.take_append_drop] at never
  | ok result =>
    rw [readChunk, chunk] at run
    cases run

/-! ## Streams -/

/-- What a stream is that comes of some bytes: the pieces of their text, or of the start of one that
they start with. -/
inductive Comes (r : Reader) (t : TextStream) : Prop where
  | text (cs : List Char) (own : r.pending ++ r.unread = bytesOfAll cs)
      (pieces : t = ofChars (r.textWith cs))
  | noText (none : ∀ ds, r.pending ++ r.unread ≠ bytesOfAll ds)
      (fails : ∃ complaint, t.failure = some complaint) (cs : List Char) (left : List UInt8)
      (start : r.pending ++ r.unread = bytesOfAll cs ++ left)
      (pieces : t.pieces.flatten <+: r.textWith cs)

theorem comes_finish (unread : Unread r.pending) (ended : r.unread = []) : r.Comes r.finish := by
  cases pending : r.pending with
  | nil =>
    refine .text [] (by rw [pending, ended]; rfl) ?_
    simp [finish, pending, textWith]
  | cons b bs =>
    obtain ⟨bad, first⟩ := unread.resolve_left (by simp [pending])
    have failed : r.finish = { pieces := [], failure := some (badBytesText 0 bad r.pending) } := by
      rw [pending] at first
      simp [finish, pending, first]
    refine .noText (fun ds eq => ?_) ⟨_, by rw [failed]⟩ [] (r.pending ++ r.unread) rfl ?_
    · rw [ended, List.append_nil] at eq
      rw [unread.eq_nil eq, pending] at eq
      cases eq
    · rw [failed]
      exact List.nil_prefix

/-- By induction on the chunks: what comes after a chunk comes after the pieces that it fills. -/
theorem comes_stream (unread : Unread r.pending) (enough : r.unread.length < fuel) :
    r.Comes (stream fuel r) := by
  induction fuel generalizing r with
  | zero => cases enough
  | succ fuel ih =>
    rw [stream]
    split
    · next ended => exact comes_finish unread (List.isEmpty_iff.1 ended)
    next more =>
    cases run : r.readChunk with
    | error complaint =>
      exact .noText (readChunk_eq_error run) ⟨_, rfl⟩ [] _ rfl List.nil_prefix
    | ok r' =>
      obtain ⟨cs, own, text, unread', shorter⟩ := readChunk_eq_ok run (by simpa using more)
      have later := ih (r := { r' with ready := (fullPieces r'.ready).2 }) unread' (by
        simp only
        omega)
      dsimp only
      generalize stream fuel { r' with ready := (fullPieces r'.ready).2 } = t at later
      cases later with
      | text ds own' pieces =>
        refine .text (cs ++ ds) ?_ ?_
        · rw [own, own', bytesOfAll, ← List.flatMap_append]
        · rw [text, textWith, ofChars_append, pieces]
          rfl
      | noText none fails ds left start pieces =>
        refine .noText (fun es eq => ?_) fails (cs ++ ds) left ?_ ?_
        · rw [own] at eq
          obtain ⟨es', -, eq'⟩ := exists_of_bytesOfAll_append eq
          exact none es' eq'
        · rw [own, start, bytesOfAll, ← List.append_assoc, ← List.flatMap_append]
        · have filled : r'.textWith ds = (fullPieces r'.ready).1.flatten ++
              textWith { r' with ready := (fullPieces r'.ready).2 } ds := by
            rw [textWith, textWith, ← List.append_assoc, flatten_fullPieces]
            rfl
          rw [text, filled, List.flatten_append]
          exact (List.prefix_append_right_inj _).2 pieces

end Reader

/-! ## Files -/

variable {bytes : ByteArray} {s : String}

theorem comes_ofBytes (bytes : ByteArray) :
    Reader.Comes { unread := bytes.data.toList } (ofBytes bytes) := by
  have list : bytes.toList = bytes.data.toList := toList_loop bytes 0 []
  rw [ofBytes, list]
  exact Reader.comes_stream (.inl rfl) (Nat.lt_succ_self _)

/-- Of the file of a text its pieces are read. -/
theorem ofBytes_of_text (text : s.toUTF8 = bytes) : ofBytes bytes = ofText s := by
  have own := toUTF8_eq_iff.1 text
  cases comes_ofBytes bytes with
  | text cs own' pieces =>
    obtain rfl : cs = s.toList := bytesOfAll_inj.1 (own'.symm.trans own)
    exact pieces
  | noText none => exact absurd own (none _)

/-- Where the file of some bytes fails to be a text: after pieces from the start of a text that the
bytes start with. -/
theorem ofBytes_of_noText (noText : ∀ s : String, s.toUTF8 ≠ bytes) :
    (∃ complaint, (ofBytes bytes).failure = some complaint) ∧
    ∃ (s : String) (left : List UInt8), bytes.data.toList = s.toUTF8.data.toList ++ left ∧
      (ofBytes bytes).pieces.flatten <+: unifyBreaks s.toList := by
  cases comes_ofBytes bytes with
  | text cs own =>
    refine absurd (toUTF8_eq_iff.2 ?_) (noText (String.ofList cs))
    rw [String.toList_ofList]
    exact own
  | noText _ fails cs left start pieces =>
    refine ⟨fails, String.ofList cs, left, ?_, ?_⟩
    · rw [toUTF8_eq_iff.1 rfl, String.toList_ofList]
      exact start
    · rw [String.toList_ofList]
      exact pieces

end Polyad.TextStream
