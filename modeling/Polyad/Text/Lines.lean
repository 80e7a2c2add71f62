import Polyad.Text.Classes

/-!
# Lines

Texts as lists of lines. `lines` and `joinLines` cut at line feeds only; `unifyBreaks` makes every
line break a line feed in one pass, `normalize` by replacing one spelling after the other, and
leaves exactly one at the end; `paragraphs` cuts at every character that any convention takes for a
line boundary.
-/

namespace Polyad.Text

/-- The lines between the line feeds; a final line feed opens one more, empty line. -/
def lines (s : String) : List String :=
  (s.toList.splitOn '\n').map String.ofList

def joinLines (ls : List String) : String := "\n".intercalate ls

def unifyBreaksOnto (done : List Char) : List Char → List Char
  | [] => done.reverse
  | '\r' :: '\n' :: rest => unifyBreaksOnto ('\n' :: done) rest
  | '\r' :: rest => unifyBreaksOnto ('\n' :: done) rest
  | c :: rest => unifyBreaksOnto (c :: done) rest

/-- Each line break, however written, as one line feed: a carriage return and the line feed right
after it are one break. -/
def unifyBreaks (cs : List Char) : List Char := unifyBreaksOnto [] cs

theorem unifyBreaksOnto_append (done more cs : List Char) :
    unifyBreaksOnto (done ++ more) cs = more.reverse ++ unifyBreaksOnto done cs := by
  fun_induction unifyBreaksOnto done cs with
  | case1 done => simp [unifyBreaksOnto]
  | case2 done rest ih => rw [unifyBreaksOnto, ← ih, List.cons_append]
  | case3 done rest h ih => rw [unifyBreaksOnto.eq_3 _ _ h, ← ih, List.cons_append]
  | case4 done c rest h1 h2 ih => rw [unifyBreaksOnto.eq_4 _ _ _ h1 h2, ← ih, List.cons_append]

/-- A carriage return and a line feed are one break. -/
theorem unifyBreaks_break (rest : List Char) :
    unifyBreaks ('\r' :: '\n' :: rest) = '\n' :: unifyBreaks rest :=
  unifyBreaksOnto_append [] ['\n'] rest

/-- A carriage return alone is one too. -/
theorem unifyBreaks_return {rest : List Char} (alone : rest.head? ≠ some '\n') :
    unifyBreaks ('\r' :: rest) = '\n' :: unifyBreaks rest := by
  have split : ∀ more, rest = '\n' :: more → False := by
    rintro more rfl
    exact alone rfl
  rw [unifyBreaks, unifyBreaksOnto.eq_3 _ _ split]
  exact unifyBreaksOnto_append [] ['\n'] rest

theorem unifyBreaks_cons {c : Char} (ne : c ≠ '\r') (rest : List Char) :
    unifyBreaks (c :: rest) = c :: unifyBreaks rest := by
  rw [unifyBreaks, unifyBreaksOnto.eq_4 _ _ _ (fun _ h => absurd h ne) ne]
  exact unifyBreaksOnto_append [] [c] rest

/-- Reads on after `skip` characters, which are the rest of an occurrence. -/
def replaceOnto (old new done : List Char) : Nat → List Char → List Char
  | _, [] => done.reverse
  | skip + 1, _ :: rest => replaceOnto old new done skip rest
  | 0, c :: rest =>
    if old <+: c :: rest then replaceOnto old new (new.reverse ++ done) (old.length - 1) rest
    else replaceOnto old new (c :: done) 0 rest

/-- Puts `new` in place of each occurrence of `old`, which is not empty, from left to right and
without overlaps. -/
def replaceAll (old new cs : List Char) : List Char := replaceOnto old new [] 0 cs

theorem replaceOnto_append (old new done more : List Char) (skip : Nat) (cs : List Char) :
    replaceOnto old new (done ++ more) skip cs =
      more.reverse ++ replaceOnto old new done skip cs := by
  fun_induction replaceOnto old new done skip cs with
  | case1 done skip => simp [replaceOnto]
  | case2 done skip c rest ih => rw [replaceOnto, ih]
  | case3 done c rest here ih => rw [replaceOnto, if_pos here, ← List.append_assoc, ih]
  | case4 done c rest other ih => rw [replaceOnto, if_neg other, ← List.cons_append, ih]

theorem replaceOnto_skip (old new done xs rest : List Char) :
    replaceOnto old new done xs.length (xs ++ rest) = replaceOnto old new done 0 rest := by
  induction xs with
  | nil => rfl
  | cons x xs ih => exact ih

/-- An occurrence at the start is replaced, and the search goes on after it. -/
theorem replaceAll_occurrence (o : Char) (os new rest : List Char) :
    replaceAll (o :: os) new (o :: (os ++ rest)) = new ++ replaceAll (o :: os) new rest := by
  have here : o :: os <+: o :: (os ++ rest) := List.prefix_append (o :: os) rest
  have after := replaceOnto_append (o :: os) new [] new.reverse 0 rest
  rw [List.nil_append, List.reverse_reverse] at after
  rw [replaceAll, replaceOnto, if_pos here, List.append_nil]
  exact (replaceOnto_skip (o :: os) new new.reverse os rest).trans after

theorem replaceAll_cons {old : List Char} {c : Char} {rest : List Char}
    (other : ¬ old <+: c :: rest) (new : List Char) :
    replaceAll old new (c :: rest) = c :: replaceAll old new rest := by
  rw [replaceAll, replaceOnto, if_neg other]
  exact replaceOnto_append old new [] [c] 0 rest

def dropTrailing (x : Char) (cs : List Char) : List Char :=
  (cs.reverse.dropWhile (· == x)).reverse

def dropLeading (x : Char) (cs : List Char) : List Char := cs.dropWhile (· == x)

/-- Line feeds only, and exactly one at the end: pairs become line feeds first, then the carriage
returns that are left. -/
def normalize (s : String) : String :=
  let paired := replaceAll ['\r', '\n'] ['\n'] s.toList
  String.ofList (dropTrailing '\n' (replaceAll ['\r'] ['\n'] paired) ++ ['\n'])

/-- Replacing the pairs and then the single returns puts every break right: a line feed that a pair
leaves behind is not read again, and no return that is left stands before one. -/
theorem replaceAll_replaceAll (cs : List Char) :
    replaceAll ['\r'] ['\n'] (replaceAll ['\r', '\n'] ['\n'] cs) = unifyBreaks cs := by
  induction cs with
  | nil => rfl
  | cons c cs ih =>
    by_cases ret : c = '\r'
    · subst ret
      cases cs with
      | nil => rfl
      | cons d ds =>
        by_cases feed : d = '\n'
        · subst feed
          -- a pair leaves behind what its line feed alone would, which the hypothesis is about
          have own : replaceAll ['\r', '\n'] ['\n'] ('\n' :: ds) =
              '\n' :: replaceAll ['\r', '\n'] ['\n'] ds := replaceAll_cons (by simp) _
          have pair : replaceAll ['\r', '\n'] ['\n'] ('\r' :: '\n' :: ds) =
              '\n' :: replaceAll ['\r', '\n'] ['\n'] ds := replaceAll_occurrence _ _ _ _
          rw [pair, ← own, ih, unifyBreaks_break, unifyBreaks_cons (by decide)]
        · have alone : replaceAll ['\r', '\n'] ['\n'] ('\r' :: d :: ds) =
              '\r' :: replaceAll ['\r', '\n'] ['\n'] (d :: ds) :=
            replaceAll_cons (by simpa using Ne.symm feed) _
          rw [alone, unifyBreaks_return (by simpa using feed), ← ih]
          exact replaceAll_occurrence _ [] _ _
    · have kept (old new rest : List Char) :
          replaceAll ('\r' :: old) new (c :: rest) = c :: replaceAll ('\r' :: old) new rest :=
        replaceAll_cons (by simp [Ne.symm ret]) _
      rw [kept, kept, ih, unifyBreaks_cons ret]

theorem normalize_eq (s : String) :
    normalize s = String.ofList (dropTrailing '\n' (unifyBreaks s.toList) ++ ['\n']) := by
  rw [normalize, replaceAll_replaceAll]

/-- Whether a character ends a paragraph in some convention. -/
def isBoundary (c : Char) : Bool :=
  c ∈ ['\n', '\r', '\x0b', '\x0c', '\x1c', '\x1d', '\x1e', '\x85', '\u2028', '\u2029']

def paragraphsFrom (line : List Char) : List Char → List (List Char)
  | [] => if line.isEmpty then [] else [line.reverse]
  | '\r' :: '\n' :: rest => line.reverse :: paragraphsFrom [] rest
  | c :: rest =>
    if isBoundary c then line.reverse :: paragraphsFrom [] rest
    else paragraphsFrom (c :: line) rest

/-- The lines of a text by any convention, without a last empty one. -/
def paragraphs (s : String) : List String :=
  (paragraphsFrom [] s.toList).map String.ofList

end Polyad.Text
