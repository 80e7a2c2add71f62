import Polyad.Value

/-!
# YAML anchors

Which values a YAML text writes once and refers to elsewhere: collections and dates whose label
stands in several places. Anchors are numbered in the order in which their values are met again.
-/

namespace Polyad.Yaml

/-- Whether a value is one thing in all its places; texts, numbers and the empty tuple are not. -/
def isShareable : Value → Bool
  | .list _ => true
  | .tuple items => !items.isEmpty
  | .dict _ => true
  | .set _ => true
  | .date _ => true
  | .moment _ => true
  | _ => false

/-- The labels met on the way through a value, and those met again, last first. -/
structure Labels where
  met : List Nat := []
  again : List Nat := []

namespace Labels

def meetAgain (s : Labels) (l : Nat) : Labels :=
  if s.again.contains l then s else { s with again := l :: s.again }

mutual

def meet (s : Labels) : Value → Labels
  | .named l v =>
    if !isShareable v then s
    else if s.met.contains l then s.meetAgain l
    else { s with met := l :: s.met }.meet v
  | .within l => s.meetAgain l
  | .list items => s.meetAll items
  | .tuple items => s.meetAll items
  | .set items => s.meetAll items
  | .dict entries => s.meetEntries entries
  | _ => s

def meetAll (s : Labels) : List Value → Labels
  | [] => s
  | v :: vs => (s.meet v).meetAll vs

def meetEntries (s : Labels) : List (Value × Value) → Labels
  | [] => s
  | (k, v) :: rest => ((s.meet k).meet v).meetEntries rest

end

end Labels

/-- The labels that need anchors, in order. -/
def anchored (v : Value) : List Nat := (({} : Labels).meet v).again.reverse

/-- The name of the anchor of a label. -/
def anchorName? (anchors : List Nat) (label : Nat) : Option String :=
  (anchors.findIdx? (· == label)).map fun i => "id" ++ padded 3 (i + 1)

end Polyad.Yaml
