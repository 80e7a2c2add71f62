import Polyad.Member

/-!
# Families

A tuple family: one member for each arity from 0 to a bound, in order, of which exactly the last one
extends into the open-ended tuple. `Family.ofMembers` accepts exactly those lists of members, and
`Family.build` makes the family of a bound from the naming tables.
-/

namespace Polyad

/-- The arity of each member is its position. -/
def checkPositions : Nat → List Shape → Except Error Unit
  | _, [] => .ok ()
  | n, s :: rest =>
    if (Value.int n).same s.arity then checkPositions (n + 1) rest
    else .error (.telling [s.arity] (.misplacedMember n s.arity))

/-- Exactly the member at the bound overflows. -/
def checkExtensions (bound : Value) : List Shape → Except Error Unit
  | [] => .ok ()
  | s :: rest =>
    if s.isTerminal == s.arity.same bound then checkExtensions bound rest
    else .error <| .telling [s.interfaceName]
      (.misplacedExtension s.interfaceName s.extension.name s.arity)

/-- The rules a family keeps, for members of any kind. -/
def checkFamily (bound : Value) (shapes : List Shape) : Except Error Unit :=
  match shapes.getLast? with
  | none => .error .noMembers
  | some last => do
    checkPositions 0 shapes
    if !last.arity.same bound then
      .error (.telling [last.arity, bound] (.boundMismatch last.arity bound))
    checkExtensions bound shapes

structure Family where
  maxArity : Int
  members : List Member
  consistent : checkFamily (.int maxArity) (members.map Member.shape) = .ok ()
  deriving DecidableEq

namespace Family

def ofMembers (maxArity : Int) (members : List Member) : Except Error Family :=
  match h : checkFamily (.int maxArity) (members.map Member.shape) with
  | .ok () => .ok ⟨maxArity, members, h⟩
  | .error e => .error e

/-- The member of an arity, if the family has it. -/
def get? (f : Family) (arity : Int) : Option Member := Naming.at? f.members arity

/-- The member one arity above `m`. -/
def successor? (f : Family) (m : Member) : Option Member := f.get? (m.arity + 1)

theorem members_ne_nil (f : Family) : f.members ≠ [] := by
  intro nil
  have held := f.consistent
  rw [nil] at held
  cases held

/-- The member that holds no values. -/
def null (f : Family) : Member := f.members.head f.members_ne_nil

/-- The members that hold values. -/
def proper (f : Family) : List Member := f.members.drop 1

def terminal? (f : Family) : Option Member := f.get? f.maxArity

/-- What an arity can do in a family of the given bound. -/
def capabilitiesFor (arity maxArity : Int) : Capabilities where
  pairInterop := arity == 2
  tripleInterop := arity == 3
  listProjection := true
  mapProjection := 2 ≤ arity && arity % 2 == 0
  zip := 1 ≤ arity && 2 ≤ maxArity
  chainExtension := arity < maxArity

/-- The name of the class of an arity. -/
def memberClassName (arity : Int) : Except Error String :=
  if arity == 0 then .ok "NullTuple" else Naming.familyName arity

/-- The member of an arity, named from the tables. -/
def memberFor (arity maxArity : Int) : Except Error Member := do
  let className ← memberClassName arity
  let labels ← Naming.positionLabels arity
  let typeParams ← Naming.typeParams arity
  let ordinals ← Naming.ordinals arity
  return {
    arity := arity
    interfaceName := "Tuple" ++ toString arity
    className := className
    labels := labels
    typeParams := typeParams
    ordinals := ordinals
    capabilities := capabilitiesFor arity maxArity
    extension := if arity == maxArity then .overflow else .typed }

/-- A failure to name a member of the family under construction. -/
def unnamed (arity : Int) (e : Error) : Error :=
  .arityUnnamed arity ((e.report?.map (·.message)).getD "")

def membersUpTo (maxArity : Int) : Except Error (List Member) :=
  (List.range (maxArity.toNat + 1)).mapM fun (n : Nat) =>
    (memberFor n maxArity).mapError (unnamed n)

/-- The family of the arities from 0 to `maxArity`. -/
def build (maxArity : Int) : Except Error Family :=
  if maxArity < 1 then .error (.arityTooSmall maxArity)
  else if (Naming.letterBudget : Int) < maxArity then .error (.arityTooLarge maxArity)
  else do
    let family ← ofMembers maxArity (← membersUpTo maxArity)
    family.members.forM Member.validate
    return family

/-- The family of a bound of any type; only whole numbers that are not truth values bound one. -/
def buildFrom : Value → Except Error Family
  | .int n => build n
  | v => .error (.arityNotWhole v)

end Family
end Polyad
