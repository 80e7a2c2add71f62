import Polyad.Machine.Datum

/-!
# Faults

Everything that can go wrong while generated code runs.
-/

namespace Polyad.Machine

inductive Fault where
  /-- A value of a type an operation has no meaning for, or a call with the wrong arguments. -/
  | wrongType
  | wrongKind (index kind : String)
  | noAttribute
  | cannotSet (className field : String)
  | cannotDelete (className field : String)
  | noValue (index : String) (size : Nat)
  | noItem (collection : String)
  /-- A position that no sequence has. -/
  | tooFar
  | nothingStored (index : String)
  | tooFew (expected got : Nat)
  | tooMany (expected : Nat)
  | zeroStep
  | unknownName (name : String)
  | noEntry (key : String)
  | unsupported (message : String)
  | notReconstructible
  | tooLarge
  /-- More calls inside each other than were allowed. -/
  | exhausted
  deriving DecidableEq, Repr

namespace Fault

/-- The text of a fault; some have none. -/
def message? : Fault → Option String
  | wrongType | noAttribute | notReconstructible => none
  | wrongKind i k => some ("Value stored under index " ++ i ++ " is not of type " ++ k)
  | cannotSet c a => some (c ++ " is immutable, cannot set " ++ a)
  | cannotDelete c a => some (c ++ " is immutable, cannot delete " ++ a)
  | noValue i n => some
      ("index " ++ i ++ " out of range for TupleN of size " ++ toString n)
  | noItem c => some (c ++ " index out of range")
  | tooFar => some "cannot fit 'int' into an index-sized integer"
  | nothingStored i => some ("Value under index " ++ i ++ " is None")
  | tooFew n m => some ("not enough values to unpack (expected " ++ toString n ++ ", got " ++
      toString m ++ ")")
  | tooMany n => some ("too many values to unpack (expected " ++ toString n ++ ")")
  | zeroStep => some "slice step cannot be zero"
  | unknownName n => some (Text.quoted n)
  | noEntry k => some k
  | unsupported m => some m
  | tooLarge => some "int too large to convert to float"
  | exhausted => some "maximum recursion depth exceeded"

end Fault
end Polyad.Machine
