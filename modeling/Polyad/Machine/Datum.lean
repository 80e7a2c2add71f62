import Polyad.Code.Same
import Polyad.Number

/-!
# Data at run time

What generated code works on: native values, instances on the heap, classes and callables. Floating
point numbers and collections carry a label that tells them apart from their equals: a collection
takes an item for itself even if it differs from everything, and two lists of the same items are
two. Other native values have no identity beyond what they hold.
-/

namespace Polyad.Machine

/-- What a value is filed under in a mapping. Texts are filed under themselves. -/
inductive Digest where
  | number (n : Int)
  | float (label : Nat)
  | text (s : String)
  | tuple (items : List Digest)
  | named (s : String)
  | identity (id : Nat)
  deriving Repr

namespace Digest

mutual

def same : Digest → Digest → Bool
  | number a, number b => a == b
  | float a, float b => a == b
  | text a, text b => a == b
  | tuple as, tuple bs => sameAll as bs
  | named a, named b => a == b
  | identity a, identity b => a == b
  | _, _ => false

def sameAll : List Digest → List Digest → Bool
  | [], [] => true
  | a :: as, b :: bs => same a b && sameAll as bs
  | _, _ => false

end

mutual

theorem same_iff : ∀ {a b : Digest}, same a b = true ↔ a = b
  | number _, b => by cases b <;> simp [same]
  | float _, b => by cases b <;> simp [same]
  | text _, b => by cases b <;> simp [same]
  | tuple as, b => by cases b <;> simp [same, @sameAll_iff as]
  | named _, b => by cases b <;> simp [same]
  | identity _, b => by cases b <;> simp [same]

theorem sameAll_iff : ∀ {as bs : List Digest}, sameAll as bs = true ↔ as = bs
  | [], bs => by cases bs <;> simp [sameAll]
  | a :: as, bs => by cases bs <;> simp [sameAll, same_iff (a := a), @sameAll_iff as]

end

/-- The code of a mapping key that is a number or made of such. -/
def number? : Digest → Option Int
  | number n => some n
  | _ => none

/-- The digest of a tuple from those of its items: a code if they all have one. -/
def ofItems (items : List Digest) : Digest :=
  match items.mapM number? with
  | some codes => number (Number.tupleCode codes)
  | none => tuple items

end Digest

/-- Code that can be run: a function of a generated file or a method of a supporting class. -/
inductive Routine where
  | written (f : Code.Function)
  | support (owner name : String)
  deriving DecidableEq

/-- What every file can call without importing it. -/
inductive Builtin where
  | bool
  | hash
  | isinstance
  | iter
  | len
  | type
  | unsupported
  | warnings
  | warn
  deriving DecidableEq, Repr

/-- Functions that callers hand to a tuple. -/
inductive Callback where
  | args
  | sum
  | count
  | first
  | last
  | reverse
  | const
  | ascending
  | noArgs
  deriving DecidableEq, Repr

inductive Datum where
  | null
  | bool (b : Bool)
  | int (n : Int)
  | float (x : Float) (label : Nat)
  | text (s : String)
  | list (items : List Datum) (label : Nat)
  | tuple (items : List Datum) (label : Nat)
  | dict (entries : List (Datum × Datum)) (label : Nat)
  | slice (start stop step : Datum)
  | iterator (items : List Datum)
  | digest (d : Digest)
  | object (id : Nat)
  | type (name : String)
  | routine (r : Routine)
  | method (self : Datum) (r : Routine)
  | builtin (b : Builtin)
  | callback (c : Callback) (extra : List Datum)
  /-- The answer of a comparison that does not know the other side. -/
  | notImplemented
  /-- A failure that can be raised. -/
  | failure (message : String)
  deriving Inhabited

namespace Datum

/-- The number a value is; truth values count as 0 and 1. -/
def number? : Datum → Option Number
  | bool b => some (.ofInt (if b then 1 else 0))
  | int n => some (.ofInt n)
  | float x _ => some (.ofFloat x)
  | digest (.number n) => some (.ofInt n)
  | _ => none

/-- The whole number a value is. -/
def whole? : Datum → Option Int
  | bool b => some (if b then 1 else 0)
  | int n => some n
  | digest (.number n) => some n
  | _ => none

mutual

/-- Whether two values are one and the same. -/
def identical : Datum → Datum → Bool
  | null, null => true
  | bool a, bool b => a == b
  | int a, int b => a == b
  | float x i, float y j => i == j && x.toBits == y.toBits
  | text a, text b => a == b
  | list xs i, list ys j => i == j && identicalAll xs ys
  | tuple xs i, tuple ys j => i == j && identicalAll xs ys
  | dict xs i, dict ys j => i == j && identicalEntries xs ys
  | slice a b c, slice a' b' c' => identical a a' && identical b b' && identical c c'
  | iterator xs, iterator ys => identicalAll xs ys
  | digest a, digest b => a.same b
  | object i, object j => i == j
  | type a, type b => a == b
  | routine r, routine s => r == s
  | method x r, method y s => identical x y && r == s
  | builtin a, builtin b => a == b
  | callback c xs, callback d ys => c == d && identicalAll xs ys
  | notImplemented, notImplemented => true
  | failure a, failure b => a == b
  | _, _ => false

def identicalAll : List Datum → List Datum → Bool
  | [], [] => true
  | x :: xs, y :: ys => identical x y && identicalAll xs ys
  | _, _ => false

def identicalEntries : List (Datum × Datum) → List (Datum × Datum) → Bool
  | [], [] => true
  | (k, v) :: xs, (k', v') :: ys =>
    identical k k' && identical v v' && identicalEntries xs ys
  | _, _ => false

end

/-- A floating point number is determined by its bits. -/
theorem toBits_inj {x y : Float} : x.toBits = y.toBits ↔ x = y := by
  refine ⟨fun same => ?_, fun eq => eq ▸ rfl⟩
  obtain ⟨⟨a, _⟩⟩ := x
  obtain ⟨⟨b, _⟩⟩ := y
  cases same
  rfl

mutual

/-- Nothing but a value itself is one and the same with it. -/
theorem identical_iff : ∀ {x y : Datum}, identical x y = true ↔ x = y
  | null, y => by cases y <;> simp [identical]
  | bool _, y => by cases y <;> simp [identical]
  | int _, y => by cases y <;> simp [identical]
  | float .., y => by cases y <;> simp [identical, toBits_inj, and_comm]
  | text _, y => by cases y <;> simp [identical]
  | list xs _, y => by cases y <;> simp [identical, @identicalAll_iff xs, and_comm]
  | tuple xs _, y => by cases y <;> simp [identical, @identicalAll_iff xs, and_comm]
  | dict xs _, y => by cases y <;> simp [identical, @identicalEntries_iff xs, and_comm]
  | slice a b c, y => by
    cases y <;> simp [identical, identical_iff (x := a), identical_iff (x := b),
      identical_iff (x := c), and_assoc]
  | iterator xs, y => by cases y <;> simp [identical, @identicalAll_iff xs]
  | digest _, y => by cases y <;> simp [identical, Digest.same_iff]
  | object _, y => by cases y <;> simp [identical]
  | type _, y => by cases y <;> simp [identical]
  | routine _, y => by cases y <;> simp [identical]
  | method x _, y => by cases y <;> simp [identical, identical_iff (x := x)]
  | builtin _, y => by cases y <;> simp [identical]
  | callback _ xs, y => by cases y <;> simp [identical, @identicalAll_iff xs]
  | notImplemented, y => by cases y <;> simp [identical]
  | failure _, y => by cases y <;> simp [identical]

theorem identicalAll_iff : ∀ {xs ys : List Datum}, identicalAll xs ys = true ↔ xs = ys
  | [], ys => by cases ys <;> simp [identicalAll]
  | x :: xs, ys => by
    cases ys <;> simp [identicalAll, identical_iff (x := x), @identicalAll_iff xs]

theorem identicalEntries_iff : ∀ {xs ys : List (Datum × Datum)},
    identicalEntries xs ys = true ↔ xs = ys
  | [], ys => by cases ys <;> simp [identicalEntries]
  | (k, v) :: xs, ys => by
    rcases ys with - | ⟨⟨l, w⟩, ys⟩ <;>
      simp [identicalEntries, identical_iff (x := k), identical_iff (x := v),
        @identicalEntries_iff xs]

end

instance : DecidableEq Datum := fun _ _ => decidable_of_iff _ identical_iff

/-- The classes a native value is an instance of, nearest first. -/
def nativeTypes : Datum → List String
  | null => ["NoneType", "object"]
  | bool _ => ["bool", "int", "object"]
  | int _ => ["int", "object"]
  | digest _ => ["int", "object"]
  | float .. => ["float", "object"]
  | text _ => ["str", "object"]
  | list .. => ["list", "object"]
  | tuple .. => ["tuple", "object"]
  | dict .. => ["dict", "object"]
  | slice .. => ["slice", "object"]
  | iterator _ => ["tuple_iterator", "object"]
  | type _ => ["type", "object"]
  | routine _ => ["function", "object"]
  | callback .. => ["function", "object"]
  | method .. => ["method", "object"]
  | builtin _ => ["builtin_function_or_method", "object"]
  | notImplemented => ["NotImplementedType", "object"]
  | failure _ => ["NotImplementedError", "object"]
  | object _ => ["object"]

/-- Whether a value other than an instance counts as present. -/
def nativeTruth : Datum → Bool
  | null => false
  | bool b => b
  | int n => n != 0
  | float x _ => Number.ofFloat x != .exact 0
  | text s => s != ""
  | list items _ => !items.isEmpty
  | tuple items _ => !items.isEmpty
  | dict entries _ => !entries.isEmpty
  | digest (.number n) => n != 0
  | _ => true

end Datum
end Polyad.Machine
