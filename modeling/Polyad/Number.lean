import Polyad.Decimal.Reader

/-!
# Numbers

Whole and floating point numbers compare by their exact values, which are rationals unless they are
infinite or not a number. The code of a number is the one under which it is filed in a mapping or a
set: equal numbers have equal codes.
-/

namespace Polyad

inductive Number where
  | nan
  | infinite (negative : Bool)
  | exact (q : Rat)
  deriving DecidableEq

namespace Number

def ofInt (n : Int) : Number := exact n

/-- The value of a finite binary number. -/
def ofBinary (b : Decimal.Binary) : Rat :=
  let n : Int := b.mantissa * Decimal.twoTo b.exponent.toNat
  mkRat (if b.negative then -n else n) (Decimal.twoTo (-b.exponent).toNat)

def ofFloat (x : Float) : Number :=
  match Decimal.classify x with
  | .nan => nan
  | .infinite negative => infinite negative
  | .finite b => exact (ofBinary b)

/-- Equality by value; not-a-number differs from everything. -/
def same : Number → Number → Bool
  | nan, _ => false
  | _, nan => false
  | a, b => a == b

def less : Number → Number → Bool
  | nan, _ => false
  | _, nan => false
  | infinite a, infinite b => a && !b
  | infinite negative, exact _ => negative
  | exact _, infinite negative => !negative
  | exact p, exact q => p < q

theorem same_eq_true_iff {a b : Number} : same a b = true ↔ a = b ∧ a ≠ nan := by
  cases a <;> cases b <;> simp [same]

/-! ## Codes -/

/-- Codes are taken modulo this prime, `2 ^ 61 - 1`. -/
def modulus : Nat := 2305843009213693951

/-- The code of a whole number; minus one is no code. -/
def signedCode (n : Int) : Int := if n == -1 then -2 else n

/-- The code of a rational whose denominator is a power of two: dividing by two is multiplying by
`2 ^ 60` under the modulus. -/
def rationalCode (q : Rat) : Int :=
  let shift := (61 - q.den.log2 % 61) % 61
  let n : Int := (q.num.natAbs * Decimal.twoTo shift % modulus : Nat)
  signedCode (if q.num < 0 then -n else n)

/-- The code of a number that has one by its value. -/
def code? : Number → Option Int
  | nan => none
  | infinite negative => some (if negative then -314159 else 314159)
  | exact q => some (rationalCode q)

/-- The code of a tuple from those of its items, each stirred into 64 bits in turn. -/
def tupleCode (codes : List Int) : Int :=
  let start : UInt64 := 2870177450012600261
  let stirred := codes.foldl (fun (mixed : UInt64) code =>
    let mixed := mixed + (Int64.ofInt code).toUInt64 * 14029467366897019727
    (mixed <<< 31 ||| mixed >>> 33) * 11400714785074694791) start
  let mixed := stirred + (UInt64.ofNat codes.length ^^^ (start ^^^ 3527539))
  if mixed + 1 == 0 then 1546275796 else mixed.toInt64.toInt

end Number
end Polyad
