/-!
# Shortest decimals

The text of a binary floating point number: the fewest digits that read back as it, of those the
nearest. `Shortest.digits` works on the exact value `m * 2 ^ q` in whole numbers; `format` lays the
digits out, positionally for exponents from -4 to 15 and with a power of ten otherwise.
-/

namespace Polyad.Decimal

/-- The value of a one with `n` binary places after it. -/
def twoTo (n : Nat) : Nat := Nat.pow 2 n

/-- The value of a one with `n` decimal places after it. -/
def tenTo (n : Nat) : Nat := Nat.pow 10 n

/-- A finite number as sign, mantissa and power of two. -/
structure Binary where
  negative : Bool
  mantissa : Nat
  exponent : Int
  deriving DecidableEq, Repr

inductive Kind where
  | nan
  | infinite (negative : Bool)
  | finite (b : Binary)
  deriving DecidableEq, Repr

/-- The exact value behind the 64 bits of a number. -/
def classify (x : Float) : Kind :=
  let bits := x.toBits.toNat
  let negative := bits / twoTo 63 == 1
  let biased : Nat := bits / twoTo 52 % twoTo 11
  let fraction : Nat := bits % twoTo 52
  if biased == 2047 then (if fraction == 0 then .infinite negative else .nan)
  else if biased == 0 then .finite ⟨negative, fraction, -1074⟩
  else .finite ⟨negative, twoTo 52 + fraction, (biased : Int) - 1075⟩

/-- The decimal digits of a number, most significant first. -/
def natDigits (n : Nat) : List Char := Nat.toDigits 10 n

/-- Digits `c` and a power of ten: the value `c * 10 ^ power`. -/
structure Scaled where
  digits : Nat
  power : Int
  deriving DecidableEq, Repr

/-- Whether `a * 2 ^ i ≤ c * 10 ^ k`. -/
def leScaled (a : Nat) (i : Int) (c : Nat) (k : Int) : Bool :=
  a * twoTo i.toNat * tenTo (-k).toNat ≤ c * tenTo k.toNat * twoTo (-i).toNat

/-- Whether `c * 10 ^ k ≤ a * 2 ^ i`. -/
def geScaled (a : Nat) (i : Int) (c : Nat) (k : Int) : Bool :=
  c * tenTo k.toNat * twoTo (-i).toNat ≤ a * twoTo i.toNat * tenTo (-k).toNat

/-- The power of ten of the first digit of `m * 2 ^ q`, for a positive `m`. -/
def leadingPower (m : Nat) (q : Int) : Int :=
  let num := m * twoTo q.toNat
  let den := twoTo (-q).toNat
  if den ≤ num then ((natDigits (num / den)).length : Int) - 1
  else
    let t := (natDigits (den / num)).length
    if den ≤ num * tenTo (t - 1) then 1 - (t : Int) else -(t : Int)

/-- The reals that round to `m * 2 ^ q`, in quarters of its last place: the gap below a power of two
is half as wide, and the ends belong to an even mantissa. -/
structure Interval where
  low : Nat
  high : Nat
  scale : Int
  closed : Bool

def Interval.around (m : Nat) (q : Int) : Interval where
  low := if m == twoTo 52 && q > -1074 then 4 * m - 1 else 4 * m - 2
  high := 4 * m + 2
  scale := q - 2
  closed := m % 2 == 0

def Interval.holds (I : Interval) (c : Nat) (k : Int) : Bool :=
  if I.closed then leScaled I.low I.scale c k && geScaled I.high I.scale c k
  else !geScaled I.low I.scale c k && !leScaled I.high I.scale c k

/-- The point of the grid `10 ^ k` that stands for `m * 2 ^ q`, if one rounds to it: the nearer of
the two neighbours, of two equally near the even one. -/
def onGrid? (m : Nat) (q k : Int) : Option Nat :=
  let I := Interval.around m q
  let num := m * twoTo q.toNat * tenTo (-k).toNat
  let den := twoTo (-q).toNat * tenTo k.toNat
  let below := num / den
  let rest := num % den
  let nearest := if 2 * rest < den then below else if 2 * rest > den then below + 1
    else if below % 2 == 0 then below else below + 1
  if I.holds nearest k then some nearest
  else if I.holds below k then some below
  else if I.holds (below + 1) k then some (below + 1)
  else none

/-- The first grid from `k` downwards with a point for `m * 2 ^ q`, trying `fuel` of them. -/
def firstGrid (m : Nat) (q : Int) : Nat → Int → Scaled
  | 0, k => ⟨m, k⟩
  | fuel + 1, k =>
    match onGrid? m q k with
    | some c => ⟨c, k⟩
    | none => firstGrid m q fuel (k - 1)

/-- Seventeen digits always suffice. -/
def shortest (m : Nat) (q : Int) : Scaled := firstGrid m q 17 (leadingPower m q)

/-- The digits without trailing zeros. -/
def significant (c : Nat) : List Char :=
  ((natDigits c).reverse.dropWhile (· == '0')).reverse

def exponentText (e : Int) : List Char :=
  let ds := natDigits e.natAbs
  (if e < 0 then '-' else '+') :: (if ds.length < 2 then '0' :: ds else ds)

/-- Digits with the point after the first `point` of them, which may lie outside them. -/
def positional (ds : List Char) (point : Int) : List Char :=
  if point ≤ 0 then '0' :: '.' :: List.replicate (-point).toNat '0' ++ ds
  else if ds.length ≤ point.toNat then
    ds ++ List.replicate (point.toNat - ds.length) '0' ++ ['.', '0']
  else ds.take point.toNat ++ '.' :: ds.drop point.toNat

def scientific (ds : List Char) (e : Int) : List Char :=
  match ds with
  | [] => []
  | [d] => d :: 'e' :: exponentText e
  | d :: rest => d :: '.' :: rest ++ 'e' :: exponentText e

/-- The text of a positive value given by its shortest digits. -/
def layOut (s : Scaled) : List Char :=
  let all := natDigits s.digits
  let e : Int := s.power + all.length - 1
  let ds := significant s.digits
  if -4 ≤ e && e < 16 then positional ds (e + 1) else scientific ds e

def format (x : Float) : String :=
  match classify x with
  | .nan => "nan"
  | .infinite negative => if negative then "-inf" else "inf"
  | .finite b =>
    let body := if b.mantissa == 0 then ['0', '.', '0'] else layOut (shortest b.mantissa b.exponent)
    String.ofList (if b.negative then '-' :: body else body)

/-- The whole number a floating point number equals, if there is one. -/
def toInt? (x : Float) : Option Int :=
  match classify x with
  | .finite b =>
    let sign : Int := if b.negative then -1 else 1
    if 0 ≤ b.exponent then some (sign * (b.mantissa * twoTo b.exponent.toNat : Nat))
    else
      let den := twoTo (-b.exponent).toNat
      if b.mantissa % den == 0 then some (sign * (b.mantissa / den : Nat)) else none
  | _ => none

/-- Whether the whole number `n` is at most `x`. -/
def intLe (n : Int) (x : Float) : Bool :=
  match classify x with
  | .nan => false
  | .infinite negative => !negative
  | .finite b =>
    let value : Int := (if b.negative then -1 else 1) * (b.mantissa : Int) * twoTo b.exponent.toNat
    n * twoTo (-b.exponent).toNat ≤ value

/-- Whether `x` is at most the whole number `n`. -/
def leInt (x : Float) (n : Int) : Bool := intLe (-n) (-x)

/-- The nearest floating point number to `mantissa * 10 ^ exponent`. -/
def toFloat (mantissa : Nat) (exponent : Int) : Float :=
  if mantissa == 0 then 0.0
  else
    let size := (natDigits mantissa).length + exponent
    if size > 400 then 1.0 / 0.0
    else if size < -400 then 0.0
    else Float.ofScientific mantissa (exponent < 0) exponent.natAbs

end Polyad.Decimal
