import Stencil.Number.Binary

/-!
# The fewest digits that read back

A binary number is shown by the decimal number with the fewest digits among those that read
back as it. The decimal numbers that read back as `m * 2 ^ q` form an interval around it;
its ends belong to it when `m` is even, and below a power of two it is half as wide. For one
digit, two digits and so on, the two neighbours of the number on that decimal grid are tested
in exact arithmetic: the first grid with a hit decides the number of digits, of two hits the
nearer wins, and a tie goes up.
-/

namespace Stencil.Number

/-- A positive decimal number `0.d₁d₂… * 10 ^ exponent` by its digits. -/
structure Digits where
  digits : List Char
  exponent : Int
  deriving Repr, DecidableEq

/-- Multiplies a fraction by a power of ten. -/
def scaleTen (x : Nat × Nat) (e : Int) : Nat × Nat :=
  if 0 ≤ e then (x.1 * tenPow e.toNat, x.2) else (x.1, x.2 * tenPow (-e).toNat)

/-- The interval of the numbers that read back as `m * 2 ^ q`. All three numbers are given
over the common denominator `den`. -/
structure Interval where
  low : Nat
  value : Nat
  high : Nat
  den : Nat
  closed : Bool
  deriving Repr

/-- The interval around `m * 2 ^ q` in a format. -/
def Interval.around (f : BinaryFormat) (m : Nat) (q : Int) : Interval :=
  let narrow := m = twoPow (f.precision - 1) ∧ f.leastExponent < q
  let up := if 2 ≤ q then twoPow (q - 2).toNat else 1
  { low := (4 * m - if narrow then 1 else 2) * up
    value := 4 * m * up
    high := (4 * m + 2) * up
    den := if 2 ≤ q then 1 else twoPow (2 - q).toNat
    closed := m % 2 = 0 }

/-- Whether `n * 10 ^ e` lies in the interval. -/
def Interval.has (i : Interval) (n : Nat) (e : Int) : Bool :=
  let (a, b) := scaleTen (n, 1) e
  let x := a * i.den
  if i.closed then decide (i.low * b ≤ x) && decide (x ≤ i.high * b)
  else decide (i.low * b < x) && decide (x < i.high * b)

/-- The least power of ten above the value: `10 ^ (k - 1) ≤ value < 10 ^ k`. The search goes
up from a bound below. -/
def Interval.magnitude (i : Interval) : Int :=
  let start : Int := (Nat.toDigits 10 i.value).length - (Nat.toDigits 10 i.den).length - 1
  let reaches (k : Int) : Bool :=
    let (a, b) := scaleTen (i.value, i.den) (-k)
    decide (a < b)
  if reaches start then start
  else if reaches (start + 1) then start + 1
  else if reaches (start + 2) then start + 2
  else start + 3

/-- The digits from the grid of step `10 ^ (k - n)`, if one of the two neighbours of the value
on it reads back. -/
def Interval.onGrid (i : Interval) (k : Int) (n : Nat) : Option Nat :=
  let e := k - n
  let (a, b) := scaleTen (i.value, i.den) (-e)
  let below := a / b
  let above := below + 1
  match i.has below e, i.has above e with
  | true, true => if 2 * (a % b) < b then some below else some above
  | true, false => some below
  | false, true => some above
  | false, false => none

/-- Tries the grids of `n`, `n + 1`, … digits, at most `fuel` of them. -/
def Interval.search (i : Interval) (k : Int) : Nat → Nat → Nat × Nat
  | 0, n => (((scaleTen (i.value, i.den) (n - k)).1 / (scaleTen (i.value, i.den) (n - k)).2), n)
  | fuel + 1, n =>
    match i.onGrid k n with
    | some d => (d, n)
    | none => i.search k fuel (n + 1)

/-- Drops the zeros at the end. -/
def dropTrailingZeros (cs : List Char) : List Char :=
  (cs.reverse.dropWhile (· == '0')).reverse

/-- The fewest digits that read back as `m * 2 ^ q`, for a positive `m`. Seventeen digits are
always enough for double precision. -/
def shortest (f : BinaryFormat) (m : Nat) (q : Int) : Digits :=
  let i := Interval.around f m q
  let k := i.magnitude
  let (d, n) := i.search k 17 1
  let ds := Nat.toDigits 10 d
  { digits := dropTrailingZeros ds
    exponent := k + ((ds.length : Int) - n) }

end Stencil.Number
