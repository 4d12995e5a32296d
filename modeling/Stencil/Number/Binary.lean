import Stencil.Number.Power

/-!
# Binary floating-point formats

A finite number of a binary format is `mantissa * 2 ^ exponent` with a bounded mantissa and a
bounded exponent. Two questions are answered here in exact arithmetic of natural numbers:
which number of the format lies nearest to a given decimal number (`nearest`, ties to the
even mantissa), and which number a bit pattern stands for (`decode`).

The format of interest is `binary64`.
-/

namespace Stencil.Number

/-- The shape of a binary format: bits of precision, bits of the exponent field. The least
exponent follows from them. -/
structure BinaryFormat where
  precision : Nat
  exponentBits : Nat
  deriving Repr

namespace BinaryFormat

/-- Double precision. -/
def binary64 : BinaryFormat := ⟨53, 11⟩

/-- The exponent of the least positive number. -/
def leastExponent (f : BinaryFormat) : Int :=
  3 - (twoPow (f.exponentBits - 1) : Int) - f.precision

/-- The all-ones exponent field, which marks infinities and not-a-number patterns. -/
def topField (f : BinaryFormat) : Nat := twoPow f.exponentBits - 1

/-- The bit pattern of positive infinity. -/
def infinity (f : BinaryFormat) : Nat := f.topField * twoPow (f.precision - 1)

/-- A bit pattern that is not a number. -/
def notANumber (f : BinaryFormat) : Nat := f.infinity + twoPow (f.precision - 2)

/-- The weight of the sign bit. -/
def signWeight (f : BinaryFormat) : Nat := twoPow (f.exponentBits + f.precision - 1)

end BinaryFormat

/-- The quotient rounded to the nearest integer, a tie to the even neighbour. -/
def roundDivEven (num den : Nat) : Nat :=
  let q := num / den
  let r := num % den
  if 2 * r < den then q
  else if den < 2 * r then q + 1
  else if q % 2 = 0 then q else q + 1

/-- `num / den` scaled by `2 ^ (-e)`, again as a fraction. -/
def scaleFraction (num den : Nat) (e : Int) : Nat × Nat :=
  if 0 ≤ e then (num, den * twoPow e.toNat) else (num * twoPow (-e).toNat, den)

/-- The bit pattern (without sign) of the number of the format nearest to `num / den`. -/
def nearestFraction (f : BinaryFormat) (num den : Nat) : Nat :=
  if num = 0 then 0
  else
    let guess : Int := max ((num.log2 : Int) - den.log2 - f.precision) f.leastExponent
    let (n₀, d₀) := scaleFraction num den guess
    let e : Int := if twoPow f.precision ≤ n₀ / d₀ then guess + 1 else guess
    let (n, d) := scaleFraction num den e
    let m := roundDivEven n d
    if m < twoPow (f.precision - 1) then m
    else
      let pattern := ((e - f.leastExponent).toNat + 1) * twoPow (f.precision - 1) +
        (m - twoPow (f.precision - 1))
      min pattern f.infinity

/-- The bit pattern (without sign) of the number of the format nearest to
`m * 10 ^ e`. Exponents far outside the range of the format are settled by size alone. -/
def nearest (f : BinaryFormat) (m : Nat) (e : Int) : Nat :=
  let digits : Int := (Nat.toDigits 10 m).length
  if m = 0 then 0
  else if 400 < digits + e then f.infinity
  else if digits + e < -400 then 0
  else if 0 ≤ e then nearestFraction f (m * tenPow e.toNat) 1
  else nearestFraction f m (tenPow (-e).toNat)

/-- What a bit pattern stands for. -/
inductive Decoded where
  | notANumber
  | infinite (negative : Bool)
  | finite (negative : Bool) (mantissa : Nat) (exponent : Int)
  deriving Repr, DecidableEq

/-- Reads a bit pattern. -/
def decode (f : BinaryFormat) (pattern : Nat) : Decoded :=
  let negative := f.signWeight ≤ pattern
  let body := pattern % f.signWeight
  let field := body / twoPow (f.precision - 1)
  let fraction := body % twoPow (f.precision - 1)
  if field = f.topField then
    if fraction = 0 then .infinite negative else .notANumber
  else if field = 0 then .finite negative fraction f.leastExponent
  else .finite negative (fraction + twoPow (f.precision - 1)) (f.leastExponent + field - 1)

/-- A decimal number in positional or exponent notation: digits with at most one point and at
least one digit, then optionally `e` with a whole exponent. Gives the digits as one number
and its power of ten. -/
def readDecimal? (cs : List Char) : Option (Nat × Int) :=
  let (whole, rest) := cs.span Char.isDigit
  let (fraction, rest) :=
    match rest with
    | '.' :: r => r.span Char.isDigit
    | r => ([], r)
  if whole = [] ∧ fraction = [] then none
  else
    let m := (whole ++ fraction).foldl (fun n c => n * 10 + (c.toNat - '0'.toNat)) 0
    match rest with
    | [] => some (m, -(fraction.length : Int))
    | c :: r =>
      if c = 'e' ∨ c = 'E' then
        let (negative, ds) :=
          match r with
          | '-' :: ds => (true, ds)
          | '+' :: ds => (false, ds)
          | ds => (false, ds)
        if ds ≠ [] ∧ ds.all Char.isDigit then
          let e : Int := ds.foldl (fun n c => n * 10 + (c.toNat - '0'.toNat)) (0 : Nat)
          some (m, (if negative then -e else e) - fraction.length)
        else none
      else none

/-- The bit pattern of the number that a text denotes in a format: a decimal number, `inf`,
`infinity` or `nan` in any case, each with an optional sign. -/
def readBinary? (f : BinaryFormat) (cs : List Char) : Option Nat :=
  let (sign, body) :=
    match cs with
    | '-' :: r => (f.signWeight, r)
    | '+' :: r => (0, r)
    | r => (0, r)
  let word := body.map Char.toLower
  if word = ['i', 'n', 'f'] ∨ word = ['i', 'n', 'f', 'i', 'n', 'i', 't', 'y'] then
    some (sign + f.infinity)
  else if word = ['n', 'a', 'n'] then some (sign + f.notANumber)
  else (readDecimal? body).map fun (m, e) => sign + nearest f m e

/-- Reads a whole text as a double-precision number. -/
def readFloat? (cs : List Char) : Option Float :=
  (readBinary? .binary64 cs).map fun n => Float.ofBits n.toUInt64

end Stencil.Number
