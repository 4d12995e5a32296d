import Stencil.Number.Power

/-!
# Decimal numbers with a scale

A decimal number is a sign, a magnitude of at most 96 bits, and a scale of at most 28: the number
of its fraction digits. The scale is kept, so `1.10` and `1.1` are written differently but denote
the same number, which is what `same` compares. A zero may carry a minus, which shows in its text
and nowhere else.

Reading accepts an optional sign, digits with at most one point, `_` after a digit, and an
exponent. Digits that do not fit are cut off; the first of them rounds the rest, a half going
up. A whole part that does not fit is refused.
-/

namespace Stencil

/-- A `magnitude` with `scale` fraction digits behind a sign. -/
structure Decimal where
  negative : Bool
  magnitude : Nat
  scale : Nat
  magnitude_lt : magnitude < Number.twoPow 96
  scale_le : scale ≤ 28
  deriving DecidableEq, Repr

namespace Decimal

open Number

/-- The least magnitude that does not fit. -/
def limit : Nat := twoPow 96

/-- The greatest scale. -/
def scaleLimit : Nat := 28

/-- The decimal number with a sign, magnitude and scale, if they fit. -/
def ofParts? (negative : Bool) (magnitude scale : Nat) : Option Decimal :=
  if h : magnitude < twoPow 96 ∧ scale ≤ 28 then some ⟨negative, magnitude, scale, h.1, h.2⟩
  else none

/-- The magnitude under its sign: the number times the power of ten of its scale. -/
def num (d : Decimal) : Int := if d.negative then -(d.magnitude : Int) else d.magnitude

/-- Whether the number is zero, at any scale and with either sign. -/
def isZero (d : Decimal) : Bool := d.magnitude == 0

/-- Whether two decimal numbers denote the same number. -/
def same (a b : Decimal) : Bool := a.num * tenPow b.scale == b.num * tenPow a.scale

/-- The written form: all `scale` fraction digits, at least one digit before the point. -/
def text (d : Decimal) : String :=
  let ds := Nat.toDigits 10 d.magnitude
  let ds := List.replicate (d.scale + 1 - ds.length) '0' ++ ds
  let whole := ds.take (ds.length - d.scale)
  let fraction := ds.drop (ds.length - d.scale)
  String.ofList ((if d.negative then ['-'] else []) ++ whole ++
    (if d.scale = 0 then [] else '.' :: fraction))

/-- What has been read so far: the digits as one magnitude, the fraction digits among them,
whether the point and whether any digit has been seen. -/
structure Reading where
  magnitude : Nat
  scale : Nat
  point : Bool
  digit : Bool

/-- The magnitudes from here on are read in wide steps. -/
def wideLimit : Nat := 1844674407370954906

/-- Whether the digits before the last one were read in wide steps already. -/
def Reading.isWide (s : Reading) : Bool := wideLimit ≤ s.magnitude / 10

/-- The characters that may follow where the digits have been cut off. -/
def isCutChar (c : Char) : Bool := c.isDigit || c == '_'

/-- The first character that no longer fits rounds the digits before it, a half up; a `_` counts
as a zero. If that makes the magnitude too great, one fraction digit is given up. Whatever
follows must still be digits and `_`. -/
def Reading.round? (s : Reading) (c : Char) (rest : List Char) : Option (Nat × Nat) :=
  if ¬ (c :: rest).all isCutChar then none
  else if c = '_' ∨ c.toNat - '0'.toNat < 5 then some (s.magnitude, s.scale)
  else if s.magnitude + 1 < limit then some (s.magnitude + 1, s.scale)
  else if s.scale = 0 then none
  else some ((s.magnitude + 5) / 10, s.scale - 1)

/-- Reads digits, `_` and the point up to the end or to the first character that does not fit,
which rounds. In wide steps a `_` in that place is passed over, in short ones it rounds. -/
def readMagnitude? (s : Reading) : List Char → Option (Nat × Nat)
  | [] => if s.digit then some (s.magnitude, s.scale) else none
  | c :: rest =>
    if s.point ∧ scaleLimit ≤ s.scale ∧ s.digit then
      if c = '_' ∧ s.isWide then readMagnitude? s rest else s.round? c rest
    else if c.isDigit then
      let m := s.magnitude * 10 + (c.toNat - '0'.toNat)
      if m < limit then
        readMagnitude? { s with
          magnitude := m, scale := if s.point then s.scale + 1 else 0, digit := true } rest
      else if s.point then s.round? c rest
      else none
    else if c = '.' ∧ ¬ s.point then readMagnitude? { s with point := true } rest
    else if c = '_' ∧ s.digit then readMagnitude? s rest
    else none

/-- Reads an optional sign and a magnitude. A zero that is read has no minus. -/
def readPlain? (cs : List Char) : Option Decimal :=
  let (negative, body) :=
    match cs with
    | '-' :: r => (true, r)
    | '+' :: r => (false, r)
    | r => (false, r)
  (readMagnitude? ⟨0, 0, false, false⟩ body).bind fun (m, scale) =>
    ofParts? (negative && m != 0) m scale

/-- Drops digits at the end of a magnitude; the first one dropped rounds the rest, a half
up. -/
def dropDigits (m : Nat) : Nat → Nat
  | 0 => m
  | k + 1 => (m / tenPow k + 5) / 10

/-- Moves the point by a whole exponent: to the left by raising the scale, where digits beyond
the greatest scale are rounded off; to the right by lowering it, and beyond the last digit by
multiplying. No exponent may exceed the greatest scale. -/
def shift? (d : Decimal) (left : Bool) (e : Nat) : Option Decimal :=
  if left then
    if scaleLimit < e then none
    else
      ofParts? d.negative (dropDigits d.magnitude (d.scale + e - scaleLimit))
        (min (d.scale + e) scaleLimit)
  else if e ≤ d.scale then ofParts? d.negative d.magnitude (d.scale - e)
  else if scaleLimit < e then none
  else ofParts? d.negative (d.magnitude * tenPow (e - d.scale)) 0

/-- The digits of an exponent: an optional plus, then ASCII digits of a 32-bit number. -/
def readExponent? (cs : List Char) : Option Nat :=
  let ds := match cs with | '+' :: r => r | r => r
  if ds ≠ [] ∧ ds.all Char.isDigit then
    let e := ds.foldl (fun n c => n * 10 + (c.toNat - '0'.toNat)) 0
    if e < twoPow 32 then some e else none
  else none

/-- Reads a whole text as a decimal number. -/
def read? (cs : List Char) : Option Decimal :=
  let (base, rest) := cs.span fun c => c != 'e' && c != 'E'
  match rest with
  | [] => readPlain? cs
  | _ :: '-' :: e => do (← readPlain? base).shift? true (← readExponent? e)
  | _ :: e => do (← readPlain? base).shift? false (← readExponent? e)

/-- A whole number of 64 bits as a decimal number. -/
def ofInt (n : Int) (h : n.natAbs ≤ 18446744073709551616) : Decimal :=
  ⟨n < 0, n.natAbs, 0, Nat.lt_of_le_of_lt h (by decide), Nat.zero_le _⟩

/-- A signed word as a decimal number. -/
def ofInt64 (n : Int64) : Decimal :=
  ofInt n.toInt (by have h₁ := n.le_toInt; have h₂ := n.toInt_lt; omega)

/-- An unsigned word as a decimal number. -/
def ofUInt64 (n : UInt64) : Decimal :=
  ofInt n.toNat (by have h := n.toNat_lt; omega)

end Decimal

end Stencil
