import Stencil.Number.Shortest

/-!
# The text of a floating-point number

Two written forms share the shortest digits. The display form is always positional and keeps
no point behind a whole number. The debug form always shows a fraction digit, and turns to
exponent notation below `1e-4` and from `1e16` on.
-/

namespace Stencil.Number

/-- How a number is laid out around its digits: the decimal exponents `first ≤ e ≤ last` that
are written positionally (`none`: all of them), and whether a whole number keeps `.0`. -/
structure FloatLayout where
  positional : Option (Int × Int)
  keepsFraction : Bool

/-- The form that a template prints. -/
def FloatLayout.display : FloatLayout := ⟨none, false⟩

/-- The form that messages show. -/
def FloatLayout.debug : FloatLayout := ⟨some (-3, 16), true⟩

/-- Digits written with a point in its place. -/
def positionalText (keepsFraction : Bool) (d : Digits) : List Char :=
  let n := d.digits.length
  if d.exponent ≤ 0 then
    ['0', '.'] ++ List.replicate (-d.exponent).toNat '0' ++ d.digits
  else if (n : Int) ≤ d.exponent then
    d.digits ++ List.replicate (d.exponent.toNat - n) '0' ++
      (if keepsFraction then ['.', '0'] else [])
  else d.digits.take d.exponent.toNat ++ '.' :: d.digits.drop d.exponent.toNat

/-- Digits written with one digit before the point and a power of ten. -/
def exponentText (d : Digits) : List Char :=
  let mantissa :=
    match d.digits with
    | [] => ['0']
    | [c] => [c]
    | c :: rest => c :: '.' :: rest
  mantissa ++ 'e' :: (toString (d.exponent - 1)).toList

/-- Positive digits in a layout. -/
def FloatLayout.write (layout : FloatLayout) (d : Digits) : List Char :=
  match layout.positional with
  | none => positionalText layout.keepsFraction d
  | some (first, last) =>
    if first ≤ d.exponent ∧ d.exponent ≤ last then positionalText layout.keepsFraction d
    else exponentText d

/-- The text of a bit pattern in a layout. -/
def FloatLayout.text (layout : FloatLayout) (x : Decoded) : List Char :=
  match x with
  | .notANumber => ['N', 'a', 'N']
  | .infinite negative => (if negative then ['-'] else []) ++ ['i', 'n', 'f']
  | .finite negative mantissa exponent =>
    (if negative then ['-'] else []) ++
      if mantissa = 0 then (if layout.keepsFraction then ['0', '.', '0'] else ['0'])
      else layout.write (shortest .binary64 mantissa exponent)

/-- The text of a double-precision number as a template prints it. -/
def displayFloat (x : Float) : String :=
  String.ofList (FloatLayout.display.text (decode .binary64 x.toBits.toNat))

/-- The text of a double-precision number inside a message. -/
def debugFloat (x : Float) : String :=
  String.ofList (FloatLayout.debug.text (decode .binary64 x.toBits.toNat))

end Stencil.Number
