import Stencil.Syntax.Path
import Stencil.Value
import Stencil.Number.Integer
import Stencil.Number.Binary

/-!
# Arguments of a tag

An argument is a path or a literal. A bare word is one of the fixed words, a number (an
integer where it fits into 64 bits, else a floating-point number), or a path, in this order.
-/

namespace Stencil

/-- A literal written in a template. -/
inductive Literal where
  | null
  | bool (b : Bool)
  | text (s : String)
  | int (n : Int64)
  | float (x : Float)

/-- The value of a literal. -/
def Literal.value : Literal → Value
  | null => .null
  | bool b => .bool b
  | text s => .str s
  | int n => .i64 n
  | float x => .f64 x

/-- An argument of a tag. -/
inductive Param where
  | path (p : Path)
  | literal (l : Literal)

namespace Param

/-- Whether a word is written like a number: digits and points behind at most one minus, and a
digit first. -/
def looksNumeric (word : List Char) : Bool :=
  let body := match word with | '-' :: r => r | r => r
  match body with
  | c :: _ => c.isDigit && body.all fun c => c.isDigit || c == '.'
  | [] => false

/-- The number that a word denotes. -/
def readNumber? (word : List Char) : Option Literal :=
  if looksNumeric word then
    match IntKind.i64.read? word with
    | some n => some (.int (Int64.ofInt n.val))
    | none => (Number.readFloat? word).map .float
  else none

/-- Reads a bare word. -/
def ofWord? (word : List Char) : Option Param :=
  if word = ['t', 'r', 'u', 'e'] then some (literal (.bool true))
  else if word = ['f', 'a', 'l', 's', 'e'] then some (literal (.bool false))
  else if word = ['n', 'u', 'l', 'l'] ∨
      word = ['u', 'n', 'd', 'e', 'f', 'i', 'n', 'e', 'd'] then some (literal .null)
  else
    match readNumber? word with
    | some l => some (literal l)
    | none => (Path.read? word).map path

end Param

end Stencil
