/-!
# Positions in a text

A position counts lines from one and, within the line, bytes of the UTF-8 form from one. It is
read off the text before it, which is kept in reverse: the nearest character first.
-/

namespace Stencil.Text

/-- The bytes that a text takes in UTF-8. -/
def byteSize : List Char → Nat
  | [] => 0
  | c :: rest => c.utf8Size + byteSize rest

/-- A line and a byte column, both counted from one. -/
structure Position where
  line : Nat
  column : Nat
  deriving DecidableEq, Repr, BEq

/-- The position right after a text that is given in reverse. -/
def Position.after (before : List Char) : Position where
  line := before.count '\n' + 1
  column := byteSize (before.takeWhile (· != '\n')) + 1

end Stencil.Text
