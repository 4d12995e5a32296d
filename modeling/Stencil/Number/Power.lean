/-!
# Powers of two and of ten

The two scales that numbers are read and written on: places of binary digits and places of
decimal digits.
-/

namespace Stencil.Number

/-- A power of two. -/
def twoPow (k : Nat) : Nat := Nat.pow 2 k

/-- A power of ten. -/
def tenPow (k : Nat) : Nat := Nat.pow 10 k

end Stencil.Number
