import Stencil.Helper
import Stencil.Data.Conversion

/-!
# Typed helpers

A typed helper declares what it takes: a row of slots, each either data of a type that values can
be converted into, or the call itself. The data slots, counted on their own, take the arguments of
the template in order; a missing argument is null, and surplus ones are ignored. The first argument
that cannot be converted is reported with its number, and then the helper is not run at all.
-/

namespace Stencil

/-- A type that arguments can be converted into. -/
structure ArgumentType where
  Carrier : Type
  ofValue : Value → Except Fault Carrier

/-- A readable type of data, as a type of arguments. -/
@[reducible]
def DataType.argument (t : DataType) (h : t.readable = true) : ArgumentType :=
  ⟨t.Carrier, t.ofValue h⟩

/-- What a typed helper takes in one place. -/
inductive Slot where
  | data (t : ArgumentType)
  | call

namespace Slot

/-- What stands in a slot. -/
@[reducible]
def Content : Slot → Type
  | data t => t.Carrier
  | call => Call

/-- What stands in a row of slots. -/
@[reducible]
def Row : List Slot → Type
  | [] => Unit
  | s :: rest => s.Content × Row rest

/-- Fills a row of slots from the arguments that are left; `taken` counts those before. -/
def fill (helper : String) (c : Call) :
    (slots : List Slot) → (taken : Nat) → (left : List Value) → Except Fault (Row slots)
  | [], _, _ => .ok ()
  | call :: rest, taken, left =>
    match fill helper c rest taken left with
    | .error e => .error e
    | .ok row => .ok (c, row)
  | data t :: rest, taken, left =>
    match t.ofValue (left.headD .null) with
    | .error e => .error (.argument helper (taken + 1) e)
    | .ok x =>
      match fill helper c rest (taken + 1) left.tail with
      | .error e => .error e
      | .ok row => .ok (x, row)

end Slot

/-- A helper with declared arguments. -/
structure TypedHelper where
  name : String
  slots : List Slot
  run : Slot.Row slots → Script

/-- The helper that converts its arguments and then runs. -/
def TypedHelper.helper (h : TypedHelper) : Helper := fun c =>
  match Slot.fill h.name c h.slots 0 c.params with
  | .error e => .done (.error e)
  | .ok row => h.run row

end Stencil
