import Stencil.Number.Power

/-!
# Integers of bounded width

The ten integer kinds of the data model, their ranges, and how an integer is read from text:
an optional sign (a minus only where the kind has negative numbers), then at least one ASCII
digit, and nothing else. `read?` gives the exact number or nothing; it never wraps.
-/

namespace Stencil

/-- An integer kind: its sign and its width. -/
inductive IntKind where
  | i8 | i16 | i32 | i64 | isize
  | u8 | u16 | u32 | u64 | usize
  deriving DecidableEq, Repr

namespace IntKind

/-- The name under which messages speak of the kind. -/
def name : IntKind → String
  | i8 => "i8" | i16 => "i16" | i32 => "i32" | i64 => "i64" | isize => "isize"
  | u8 => "u8" | u16 => "u16" | u32 => "u32" | u64 => "u64" | usize => "usize"

/-- Whether the kind has negative numbers. -/
def signed : IntKind → Bool
  | i8 | i16 | i32 | i64 | isize => true
  | u8 | u16 | u32 | u64 | usize => false

/-- The width in bits. -/
def bits : IntKind → Nat
  | i8 | u8 => 8
  | i16 | u16 => 16
  | i32 | u32 => 32
  | i64 | u64 | isize | usize => 64

/-- The least number of the kind. -/
def least (k : IntKind) : Int := if k.signed then -(Number.twoPow (k.bits - 1) : Int) else 0

/-- The greatest number of the kind. -/
def greatest (k : IntKind) : Int :=
  if k.signed then (Number.twoPow (k.bits - 1) : Int) - 1 else (Number.twoPow k.bits : Int) - 1

/-- Whether a number is one of the kind. -/
def Holds (k : IntKind) (n : Int) : Prop := k.least ≤ n ∧ n ≤ k.greatest

instance (k : IntKind) (n : Int) : Decidable (k.Holds n) :=
  inferInstanceAs (Decidable (_ ∧ _))

/-- The numbers of a kind. -/
abbrev Num (k : IntKind) : Type := { n : Int // k.Holds n }

/-- The number as one of the kind, if it is in range. -/
def ofInt? (k : IntKind) (n : Int) : Option k.Num :=
  if h : k.Holds n then some ⟨n, h⟩ else none

end IntKind

namespace Number

/-- The number that a non-empty row of ASCII digits denotes. -/
def readDigits? (cs : List Char) : Option Nat :=
  if cs ≠ [] ∧ cs.all Char.isDigit then
    some (cs.foldl (fun n c => n * 10 + (c.toNat - '0'.toNat)) 0)
  else none

/-- Reads a whole text as an integer: an optional sign, then digits. A minus is admitted only
where `signed` says so. -/
def readInt? (signed : Bool) : List Char → Option Int
  | '+' :: rest => (readDigits? rest).map Int.ofNat
  | '-' :: rest => if signed then (readDigits? rest).map fun n => -(n : Int) else none
  | cs => (readDigits? cs).map Int.ofNat

end Number

/-- Reads a whole text as a number of the kind. -/
def IntKind.read? (k : IntKind) (cs : List Char) : Option k.Num :=
  (Number.readInt? k.signed cs).bind k.ofInt?

end Stencil
