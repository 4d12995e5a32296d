import Stencil.Value

/-!
# Equality of values

Values of different kinds are never equal. Floating-point numbers compare as numbers (the two
zeros are equal, a not-a-number differs from itself), decimals by the number they denote,
lists item by item, maps by their keys without regard to order, records by identity alone.
-/

namespace Stencil.Value

mutual

/-- Whether two values are equal. -/
def same : Value → Value → Bool
  | null, null => true
  | bool a, bool b => a == b
  | str a, str b => a == b
  | i64 a, i64 b => a == b
  | u64 a, u64 b => a == b
  | f64 a, f64 b => a == b
  | decimal a, decimal b => a.same b
  | date a, date b => a == b
  | time a, time b => a == b
  | dateTime a, dateTime b => a == b
  | dateTimeUtc a, dateTimeUtc b => a == b
  | list a, list b => sameItems a b
  | map a, map b => a.length == b.length && sameEntries a b
  | object a _ _ _ _, object b _ _ _ _ => a == b
  | _, _ => false

/-- Whether two lists have equal items in the same places. -/
def sameItems : List Value → List Value → Bool
  | [], [] => true
  | a :: as, b :: bs => same a b && sameItems as bs
  | _, _ => false

/-- Whether every entry has an equal one under the same key. -/
def sameEntries : List (String × Value) → List (String × Value) → Bool
  | [], _ => true
  | (k, a) :: rest, other =>
    (match Table.get? other k with
      | some b => same a b
      | none => false) && sameEntries rest other

end

end Stencil.Value
