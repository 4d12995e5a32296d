import Stencil.Table
import Stencil.Number.Decimal
import Stencil.Calendar

/-!
# Values: the data a template can see

Scalars, calendar values, lists and maps are plain data. A record is an object with an identity
of its own: it answers look-ups of fields and of zero-argument methods from two tables, and it
has a type name and a text form. A stored null is an answer, different from no answer.

Map entries are kept in order of arrival, but no output depends on that order.
-/

namespace Stencil

/-- The data a template can see. -/
inductive Value where
  | null
  | bool (b : Bool)
  | str (s : String)
  | i64 (n : Int64)
  | u64 (n : UInt64)
  | f64 (x : Float)
  | decimal (d : Decimal)
  | date (d : Date)
  | time (t : TimeOfDay)
  | dateTime (m : Moment)
  /-- A moment in coordinated universal time. -/
  | dateTimeUtc (m : Moment)
  | list (items : List Value)
  | map (entries : List (String × Value))
  /-- A record: its identity, type name, text form, and its two look-up tables. -/
  | object (identity : Nat) (typeName text : String) (fields methods : List (String × Value))
  deriving Inhabited

namespace Value

/-- The kinds of value, as messages and tags name them. -/
def tag : Value → String
  | null => "null"
  | bool _ => "bool"
  | str _ => "str"
  | i64 _ => "i64"
  | u64 _ => "u64"
  | f64 _ => "f64"
  | decimal _ => "dec"
  | date _ => "date"
  | time _ => "time"
  | dateTime _ => "datetime"
  | dateTimeUtc _ => "utc"
  | list _ => "list"
  | map _ => "map"
  | object .. => "object"

/-- Whether the value is null. -/
def isNull : Value → Bool
  | null => true
  | _ => false

/-- Truth in a condition: false, null, numeric zero, not-a-number, the empty text and empty
collections are false; everything else is true. -/
def truthy : Value → Bool
  | null => false
  | bool b => b
  | str s => s != ""
  | i64 n => n != 0
  | u64 n => n != 0
  | f64 x => x != 0.0 && !x.isNaN
  | decimal d => !d.isZero
  | list items => !items.isEmpty
  | map entries => !entries.isEmpty
  | date _ | time _ | dateTime _ | dateTimeUtc _ | object .. => true

/-- The text of a text value. -/
def asText? : Value → Option String
  | str s => some s
  | _ => none

/-- The field of a record under exactly this name. -/
def field? : Value → String → Option Value
  | object _ _ _ fields _, name => Table.get? fields name
  | _, _ => none

/-- The answer of a record's zero-argument method of exactly this name. -/
def method? : Value → String → Option Value
  | object _ _ _ _ methods, name => Table.get? methods name
  | _, _ => none

/-- Nothing for null, the value itself otherwise. -/
def nonNull (v : Value) : Option Value := if v.isNull then none else some v

theorem nonNull_eq_some {v w : Value} : v.nonNull = some w ↔ v = w ∧ w.isNull = false := by
  unfold nonNull
  cases h : v.isNull
  · simp only [Bool.false_eq_true, if_false, Option.some.injEq]
    constructor
    · rintro rfl; exact ⟨rfl, h⟩
    · exact fun h' => h'.1
  · simp only [if_true, reduceCtorEq, false_iff]
    rintro ⟨rfl, h'⟩
    simp [h] at h'

/-- What is left of an answer without null is not null. -/
theorem isNull_of_bind_nonNull {found : Option Value} {v : Value}
    (h : found.bind nonNull = some v) : v.isNull = false := by
  obtain ⟨w, -, hw⟩ := Option.bind_eq_some_iff.1 h
  obtain ⟨rfl, hw⟩ := nonNull_eq_some.1 hw
  exact hw

theorem nonNull_bind_nonNull (found : Option Value) :
    (found.bind nonNull).bind nonNull = found.bind nonNull := by
  cases hv : found.bind nonNull with
  | none => rfl
  | some v => exact nonNull_eq_some.2 ⟨rfl, isNull_of_bind_nonNull hv⟩

end Value

end Stencil
