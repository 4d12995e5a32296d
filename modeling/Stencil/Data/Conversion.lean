import Stencil.Fault
import Stencil.Text.Blank
import Stencil.Number.Binary

/-!
# Typed data and values

A data type is built from scalars by optional, list and map. Its carrier is the Lean type of
its data. `toValue` shows data to a template: signed integers become `i64`, unsigned ones
`u64`, and missing optional data becomes null. `ofValue` reads a value back as data; it is
there for the types that a helper may ask for (`readable`), it refuses what does not fit, and
it never wraps a number.
-/

namespace Stencil

open Number Text

/-- The types of data that templates exchange with their surroundings. -/
inductive DataType where
  | int (kind : IntKind)
  | float
  | float32
  | bool
  | char
  | text
  | unit
  | decimal
  | date
  | time
  | dateTime
  | dateTimeUtc
  | value
  | reference (t : DataType)
  | option (t : DataType)
  | list (t : DataType)
  | map (t : DataType)
  deriving DecidableEq, Repr

namespace DataType

/-- The data of a type. -/
@[reducible]
def Carrier : DataType → Type
  | int kind => kind.Num
  | float => Float
  | float32 => Float32
  | bool => Bool
  | char => Char
  | text => String
  | unit => Unit
  | decimal => Decimal
  | date => Date
  | time => TimeOfDay
  | dateTime => Moment
  | dateTimeUtc => Moment
  | value => Value
  | reference t => t.Carrier
  | option t => Option t.Carrier
  | list t => List t.Carrier
  | map t => Table t.Carrier

/-- Whether values can be read back as data of the type. -/
def readable : DataType → Bool
  | float32 | char | unit | time | reference _ => false
  | option t | list t | map t => t.readable
  | _ => true

end DataType

/-- An integer as a value: the sign of its kind chooses the variant. -/
def IntKind.toValue (k : IntKind) (n : k.Num) : Value :=
  if k.signed then .i64 (Int64.ofInt n.val) else .u64 (UInt64.ofNat n.val.toNat)

/-- Data as a value. -/
def DataType.toValue : (t : DataType) → t.Carrier → Value
  | .int kind, n => kind.toValue n
  | .float, x => .f64 x
  | .float32, x => .f64 x.toFloat
  | .bool, b => .bool b
  | .char, c => .str (String.singleton c)
  | .text, s => .str s
  | .unit, _ => .null
  | .decimal, d => .decimal d
  | .date, d => .date d
  | .time, t => .time t
  | .dateTime, m => .dateTime m
  | .dateTimeUtc, m => .dateTimeUtc m
  | .value, v => v
  | .reference t, x => t.toValue x
  | .option _, none => .null
  | .option t, some x => t.toValue x
  | .list t, xs => .list (xs.map t.toValue)
  | .map t, entries => .map (Table.mapValues t.toValue entries)

/-- A value as an integer of a kind: a number in range, or a text that denotes one. -/
def IntKind.ofValue (k : IntKind) (v : Value) : Except Fault k.Num :=
  match v with
  | .i64 n => ((k.ofInt? n.toInt).map .ok).getD (.error (.outOfRange n.toInt k))
  | .u64 n => ((k.ofInt? n.toNat).map .ok).getD (.error (.outOfRange n.toNat k))
  | .str s => ((k.read? (trim s.toList)).map .ok).getD (.error (.unreadable s k.name))
  | v => .error (.unexpected "numeric value" v)

/-- A value as a floating-point number. -/
def floatOfValue : Value → Except Fault Float
  | .f64 x => .ok x
  | .i64 n => .ok n.toFloat
  | .u64 n => .ok n.toFloat
  | .str s => ((readFloat? (trim s.toList)).map .ok).getD (.error (.unreadable s "f64"))
  | v => .error (.unexpected "F64" v)

/-- A value as a truth value: the words `true` and `false` in any case, otherwise its truth in
a condition. -/
def boolOfValue (v : Value) : Bool :=
  match v with
  | .str s =>
    let word := s.toList.map Char.toLower
    if word = "true".toList then true
    else if word = "false".toList then false
    else v.truthy
  | v => v.truthy

/-- A value as text: scalars through their printed form. -/
def textOfValue (v : Value) : Except Fault String :=
  match v with
  | .str s => .ok s
  | .null | .list _ | .map _ | .object .. => .error (.unexpected "Str" v)
  | v => .ok v.display

/-- A value as a decimal number. -/
def decimalOfValue : Value → Except Fault Decimal
  | .decimal d => .ok d
  | .i64 n => .ok (.ofInt64 n)
  | .u64 n => .ok (.ofUInt64 n)
  | .str s => ((Decimal.read? (trim s.toList)).map .ok).getD (.error (.unreadable s "Decimal"))
  | v => .error (.unexpected "Decimal" v)

/-- A value as a date; a moment gives its date. -/
def dateOfValue : Value → Except Fault Date
  | .date d => .ok d
  | .dateTime m => .ok m.date
  | .dateTimeUtc m => .ok m.date
  | v => .error (.unexpected "Date" v)

/-- A value as a moment without zone; a date gives its midnight. -/
def dateTimeOfValue : Value → Except Fault Moment
  | .dateTime m => .ok m
  | .dateTimeUtc m => .ok m
  | .date d => .ok ⟨d, .midnight⟩
  | v => .error (.unexpected "DateTime" v)

/-- A value as a moment in universal time. -/
def dateTimeUtcOfValue : Value → Except Fault Moment
  | .dateTimeUtc m => .ok m
  | .dateTime m => .ok m
  | v => .error (.unexpected "DateTimeUtc" v)

/-- Converts every item, in order; the first failure counts. -/
def convertItems {α : Type} (f : Value → Except Fault α) : List Value → Except Fault (List α)
  | [] => .ok []
  | v :: rest =>
    match f v with
    | .error e => .error e
    | .ok x =>
      match convertItems f rest with
      | .error e => .error e
      | .ok xs => .ok (x :: xs)

/-- Converts the value of every entry, in order; the first failure counts. -/
def convertEntries {α : Type} (f : Value → Except Fault α) :
    List (String × Value) → Except Fault (Table α)
  | [] => .ok []
  | (k, v) :: rest =>
    match f v with
    | .error e => .error e
    | .ok x =>
      match convertEntries f rest with
      | .error e => .error e
      | .ok xs => .ok ((k, x) :: xs)

/-- A value as data of a readable type. -/
def DataType.ofValue : (t : DataType) → t.readable = true → Value → Except Fault t.Carrier
  | .int kind, _, v => kind.ofValue v
  | .float, _, v => floatOfValue v
  | .bool, _, v => .ok (boolOfValue v)
  | .text, _, v => textOfValue v
  | .decimal, _, v => decimalOfValue v
  | .date, _, v => dateOfValue v
  | .dateTime, _, v => dateTimeOfValue v
  | .dateTimeUtc, _, v => dateTimeUtcOfValue v
  | .value, _, v => .ok v
  | .option t, h, v => if v.isNull then .ok none else (t.ofValue h v).map some
  | .list t, h, v =>
    match v with
    | .list items => convertItems (t.ofValue h) items
    | v => .error (.unexpected "List" v)
  | .map t, h, v =>
    match v with
    | .map entries => convertEntries (t.ofValue h) entries
    | v => .error (.unexpected "Map" v)

end Stencil
