import Stencil.Data.Conversion

/-!
# Shapes: a self-describing data model

A shape is what structured data reports about itself: scalars of any width, optional data,
sequences and tuples, maps and structures, and the variants of a choice. `Shape.toValue` turns
it into a value that templates can walk through:

* structures and maps become maps, sequences and tuples become lists;
* a wrapper is its content, and missing data is null;
* a variant without data is its name, and one with data a map whose only key is its name.

It fails only where something would be lost: at an integer beyond 64 bits, at a map key that
is no text, integer or truth value, or where the data itself reports a failure.
-/

namespace Stencil

/-- The two calls that fill a map one at a time. -/
inductive MapCall where
  | key
  | value
  deriving DecidableEq, Repr

/-- A tree of the data model. -/
inductive Shape where
  | bool (b : Bool)
  | int (kind : IntKind) (n : kind.Num)
  /-- A signed integer of 128 bits. -/
  | wideSigned (n : Int)
  /-- An unsigned integer of 128 bits. -/
  | wideUnsigned (n : Nat)
  | float32 (x : Float32)
  | float (x : Float)
  | char (c : Char)
  | text (s : String)
  | bytes (bs : List UInt8)
  | absent
  | present (content : Shape)
  | unit
  | unitStruct
  | unitVariant (variant : String)
  | newtypeStruct (content : Shape)
  | newtypeVariant (variant : String) (content : Shape)
  | seq (items : List Shape)
  | tuple (items : List Shape)
  | tupleStruct (items : List Shape)
  | tupleVariant (variant : String) (items : List Shape)
  | map (entries : List (Shape × Shape))
  | struct (fields : List (String × Shape))
  | structVariant (variant : String) (fields : List (String × Shape))
  /-- A map filled by single calls, which need not alternate. -/
  | mapCalls (calls : List (MapCall × Shape))
  /-- Data whose own report fails. -/
  | failing (text : String)

namespace Shape

/-- A value under the name of its variant. -/
def underVariant (variant : String) (v : Value) : Value := .map [(variant, v)]

/-- The text of a map key: keys are addressed by text, so only what prints as one path segment
may be a key. -/
def keyText : Value → Except Fault String
  | .str s => .ok s
  | .i64 n => .ok (Value.i64 n).display
  | .u64 n => .ok (Value.u64 n).display
  | .bool b => .ok (Value.bool b).display
  | v => .error (.unusableKey v)

/-- A signed integer of any width: `i64` where it fits, else `u64`, else a fault. -/
def ofWideSigned (n : Int) : Except Fault Value :=
  if IntKind.i64.Holds n then .ok (.i64 (Int64.ofInt n))
  else if IntKind.u64.Holds n then .ok (.u64 (UInt64.ofNat n.toNat))
  else .error (.wideInteger n)

/-- An unsigned integer of any width. -/
def ofWideUnsigned (n : Nat) : Except Fault Value :=
  if IntKind.u64.Holds n then .ok (.u64 (UInt64.ofNat n)) else .error (.wideInteger n)

mutual

/-- The value of a shape. -/
def toValue : Shape → Except Fault Value
  | bool b => .ok (.bool b)
  | int kind n => .ok (kind.toValue n)
  | wideSigned n => ofWideSigned n
  | wideUnsigned n => ofWideUnsigned n
  | float32 x => .ok (.f64 x.toFloat)
  | float x => .ok (.f64 x)
  | char c => .ok (.str (String.singleton c))
  | text s => .ok (.str s)
  | bytes bs => .ok (.list (bs.map fun b => .u64 b.toUInt64))
  | absent => .ok .null
  | present content => toValue content
  | unit => .ok .null
  | unitStruct => .ok .null
  | unitVariant variant => .ok (.str variant)
  | newtypeStruct content => toValue content
  | newtypeVariant variant content => (toValue content).map (underVariant variant)
  | seq items => (toItems items).map .list
  | tuple items => (toItems items).map .list
  | tupleStruct items => (toItems items).map .list
  | tupleVariant variant items => (toItems items).map fun vs => underVariant variant (.list vs)
  | map entries => (toEntries entries []).map .map
  | struct fields => (toFields fields []).map .map
  | structVariant variant fields =>
    (toFields fields []).map fun t => underVariant variant (.map t)
  | mapCalls calls => (runCalls calls none []).map .map
  | failing reason => .error (.custom reason)

/-- The values of a sequence, in order; the first failure counts. -/
def toItems : List Shape → Except Fault (List Value)
  | [] => .ok []
  | s :: rest =>
    match toValue s with
    | .error e => .error e
    | .ok v => (toItems rest).map (v :: ·)

/-- Writes the entries of a map into a table, key before value. -/
def toEntries : List (Shape × Shape) → Table Value → Except Fault (Table Value)
  | [], t => .ok t
  | (k, s) :: rest, t =>
    match toValue k with
    | .error e => .error e
    | .ok k =>
      match keyText k with
      | .error e => .error e
      | .ok key =>
        match toValue s with
        | .error e => .error e
        | .ok v => toEntries rest (t.insert key v)

/-- Writes the fields of a structure into a table. -/
def toFields : List (String × Shape) → Table Value → Except Fault (Table Value)
  | [], t => .ok t
  | (key, s) :: rest, t =>
    match toValue s with
    | .error e => .error e
    | .ok v => toFields rest (t.insert key v)

/-- Carries out single calls: a key waits for the next value, a later key replaces it. -/
def runCalls : List (MapCall × Shape) → Option String → Table Value →
    Except Fault (Table Value)
  | [], _, t => .ok t
  | (.key, s) :: rest, _, t =>
    match toValue s with
    | .error e => .error e
    | .ok k =>
      match keyText k with
      | .error e => .error e
      | .ok key => runCalls rest (some key) t
  | (.value, s) :: rest, pending, t =>
    match pending with
    | none => .error .valueBeforeKey
    | some key =>
      match toValue s with
      | .error e => .error e
      | .ok v => runCalls rest none (t.insert key v)

end

end Shape

/-- What data of a type reports about itself. Only plain data has a report: decimals, calendar
values and values do not describe themselves. -/
def DataType.shape? : (t : DataType) → t.Carrier → Option Shape
  | .int kind, n => some (.int kind n)
  | .float, x => some (.float x)
  | .float32, x => some (.float32 x)
  | .bool, b => some (.bool b)
  | .char, c => some (.char c)
  | .text, s => some (.text s)
  | .unit, _ => some .unit
  | .reference t, x => t.shape? x
  | .option _, none => some .absent
  | .option t, some x => (t.shape? x).map .present
  | .list t, xs => (xs.mapM t.shape?).map .seq
  | .map t, entries =>
    (entries.mapM fun entry => (t.shape? entry.2).map fun s => (Shape.text entry.1, s)).map .map
  | _, _ => none

end Stencil
