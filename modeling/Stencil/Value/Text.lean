import Stencil.Value
import Stencil.Number.FloatText
import Stencil.Text.Quoted

/-!
# The two texts of a value

`display` is what a template prints: scalars as they are, the items of a list joined by
commas, a map in braces with its entries in ascending order of their keys, a record by its own
text. `debug` is what messages show: every value under the name of its kind, texts quoted.
-/

namespace Stencil.Value

open Stencil.Number Stencil.Text

/-- The display texts of a list's items, joined. -/
def joined (separator : String) : List String → String
  | [] => ""
  | [s] => s
  | s :: rest => s ++ separator ++ joined separator rest

/-- The display text of a map, given the texts of its values. -/
def mapText (entries : Table String) : String :=
  "\x7b" ++ joined ", " (entries.sorted.map fun entry => entry.1 ++ "=" ++ entry.2) ++ "\x7d"

mutual

/-- The text that a template prints. -/
def display : Value → String
  | null => ""
  | bool b => if b then "true" else "false"
  | str s => s
  | i64 n => toString n.toInt
  | u64 n => toString n.toNat
  | f64 x => displayFloat x
  | decimal d => d.text
  | date d => d.text
  | time t => t.text
  | dateTime m => m.textWith " "
  | dateTimeUtc m => m.textWith " " ++ " UTC"
  | list items => joined "," (displayItems items)
  | map entries => mapText (displayEntries entries)
  | object _ _ text _ _ => text

/-- The texts of a list's items. -/
def displayItems : List Value → List String
  | [] => []
  | v :: rest => display v :: displayItems rest

/-- The texts of a map's values, under their keys. -/
def displayEntries : List (String × Value) → Table String
  | [] => []
  | (k, v) :: rest => (k, display v) :: displayEntries rest

end

mutual

/-- The text inside messages. -/
def debug : Value → String
  | null => "Null"
  | bool b => "Bool(" ++ (if b then "true" else "false") ++ ")"
  | str s => "Str(" ++ quote s ++ ")"
  | i64 n => "I64(" ++ toString n.toInt ++ ")"
  | u64 n => "U64(" ++ toString n.toNat ++ ")"
  | f64 x => "F64(" ++ debugFloat x ++ ")"
  | decimal d => "Decimal(" ++ d.text ++ ")"
  | date d => "Date(" ++ d.text ++ ")"
  | time t => "Time(" ++ t.text ++ ")"
  | dateTime m => "DateTime(" ++ m.textWith "T" ++ ")"
  | dateTimeUtc m => "DateTimeUtc(" ++ m.textWith "T" ++ "Z)"
  | list items => "List([" ++ joined ", " (debugItems items) ++ "])"
  | map entries => "Map(\x7b" ++ joined ", " (debugEntries entries) ++ "\x7d)"
  | object _ typeName _ _ _ => "Object(Object(" ++ typeName ++ "))"

/-- The debug texts of a list's items. -/
def debugItems : List Value → List String
  | [] => []
  | v :: rest => debug v :: debugItems rest

/-- The debug texts of a map's entries, in order of arrival. -/
def debugEntries : List (String × Value) → List String
  | [] => []
  | (k, v) :: rest => (quote k ++ ": " ++ debug v) :: debugEntries rest

end

/-- The display text under the tag of the value's kind. -/
def tagged (v : Value) : String := v.tag ++ ":" ++ v.display

end Stencil.Value
