import Stencil.Text.Letter

/-!
# Spellings of a name

A field may be written in words joined by underscores (`create_time`), or with capitals
(`createTime`, `CreateTime`). Accessors put `get` or `is` before the capitalised name.
-/

namespace Stencil.Naming

open Text

/-- The name with its first character in upper case; the empty name has none. -/
def capitalize? : List Char → Option (List Char)
  | [] => none
  | c :: rest => some (toUpper c ++ rest)

/-- Lower-cases every capital and puts an underscore before it, except at the start. -/
def snakeFrom (atStart : Bool) : List Char → List Char
  | [] => []
  | c :: rest =>
    (if isUppercase c then (if atStart then [] else ['_']) ++ toLower c else [c]) ++
      snakeFrom false rest

/-- The underscore spelling of a name with capitals; a name without any needs none. -/
def snake? (name : List Char) : Option (List Char) :=
  if name.any isUppercase then some (snakeFrom true name) else none

/-- Capitalises the first character of every word and joins the words. -/
def pascalFrom (wordStart : Bool) : List Char → List Char
  | [] => []
  | c :: rest =>
    if c = '_' then pascalFrom true rest
    else (if wordStart then toUpper c else [c]) ++ pascalFrom false rest

/-- The capitalised spelling of a name in words. -/
def pascal (name : List Char) : List Char := pascalFrom true name

/-- `get` before a capitalised name. -/
def getter (property : List Char) : List Char := ['g', 'e', 't'] ++ property

/-- `is` before a capitalised name. -/
def tester (property : List Char) : List Char := ['i', 's'] ++ property

/-- Whether the first character is a capital. -/
def startsUpper : List Char → Bool
  | [] => false
  | c :: _ => isUppercase c

/-- Whether a name is spelled like an accessor. The prefix `get` is tried first; a name with
it is never taken for one with `is`. -/
def isAccessor : List Char → Bool
  | 'g' :: 'e' :: 't' :: rest => startsUpper rest
  | 'i' :: 's' :: rest => startsUpper rest
  | _ => false

end Stencil.Naming
