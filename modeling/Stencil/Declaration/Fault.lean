/-!
# What can be wrong with a declaration

Declarations of records and of helper functions are checked when their tables are built. Each
fault has its text here.
-/

namespace Stencil.Declaration

/-- Why a declaration has no table. -/
inductive DeclarationFault where
  | notAStruct
  | unnamedField
  | unknownRecordItem
  | unknownFieldItem
  /-- A text alone where only items with names may stand. -/
  | literalItem
  | noMethods
  | methodPath
  /-- A word of the language where an identifier must stand. -/
  | keyword (word : String)
  /-- A name without its value; `last` where nothing follows it. -/
  | missingEquals (last : Bool)
  /-- A name without its list. -/
  | missingList (last : Bool)
  | blockOfTrait
  | genericBlock
  | nameNotText
  | borrowedArgument
  deriving DecidableEq, Repr

namespace DeclarationFault

/-- An expectation, announced as met by the end of the input where nothing follows. -/
def expected (last : Bool) (what : String) : String :=
  (if last then "unexpected end of input, " else "") ++ "expected " ++ what

/-- The fault in words. -/
def message : DeclarationFault → String
  | notAStruct => "Record can only be derived for structs"
  | unnamedField => "Record requires named fields"
  | unknownRecordItem =>
    "unsupported record attribute, expected \x60getters\x60 or \x60methods(..)\x60"
  | unknownFieldItem =>
    "unsupported field attribute, expected \x60rename\x60 or \x60ignore\x60"
  | literalItem => "unexpected literal in nested attribute, expected ident"
  | noMethods => expected true "nested attribute"
  | methodPath => "expected a method name"
  | keyword word => "expected identifier, found keyword \x60" ++ word ++ "\x60"
  | missingEquals last => expected last "\x60=\x60"
  | missingList last => expected last "parentheses"
  | blockOfTrait => "#[helpers] must be placed on an inherent impl block"
  | genericBlock => "#[helpers] does not support generic impl blocks"
  | nameNotText => "expected string literal"
  | borrowedArgument => "helper arguments must be owned types (or \x60&Options\x60)"

end DeclarationFault

end Stencil.Declaration
