import Stencil.Declaration.Token

/-!
# Types that are paths

Two things are asked of a declared type: which name a path ends in, and what a reference refers
to. A path is a row of segments between double colons. A segment is a name, and generic
arguments in angle brackets or a parameter list in parentheses may follow it; the row may begin
with double colons or with a type in angle brackets. Every other type (a tuple, an array, a
pointer, a function, a sum of bounds) is no path and has no last segment.
-/

namespace Stencil.Declaration.TypePath

open Text

/-- Whether a mark opens a group. -/
def opens (c : Char) : Bool := c == '(' || c == '[' || c == '\x7b'

/-- Whether a mark closes a group. -/
def closes (c : Char) : Bool := c == ')' || c == ']' || c == '\x7d'

/-- What follows the point where `angles` angle brackets and, inside of them, `groups` groups
are closed. An arrow is no bracket, and inside a group no angle is. -/
def afterBrackets : Nat → Nat → List Token → Option (List Token)
  | 0, 0, ts => some ts
  | _, _, [] => none
  | angles, groups, .mark '-' :: .mark '>' :: rest => afterBrackets angles groups rest
  | angles, groups, .mark c :: rest =>
    if opens c then afterBrackets angles (groups + 1) rest
    else if closes c then afterBrackets angles (groups - 1) rest
    else if groups = 0 ∧ c = '<' then afterBrackets (angles + 1) groups rest
    else if groups = 0 ∧ c = '>' then afterBrackets (angles - 1) groups rest
    else afterBrackets angles groups rest
  | angles, groups, _ :: rest => afterBrackets angles groups rest

/-- What follows the parameter list of a segment, its result included. A path goes on behind a
result only if the result stands in parentheses. -/
def afterParameters (ts : List Token) : Option (List Token) :=
  (afterBrackets 0 1 ts).bind fun rest =>
    match rest with
    | .mark '-' :: .mark '>' :: .mark '(' :: rest => afterBrackets 0 1 rest
    | .mark '-' :: .mark '>' :: _ => some []
    | rest => some rest

/-- What follows the arguments of a segment, if it has any. -/
def afterArguments : List Token → Option (List Token)
  | .mark '<' :: rest => afterBrackets 1 0 rest
  | .mark ':' :: .mark ':' :: .mark '<' :: rest => afterBrackets 1 0 rest
  | .mark '(' :: rest => afterParameters rest
  | .mark ':' :: .mark ':' :: .mark '(' :: rest => afterParameters rest
  | rest => some rest

/-- The name of the last segment of a path; `fuel` bounds the number of segments. -/
def lastFrom : Nat → List Token → Option (List Char)
  | fuel + 1, .word name :: rest =>
    (afterArguments rest).bind fun rest =>
      match rest with
      | [] => some name
      | .mark ':' :: .mark ':' :: rest => lastFrom fuel rest
      | _ => none
  | _, _ => none

/-- The words that begin a type which is no path. -/
def leadingWords : List (List Char) :=
  ["dyn".toList, "impl".toList, "fn".toList, "for".toList, "unsafe".toList, "extern".toList]

/-- The name of the last segment of a type that is a path. -/
def lastSegment? (ts : List Token) : Option (List Char) :=
  match ts with
  | .mark ':' :: .mark ':' :: rest => lastFrom ts.length rest
  | .mark '<' :: rest =>
    (afterBrackets 1 0 rest).bind fun after =>
      match after with
      | .mark ':' :: .mark ':' :: rest => lastFrom ts.length rest
      | _ => none
  | .word w :: _ => if leadingWords.contains w then none else lastFrom ts.length ts
  | _ => none

/-- What a reference refers to: the type behind `&`, a lifetime and `mut`. -/
def referent? : List Token → Option (List Token)
  | .mark '&' :: .lifetime _ :: .word ['m', 'u', 't'] :: rest => some rest
  | .mark '&' :: .lifetime _ :: rest => some rest
  | .mark '&' :: .word ['m', 'u', 't'] :: rest => some rest
  | .mark '&' :: rest => some rest
  | _ => none

/-- A type without blanks. -/
def compact (ts : List Token) : String :=
  String.ofList ((ts.flatMap Token.text).filter fun c => !isBlank c)

end Stencil.Declaration.TypePath
