import Stencil.Text.Blank

/-!
# The tokens of a type

The text of a type is a row of tokens: words, lifetimes, literals and single marks. Blanks and
comments stand between tokens and belong to none. A word may begin with `r#`, which lets a
reserved word be a name and is part of the word, so `r#type` is one token.

Texts are taken to be well formed: the end of a text also ends whatever is still open there.
-/

namespace Stencil.Declaration

open Text

/-- A token of a type. -/
inductive Token where
  | word (chars : List Char)
  | lifetime (chars : List Char)
  | literal (chars : List Char)
  | mark (c : Char)
  deriving DecidableEq, Repr

namespace Token

/-- How a token is written. -/
def text : Token → List Char
  | word chars | lifetime chars | literal chars => chars
  | mark c => [c]

/-- The characters of a word. Outside of ASCII a type holds nothing but words and blanks. -/
def isWordChar (c : Char) : Bool :=
  if c.toNat < 128 then c.isAlphanum || c == '_' else !isBlank c

/-- Whether a character begins a word. -/
def isWordStart (c : Char) : Bool := isWordChar c && !c.isDigit

/-- Splits the word at the start of a text from what follows it. -/
def splitWord (cs : List Char) : List Char × List Char :=
  let plain := (cs.takeWhile isWordChar, cs.dropWhile isWordChar)
  match cs with
  | 'r' :: '#' :: c :: rest =>
    if isWordStart c then
      ('r' :: '#' :: (c :: rest).takeWhile isWordChar, (c :: rest).dropWhile isWordChar)
    else plain
  | _ => plain

/-- Splits the rest of a quoted literal, its closing quote included, from what follows it. A
backslash keeps the next character from closing the literal. -/
def splitQuoted (quote : Char) : List Char → List Char × List Char
  | [] => ([], [])
  | '\\' :: c :: rest =>
    let (body, after) := splitQuoted quote rest
    ('\\' :: c :: body, after)
  | c :: rest =>
    if c = quote then ([c], rest)
    else
      let (body, after) := splitQuoted quote rest
      (c :: body, after)

/-- What follows a comment of which `depth` openings are unmatched. -/
def afterComment : Nat → List Char → List Char
  | 0, cs => cs
  | _, [] => []
  | depth + 1, '*' :: '/' :: rest => afterComment depth rest
  | depth + 1, '/' :: '*' :: rest => afterComment (depth + 2) rest
  | depth + 1, _ :: rest => afterComment (depth + 1) rest

/-- The token behind a single quote, and what follows it: a character between two quotes, or
a lifetime. -/
def afterQuote (cs : List Char) : Token × List Char :=
  match cs with
  | '\\' :: _ =>
    let (body, after) := splitQuoted '\x27' cs
    (literal ('\x27' :: body), after)
  | c :: '\x27' :: rest => (literal ['\x27', c, '\x27'], rest)
  | cs => (lifetime ('\x27' :: cs.takeWhile isWordChar), cs.dropWhile isWordChar)

/-- The tokens of a text; `fuel` bounds the number of steps, each of which takes at least one
character. -/
def readFrom : Nat → List Char → List Token
  | 0, _ => []
  | _, [] => []
  | fuel + 1, '/' :: '/' :: rest => readFrom fuel (rest.dropWhile (· != '\n'))
  | fuel + 1, '/' :: '*' :: rest => readFrom fuel (afterComment 1 rest)
  | fuel + 1, c :: rest =>
    if isBlank c then readFrom fuel rest
    else if isWordStart c then
      let (chars, after) := splitWord (c :: rest)
      word chars :: readFrom fuel after
    else if c.isDigit then
      literal ((c :: rest).takeWhile isWordChar) ::
        readFrom fuel ((c :: rest).dropWhile isWordChar)
    else if c = '"' then
      let (body, after) := splitQuoted '"' rest
      literal ('"' :: body) :: readFrom fuel after
    else if c = '\x27' then
      let (token, after) := afterQuote rest
      token :: readFrom fuel after
    else mark c :: readFrom fuel rest

/-- The tokens of a text. -/
def read (s : String) : List Token := readFrom s.toList.length s.toList

end Token

end Stencil.Declaration
