import Stencil.Syntax.Tag

/-!
# Scanning: a template text as pieces

`scan` cuts a text into pieces: stretches of literal text, and tags in their places. Where a
tag cannot be read, scanning stops there and keeps the cause.

A comment, an opener, an `else` or a closer that has a line to itself takes the whole line
with it: the blanks and tabs before it, and everything behind it up to and including the line
break. What was taken is kept with the tag, so that the pieces together always spell the whole
text again (`Piece.source`).
-/

namespace Stencil

open Text

/-- A fault of the syntax at a place, which is given by the text before it, in reverse. -/
structure SyntaxFault where
  cause : SyntaxCause
  before : List Char

/-- The fault with its line and column. -/
def SyntaxFault.fault (f : SyntaxFault) : Fault := .malformed f.cause (.after f.before)

/-- A tag in its place: all the text before it (in reverse), the part of that text that it
takes along, its own characters, and what it takes along behind it. -/
structure PlacedTag where
  before : List Char
  indent : List Char
  text : List Char
  lineEnd : List Char
  tag : Tag

/-- A piece of a template text. -/
inductive Piece where
  | text (chars : List Char)
  | tag (placed : PlacedTag)

/-- The characters that a piece stands for. -/
def Piece.source : Piece → List Char
  | text chars => chars
  | tag placed => placed.indent ++ placed.text ++ placed.lineEnd

/-- The pieces of a text up to its end or to the first tag that cannot be read. -/
structure Scanned where
  pieces : List Piece
  fault : Option SyntaxFault

namespace Scanned

/-- One more piece in front. -/
def cons (p : Piece) (s : Scanned) : Scanned := { s with pieces := p :: s.pieces }

/-- A stretch of text (in reverse) in front; an empty one is no piece. -/
def withText (pending : List Char) (s : Scanned) : Scanned :=
  if pending = [] then s else s.cons (.text pending.reverse)

/-- No pieces, and a fault. -/
def stop (cause : SyntaxCause) (before : List Char) : Scanned := ⟨[], some ⟨cause, before⟩⟩

end Scanned

/-- The part of the current line before a place, in reverse. -/
def lineStart (before : List Char) : List Char := before.takeWhile (· != '\n')

/-- The rest of the current line with its line break, and what follows. -/
def splitLine : List Char → List Char × List Char
  | [] => ([], [])
  | c :: rest =>
    if c = '\n' then ([c], rest)
    else
      let (line, after) := splitLine rest
      (c :: line, after)

/-- Whether nothing but blanks and tabs stands before a place in its line, and nothing but
white space behind the other place. -/
def hasLine (before after : List Char) : Bool :=
  (lineStart before).all (fun c => c == ' ' || c == '\t') && (splitLine after).1.all isBlank

theorem splitLine_eq (cs : List Char) : cs = (splitLine cs).1 ++ (splitLine cs).2 := by
  induction cs with
  | nil => rfl
  | cons c rest ih =>
    by_cases h : c = '\n'
    · simp [splitLine, h]
    · simp only [splitLine, h, if_false, List.cons_append]
      rw [← ih]

theorem splitLine_length (cs : List Char) : (splitLine cs).2.length ≤ cs.length := by
  have := congrArg List.length (splitLine_eq cs)
  simp only [List.length_append] at this
  omega

/-- Scans a text from a place on. The text before the place and the stretch of literal text
that ends there are given in reverse. -/
def scanFrom (before pending rest : List Char) : Scanned :=
  match rest with
  | [] => (Scanned.mk [] none).withText pending
  | '\x7b' :: '\x7b' :: inner =>
    match h : cut inner with
    | .error cause => (Scanned.stop cause before).withText pending
    | .ok c =>
      have := cut_length h
      match Tag.ofContent c.form c.content with
      | .error cause => (Scanned.stop cause before).withText pending
      | .ok tag =>
        let behind := c.text.reverse ++ before
        if tag.takesLine && hasLine before c.after then
          let indent := lineStart before
          let line := (splitLine c.after).1
          have := splitLine_length c.after
          ((scanFrom (line.reverse ++ behind) [] (splitLine c.after).2).cons
            (.tag ⟨before, indent.reverse, c.text, line, tag⟩)).withText
              (pending.drop indent.length)
        else
          ((scanFrom behind [] c.after).cons (.tag ⟨before, [], c.text, [], tag⟩)).withText
            pending
  | c :: rest => scanFrom (c :: before) (c :: pending) rest
termination_by rest.length

/-- The pieces of a template text. -/
def scan (text : List Char) : Scanned := scanFrom [] [] text

end Stencil
