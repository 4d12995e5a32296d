import Stencil.Text.Letter

/-!
# Paths

A path says where a value is found: from the current subject (`this`, `this.a.b`), under a
name bound by an enclosing block (`@index`), or by name from the current subject outward
(`a.b.c`). Segments are non-empty words over letters, numbers and `_ - $ /`.

`Path.read?` reads a word as a path and `Path.spelling` writes one. Each path has one spelling;
besides it, only `.` stands for `this` and `./a` for `this.a`.
-/

namespace Stencil

open Text

/-- Where a value is found. -/
inductive Path where
  /-- From the current subject alone. -/
  | this (segments : List String)
  /-- A variable bound by an enclosing block, without its `@`. -/
  | bound (name : String)
  /-- By name: the head may be found further out, the rest only below it. -/
  | named (head : String) (rest : List String)
  deriving DecidableEq, Repr

namespace Path

/-- The characters of a segment. -/
def isSegmentChar (c : Char) : Bool :=
  isAlphanumeric c || c == '_' || c == '-' || c == '$' || c == '/'

/-- Whether a word is a segment. -/
def isSegment (cs : List Char) : Bool := !cs.isEmpty && cs.all isSegmentChar

/-- The parts between the dots of a word; there is always a first one. -/
def splitDots : List Char → List Char × List (List Char)
  | [] => ([], [])
  | c :: rest =>
    let (head, tail) := splitDots rest
    if c = '.' then ([], head :: tail) else (c :: head, tail)

/-- The parts joined by dots. -/
def joinDots (head : List Char) : List (List Char) → List Char
  | [] => head
  | next :: rest => head ++ '.' :: joinDots next rest

/-- The dotted segments of a word, if all of them are segments. -/
def segments? (cs : List Char) : Option (String × List String) :=
  let (head, tail) := splitDots cs
  if isSegment head && tail.all isSegment then
    some (String.ofList head, tail.map String.ofList)
  else none

/-- Reads a word as a path. -/
def read? (cs : List Char) : Option Path :=
  match cs with
  | ['t', 'h', 'i', 's'] => some (this [])
  | ['.'] => some (this [])
  | '@' :: name => if isSegment name then some (bound (String.ofList name)) else none
  | 't' :: 'h' :: 'i' :: 's' :: '.' :: rest =>
    (segments? rest).map fun (head, tail) => this (head :: tail)
  | '.' :: '/' :: rest => (segments? rest).map fun (head, tail) => this (head :: tail)
  | cs => (segments? cs).map fun (head, tail) => named head tail

/-- The spelling of a path. -/
def spelling : Path → List Char
  | this [] => ['t', 'h', 'i', 's']
  | this (head :: tail) =>
    ['t', 'h', 'i', 's', '.'] ++ joinDots head.toList (tail.map String.toList)
  | bound name => '@' :: name.toList
  | named head tail => joinDots head.toList (tail.map String.toList)

end Path

end Stencil
