import Stencil.Syntax.Scan
import Stencil.Syntax.Node
import Stencil.Text.Escape

/-!
# The outline of a template

The pieces of a text are put together to nodes from left to right. The state holds the nodes of
the current level and the blocks that are still open, the innermost first. An open block keeps
the level around it, and its main body once `else` has been seen.

`parse` reads a whole template. Of several faults the one that stands first in the text is
reported; a block that is never closed comes last.
-/

namespace Stencil

open Text

/-- A block that waits for its closer. -/
structure OpenBlock where
  opening : Opening
  /-- The text before the opener, in reverse. -/
  before : List Char
  /-- The nodes of the surrounding level so far. -/
  outer : List Node
  /-- The main body, once `else` has been seen. -/
  main : Option (List Node)

/-- The nodes of the current level, and the open blocks around it. -/
structure Outline where
  level : List Node
  blocks : List OpenBlock

namespace Outline

/-- Nothing read yet. -/
def start : Outline := ⟨[], []⟩

/-- One more node. -/
def add (o : Outline) (n : Node) : Outline := { o with level := o.level ++ [n] }

/-- More text. -/
def addText (o : Outline) (s : String) : Outline := { o with level := Node.addText o.level s }

/-- Opens a block. -/
def enter (o : Outline) (opening : Opening) (before : List Char) : Outline :=
  ⟨[], ⟨opening, before, o.level, none⟩ :: o.blocks⟩

/-- Turns to the second body of the innermost block. -/
def turn (o : Outline) : Except SyntaxCause Outline :=
  match o.blocks with
  | [] => .error .elseOutside
  | b :: rest =>
    if !b.opening.allowsElse then .error .elseInRegion
    else if b.main.isSome then .error (.duplicateElse b.opening.closer)
    else .ok ⟨[], { b with main := some o.level } :: rest⟩

/-- The node of a block whose last body is the current level. -/
def OpenBlock.finish (b : OpenBlock) (level : List Node) : Node :=
  match b.main with
  | none => b.opening.node level none
  | some main => b.opening.node main (some level)

/-- Closes the innermost block. -/
def leave (o : Outline) (name : String) : Except SyntaxCause Outline :=
  match o.blocks with
  | [] => .error (.unexpectedCloser name)
  | b :: rest =>
    if b.opening.closer = name then .ok ⟨b.outer ++ [OpenBlock.finish b o.level], rest⟩
    else .error (.mismatchedCloser b.opening.closer name)

/-- The text that a literal stands for where it is written. -/
def literalText (l : Literal) (escape : Bool) : String :=
  if escape then Text.escape l.value.display else l.value.display

/-- Takes one tag in. -/
def takeTag (o : Outline) (placed : PlacedTag) : Except SyntaxCause Outline :=
  match placed.tag with
  | .comment => .ok o
  | .lookup path escape => .ok (o.add (.lookup path escape))
  | .literal l escape => .ok (o.addText (literalText l escape))
  | .call name params named escape => .ok (o.add (.call name params named escape))
  | .inclusion name context => .ok (o.add (.inclusion name context))
  | .opener opening => .ok (o.enter opening placed.before)
  | .otherwise => o.turn
  | .closer name => o.leave name

/-- Takes one piece in. -/
def take (o : Outline) : Piece → Except SyntaxFault Outline
  | .text chars => .ok (o.addText (String.ofList chars))
  | .tag placed =>
    match o.takeTag placed with
    | .ok o => .ok o
    | .error cause => .error ⟨cause, placed.before⟩

/-- Takes pieces in from left to right. -/
def takeAll (o : Outline) : List Piece → Except SyntaxFault Outline
  | [] => .ok o
  | p :: rest =>
    match o.take p with
    | .error f => .error f
    | .ok o => o.takeAll rest

/-- The nodes, if no block is left open. -/
def finish (o : Outline) : Except SyntaxFault (List Node) :=
  match o.blocks with
  | [] => .ok o.level
  | b :: _ => .error ⟨.unclosedBlock b.opening.closer, b.before⟩

end Outline

/-- The nodes of a scanned text, or its first fault. -/
def Scanned.nodes (s : Scanned) : Except SyntaxFault (List Node) :=
  match Outline.start.takeAll s.pieces with
  | .error f => .error f
  | .ok o =>
    match s.fault with
    | some f => .error f
    | none => o.finish

/-- Reads a template. -/
def parse (text : String) : Except Fault (List Node) :=
  match (scan text.toList).nodes with
  | .ok nodes => .ok nodes
  | .error f => .error f.fault

end Stencil
