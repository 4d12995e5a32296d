import Stencil.Proofs.FaultPlaces

/-!
# A reader with two stacks

An `Outline` keeps the nodes around a block with the block, so its blocks and its levels cannot come
apart. Here a template is read with two stacks that could: one of levels, which are lists of nodes,
and one of open tags. Wherever a stack has not what a step asks for, the reader goes on all the same:
what it cannot put anywhere is dropped, a body that is missing is taken to be empty, and a text that
is too short for an indentation is emptied. Each time it notes a lapse.

The reader takes in one tag, or the text up to the next one, at a time. It has added the text in
front of a tag when it comes to the tag; where the tag has its line to itself, the reader takes the
indentation back, by its number of bytes. It does so before it reads the words of the tag.

> `StackReader.run`: what comes of a reader, and the lapses on the way.
> `StackReader.Reached`: where a reader of a text can stand between two tags.
> `Stacks.takeBack_of_text`: an indentation is taken back whole from a text that ends in it.
-/

namespace Stencil

open Text

/-- What a reader with two stacks passes over. -/
inductive Lapse where
  /-- There is no level to put text or a node into. -/
  | noLevel
  /-- There is no level to take for a body. -/
  | noBody
  /-- There is no text to take an indentation back from. -/
  | noText
  /-- The text is shorter than the indentation. -/
  | shortText
  /-- The text cannot be cut off where the indentation begins. -/
  | splitCharacter
  deriving DecidableEq, Repr

/-- A tag that waits for its closer, with the text before it in reverse, and the main body once
`else` has been seen. -/
structure OpenTag where
  opening : Opening
  before : List Char
  main : Option (List Node)

/-- The node of a tag whose last body is done. -/
def OpenTag.node (tag : OpenTag) (last : List Node) : Node :=
  match tag.main with
  | none => tag.opening.node last none
  | some main => tag.opening.node main (some last)

/-- Levels and open tags, the innermost first, and what was passed over. -/
structure Stacks where
  levels : List (List Node)
  tags : List OpenTag
  lapses : List Lapse

/-- The front of a text that has a number of bytes, if these are whole characters. A text that is
shorter is left as it is. -/
def takeBytes : Nat → List Char → Option (List Char)
  | _, [] => some []
  | count, c :: rest =>
    if count = 0 then some []
    else if count < c.utf8Size then none
    else (takeBytes (count - c.utf8Size) rest).map (c :: ·)

namespace Stacks

/-- One level, and no tag. -/
def start : Stacks := ⟨[[]], [], []⟩

def note (s : Stacks) (lapse : Lapse) : Stacks := { s with lapses := lapse :: s.lapses }

/-- Adds to the innermost level; without one, what is added is dropped. -/
def onLevel (s : Stacks) (f : List Node → List Node) : Stacks :=
  match s.levels with
  | [] => s.note .noLevel
  | level :: outer => { s with levels := f level :: outer }

/-- One more node. -/
def add (s : Stacks) (n : Node) : Stacks := s.onLevel (· ++ [n])

/-- More text. -/
def addText (s : Stacks) (text : String) : Stacks := s.onLevel fun level => Node.addText level text

/-- Takes the innermost level off. -/
def popLevel (s : Stacks) : List Node × Stacks :=
  match s.levels with
  | [] => ([], s.note .noBody)
  | level :: outer => (level, { s with levels := outer })

/-- Takes bytes back from the text at the end of the innermost level; an emptied text goes away. -/
def takeBack (s : Stacks) (count : Nat) : Stacks :=
  match s.levels with
  | [] => s.note .noLevel
  | level :: outer =>
    match level.getLast? with
    | some (.text text) =>
      if byteSize text.toList < count then
        { s with levels := level.dropLast :: outer }.note .shortText
      else
        match takeBytes (byteSize text.toList - count) text.toList with
        | none => s.note .splitCharacter
        | some [] => { s with levels := level.dropLast :: outer }
        | some kept => { s with levels := (level.dropLast ++ [.text (String.ofList kept)]) :: outer }
    | _ => s.note .noText

/-- Takes an indentation back, if there is one. -/
def takeIndent (s : Stacks) (indent : List Char) : Stacks :=
  if indent = [] then s else s.takeBack (byteSize indent)

/-- Opens a tag, and a level for its body. -/
def enter (s : Stacks) (opening : Opening) (before : List Char) : Stacks :=
  { s with levels := [] :: s.levels, tags := ⟨opening, before, none⟩ :: s.tags }

/-- Makes the innermost level the main body of the innermost tag, and opens a level for the second
one. -/
def turn (s : Stacks) : Except SyntaxCause Stacks :=
  match s.tags with
  | [] => .error .elseOutside
  | tag :: outer =>
    if !tag.opening.allowsElse then .error .elseInRegion
    else if tag.main.isSome then .error (.duplicateElse tag.opening.closer)
    else
      let (body, popped) := s.popLevel
      .ok { popped with levels := [] :: popped.levels, tags := { tag with main := some body } :: outer }

/-- Closes the innermost tag, and adds its node to the level below. -/
def leave (s : Stacks) (name : String) : Except SyntaxCause Stacks :=
  match s.tags with
  | [] => .error (.unexpectedCloser name)
  | tag :: outer =>
    if tag.opening.closer = name then
      let (last, popped) := { s with tags := outer }.popLevel
      .ok (popped.add (tag.node last))
    else .error (.mismatchedCloser tag.opening.closer name)

/-- Takes a tag in that stands behind a text. -/
def take (s : Stacks) (before : List Char) : Tag → Except SyntaxCause Stacks
  | .comment => .ok s
  | .lookup path escape => .ok (s.add (.lookup path escape))
  | .literal l escape => .ok (s.addText (Outline.literalText l escape))
  | .call name params named escape => .ok (s.add (.call name params named escape))
  | .inclusion name context => .ok (s.add (.inclusion name context))
  | .opener opening => .ok (s.enter opening before)
  | .otherwise => s.turn
  | .closer name => s.leave name

/-- The nodes of the last level with the lapses, if no tag is left open. -/
def finish (s : Stacks) : Except SyntaxFault (List Node × List Lapse) :=
  match s.tags with
  | [] =>
    let (nodes, s) := s.popLevel
    .ok (nodes, s.lapses)
  | tag :: _ => .error ⟨.unclosedBlock tag.opening.closer, tag.before⟩

end Stacks

/-! ## Where the cursor goes -/

/-- Whether the tag takes a line that it has to itself. This is told by its form and its mark; the
words in it may be unreadable. -/
def Cut.takesLine (c : Cut) : Bool :=
  match Tag.words? c.form c.content with
  | none | some (.opener, _) => true
  | some (.expression _, _) | some (.inclusion, _) => false

/-- Splits a text in front of the first two opening braces. -/
def splitText : List Char → List Char × List Char
  | [] => ([], [])
  | c :: rest =>
    if ['\x7b', '\x7b'].isPrefixOf (c :: rest) then ([], c :: rest)
    else (c :: (splitText rest).1, (splitText rest).2)

/-- The text before the cursor in reverse, the text behind it, and the stacks. -/
structure StackReader where
  before : List Char
  rest : List Char
  state : Stacks

namespace StackReader

def start (text : List Char) : StackReader := ⟨[], text, .start⟩

/-- Goes over a tag, and over its line where the tag takes it. -/
def pass (r : StackReader) (c : Cut) : StackReader :=
  if c.takesLine && hasLine r.before c.after then
    ⟨(splitLine c.after).1.reverse ++ (c.text.reverse ++ r.before), (splitLine c.after).2,
      r.state.takeIndent (lineStart r.before)⟩
  else ⟨c.text.reverse ++ r.before, c.after, r.state⟩

/-- Takes in the tag that was cut at the cursor. -/
def takeTag (r : StackReader) (c : Cut) : Except SyntaxFault StackReader :=
  match Tag.ofContent c.form c.content with
  | .error cause => .error ⟨cause, r.before⟩
  | .ok tag =>
    match (r.pass c).state.take r.before tag with
    | .error cause => .error ⟨cause, r.before⟩
    | .ok state => .ok { r.pass c with state := state }

/-- Takes in the text up to the next tag. -/
def takeText (r : StackReader) : StackReader :=
  ⟨(splitText r.rest).1.reverse ++ r.before, (splitText r.rest).2,
    r.state.addText (String.ofList (splitText r.rest).1)⟩

/-- Takes in the tag at the cursor, or the text in front of the next one. -/
def step (r : StackReader) : Except SyntaxFault StackReader :=
  match r.rest with
  | '\x7b' :: '\x7b' :: inner =>
    match cut inner with
    | .error cause => .error ⟨cause, r.before⟩
    | .ok c => r.takeTag c
  | _ => .ok r.takeText

end StackReader

/-! ## What the cursor passes -/

theorem splitText_eq (cs : List Char) : (splitText cs).1 ++ (splitText cs).2 = cs := by
  induction cs with
  | nil => rfl
  | cons c rest ih =>
    rw [splitText]
    split
    next => rfl
    next => rw [List.cons_append, ih]

theorem plain_splitText (cs : List Char) : Plain (splitText cs).1 (splitText cs).2 := by
  induction cs with
  | nil => exact plain_nil _
  | cons c rest ih =>
    rw [splitText]
    split
    next => exact plain_nil _
    next hbraces =>
      intro a b hab hb hpre
      cases a with
      | nil =>
        -- Two braces at the very front are those that end the text.
        obtain rfl : c :: (splitText rest).1 = b := hab
        rw [List.cons_append, splitText_eq] at hpre
        exact hbraces (List.isPrefixOf_iff_prefix.2 hpre)
      | cons d a => exact ih a b (List.cons.inj hab).2 hb hpre

theorem splitText_ne_nil {c : Char} {rest : List Char} (h : ¬ ['\x7b', '\x7b'] <+: c :: rest) :
    (splitText (c :: rest)).1 ≠ [] := by
  rw [splitText, if_neg (by rwa [List.isPrefixOf_iff_prefix])]
  exact List.cons_ne_nil _ _

theorem Cut.takesLine_eq {c : Cut} {t : Tag} (h : Tag.ofContent c.form c.content = .ok t) :
    c.takesLine = t.takesLine := by
  unfold takesLine
  cases hwords : Tag.words? c.form c.content with
  | none =>
    rcases Tag.ofContent_wordless hwords with ⟨-, hcomment⟩ | ⟨-, ⟨rest, -, hcloser⟩ | ⟨-, helse⟩⟩
    · cases hcomment.symm.trans h
      rfl
    · cases hcloser.symm.trans h
      rfl
    · cases helse.symm.trans h
      rfl
  | some made =>
    obtain ⟨kind, x⟩ := made
    rw [Tag.ofContent_eq_ofKind hwords] at h
    cases hreads : Word.readAll x with
    | error e =>
      rw [Tag.ofKind_of_error hreads] at h
      cases h
    | ok words =>
      cases kind with
      | expression escape =>
        rcases Tag.ofExpression_eq_ok hreads h with ⟨_, -, rfl⟩ | ⟨_, -, rfl⟩ |
          ⟨_, _, _, _, -, -, -, rfl⟩
        all_goals rfl
      | opener =>
        obtain ⟨_, _, _, _, _, -, -, -, rfl⟩ := Tag.ofOpener_eq_ok hreads h
        rfl
      | inclusion =>
        obtain ⟨⟨_, _, rfl⟩, -⟩ := Tag.ofInclude_eq_ok hreads h
        rfl

/-! ## Bytes -/

theorem takeBytes_append (a b : List Char) : takeBytes (byteSize a) (a ++ b) = some a := by
  induction a with
  | nil =>
    cases b with
    | nil => rfl
    | cons c b => rfl
  | cons c a ih =>
    have hpos := c.utf8Size_pos
    rw [List.cons_append, byteSize, takeBytes, if_neg (by omega), if_neg (by omega),
      Nat.add_sub_cancel_left, ih, Option.map_some]

theorem byteSize_reverse (cs : List Char) : byteSize cs.reverse = byteSize cs := by
  induction cs with
  | nil => rfl
  | cons c rest ih =>
    rw [List.reverse_cons, byteSize_append, ih, byteSize, byteSize, byteSize]
    omega

/-- **An indentation is taken back whole** from a text that ends in it, and nothing else is. -/
theorem Stacks.takeBack_of_text {s : Stacks} {front : List Node} {kept indent : List Char}
    {outer : List (List Node)}
    (h : s.levels = (front ++ [.text (String.ofList (kept ++ indent))]) :: outer) :
    s.takeBack (byteSize indent) =
      { s with
        levels := (if kept = [] then front else front ++ [.text (String.ofList kept)]) :: outer } := by
  have hlong : ¬ byteSize (kept ++ indent) < byteSize indent := by
    rw [byteSize_append]
    omega
  have hkept : byteSize (kept ++ indent) - byteSize indent = byteSize kept := by
    rw [byteSize_append]
    omega
  simp only [takeBack, h, List.getLast?_concat, List.dropLast_concat, String.toList_ofList,
    if_neg hlong, hkept, takeBytes_append]
  cases kept with
  | nil => rfl
  | cons c kept => rfl

/-! ## The run -/

namespace StackReader

theorem pass_rest_length (r : StackReader) (c : Cut) :
    (r.pass c).rest.length ≤ c.after.length := by
  unfold pass
  split
  next => exact splitLine_length c.after
  next => exact Nat.le_refl _

theorem step_of_text {r : StackReader} (h : ¬ ['\x7b', '\x7b'] <+: r.rest) :
    r.step = .ok r.takeText := by
  unfold step
  split
  next inner hrest =>
    rw [hrest] at h
    exact absurd ⟨inner, rfl⟩ h
  next => rfl

theorem step_of_tag {r : StackReader} {inner : List Char} {c : Cut}
    (hrest : r.rest = '\x7b' :: '\x7b' :: inner) (hcut : cut inner = .ok c) :
    r.step = r.takeTag c := by
  simp only [step, hrest, hcut]

/-- Every step moves the cursor on. -/
theorem step_rest_length {r r' : StackReader} (hne : r.rest ≠ []) (h : r.step = .ok r') :
    r'.rest.length < r.rest.length := by
  by_cases hbraces : ['\x7b', '\x7b'] <+: r.rest
  · obtain ⟨inner, hinner⟩ := hbraces
    have hrest : r.rest = '\x7b' :: '\x7b' :: inner := hinner.symm
    cases hcut : cut inner with
    | error cause =>
      simp only [step, hrest, hcut] at h
      cases h
    | ok c =>
      have hafter := cut_length hcut
      have hpass := r.pass_rest_length c
      rw [step_of_tag hrest hcut, takeTag] at h
      split at h
      next => cases h
      next =>
        split at h
        next => cases h
        next =>
          cases h
          rw [hrest, List.length_cons, List.length_cons]
          show (r.pass c).rest.length < _
          omega
  · rw [step_of_text hbraces] at h
    cases h
    obtain ⟨c, rest, hrest⟩ := List.exists_cons_of_ne_nil hne
    rw [hrest] at hbraces
    have hchars := List.length_pos_iff.2 (splitText_ne_nil hbraces)
    have hsplit := congrArg List.length (splitText_eq r.rest)
    rw [List.length_append] at hsplit
    rw [← hrest] at hchars
    show (splitText r.rest).2.length < _
    omega

/-- Reads the rest of the text. -/
def run (r : StackReader) : Except SyntaxFault (List Node × List Lapse) :=
  if hne : r.rest = [] then r.state.finish
  else
    match h : r.step with
    | .error f => .error f
    | .ok r' =>
      have := step_rest_length hne h
      r'.run
termination_by r.rest.length

theorem run_of_ended {r : StackReader} (h : r.rest = []) : r.run = r.state.finish := by
  rw [run, dif_pos h]

theorem run_of_error {r : StackReader} {f : SyntaxFault} (hne : r.rest ≠ []) (h : r.step = .error f) :
    r.run = .error f := by
  rw [run, dif_neg hne]
  split
  next heq =>
    cases heq.symm.trans h
    rfl
  next heq => cases heq.symm.trans h

theorem run_of_ok {r r' : StackReader} (hne : r.rest ≠ []) (h : r.step = .ok r') :
    r.run = r'.run := by
  rw [run, dif_neg hne]
  split
  next heq => cases heq.symm.trans h
  next heq =>
    cases heq.symm.trans h
    rfl

/-- Where a reader of a text can stand between two tags, or between a tag and the text around it. -/
inductive Reached (text : List Char) : StackReader → Prop where
  | start : Reached text (start text)
  | step {r r' : StackReader} (h : Reached text r) (hne : r.rest ≠ []) (hstep : r.step = .ok r') :
      Reached text r'

end StackReader

end Stencil
