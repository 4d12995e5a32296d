import Stencil.Syntax.Word

/-!
# Tags

What a template writes between double braces. A tag is read in two steps: `cut` finds where it
ends, and `Tag.ofContent` says what its content means.

The end of a tag is the first closing braces outside every text literal; `cutAt` walks the
content one character at a time and remembers only whether it is inside a literal, and whether
the character before was a backslash there.
-/

namespace Stencil

open Text

/-- The blocks that are part of the language. -/
inductive Keyword where
  | whenTrue
  | whenFalse
  | each
  | within
  deriving DecidableEq, Repr

namespace Keyword

/-- The word in a template. -/
def spelling : Keyword → String
  | whenTrue => "if"
  | whenFalse => "unless"
  | each => "each"
  | within => "with"

/-- The keyword with a spelling. -/
def ofName? (name : String) : Option Keyword :=
  if name = "if" then some whenTrue
  else if name = "unless" then some whenFalse
  else if name = "each" then some each
  else if name = "with" then some within
  else none

end Keyword

/-- What opens a block. -/
inductive Opening where
  | keyword (k : Keyword) (param : Param)
  | helper (name : String) (params : List Param) (named : Table Param)
  /-- A region that an override may replace. -/
  | region (name : String)
  /-- The replacement for the regions of a name. -/
  | override (name : String)

namespace Opening

/-- The name that the closer of the block repeats. -/
def closer : Opening → String
  | keyword k _ => k.spelling
  | helper name _ _ => name
  | region _ => "block"
  | override _ => "partial"

/-- Whether the block may have a second body. -/
def allowsElse : Opening → Bool
  | keyword .. | helper .. => true
  | region _ | override _ => false

end Opening

/-- One tag. -/
inductive Tag where
  | comment
  | lookup (path : Path) (escape : Bool)
  | literal (l : Literal) (escape : Bool)
  | call (name : String) (params : List Param) (named : Table Param) (escape : Bool)
  | inclusion (name : String) (context : Option Param)
  | opener (opening : Opening)
  | otherwise
  | closer (name : String)

/-- The outer forms of a tag: short and long comments, raw tags (three braces) and plain
tags. -/
inductive TagForm where
  | note
  | longNote
  | raw
  | plain
  deriving DecidableEq, Repr

namespace TagForm

/-- What follows the first two braces. -/
def opening : TagForm → List Char
  | note | longNote => ['!']
  | raw => ['\x7b']
  | plain => []

/-- What ends the tag. -/
def closing : TagForm → List Char
  | note | plain => ['\x7d', '\x7d']
  | longNote => ['-', '-', '\x7d', '\x7d']
  | raw => ['\x7d', '\x7d', '\x7d']

end TagForm

/-- Where a walk through the content of a tag stands. -/
inductive Quoting where
  | outside
  | inside (quote : Char)
  | escaped (quote : Char)
  deriving DecidableEq, Repr

/-- The state behind one more character. -/
def Quoting.step : Quoting → Char → Quoting
  | outside, c => if Word.isQuote c then inside c else outside
  | inside q, c => if c = '\\' then escaped q else if c = q then outside else inside q
  | escaped q, _ => inside q

/-- Splits a text before the first closing mark outside every text literal; the mark itself is
dropped. -/
def cutAt (closing : List Char) : Quoting → List Char → Option (List Char × List Char)
  | _, [] => none
  | state, c :: rest =>
    if state = .outside ∧ closing.isPrefixOf (c :: rest) then
      some ([], (c :: rest).drop closing.length)
    else (cutAt closing (state.step c) rest).map fun (content, after) => (c :: content, after)

/-- Splits a text before the first occurrence of a mark, which is dropped. -/
def cutBefore (mark : List Char) : List Char → Option (List Char × List Char)
  | [] => none
  | c :: rest =>
    if mark.isPrefixOf (c :: rest) then some ([], (c :: rest).drop mark.length)
    else (cutBefore mark rest).map fun (content, after) => (c :: content, after)

/-- A tag cut out of the text: its form, its content, and what follows the tag. -/
structure Cut where
  form : TagForm
  content : List Char
  after : List Char

/-- Cuts the tag whose first two braces stand right before the text. -/
def cut (cs : List Char) : Except SyntaxCause Cut :=
  match cs with
  | '!' :: rest =>
    let form := if ['-', '-'].isPrefixOf rest then TagForm.longNote else .note
    match cutBefore form.closing rest with
    | some (content, after) => .ok ⟨form, content, after⟩
    | none => .error .unterminatedComment
  | '\x7b' :: rest =>
    match cutAt TagForm.raw.closing .outside rest with
    | some (content, after) => .ok ⟨.raw, content, after⟩
    | none => .error (.unterminatedTag true)
  | rest =>
    match cutAt TagForm.plain.closing .outside rest with
    | some (content, after) => .ok ⟨.plain, content, after⟩
    | none => .error (.unterminatedTag false)

/-- All the characters that a cut took, the first two braces included. -/
def Cut.text (c : Cut) : List Char :=
  '\x7b' :: '\x7b' :: (c.form.opening ++ c.content ++ c.form.closing)

theorem cutBefore_eq {mark cs content after : List Char}
    (h : cutBefore mark cs = some (content, after)) : cs = content ++ mark ++ after := by
  induction cs generalizing content with
  | nil => simp [cutBefore] at h
  | cons c rest ih =>
    unfold cutBefore at h
    split at h
    · rename_i hp
      simp only [Option.some.injEq, Prod.mk.injEq] at h
      rw [← h.1, ← h.2]
      have := List.prefix_iff_eq_append.1 (List.isPrefixOf_iff_prefix.1 hp)
      simpa using this.symm
    · obtain ⟨⟨content', after'⟩, h', heq⟩ := Option.map_eq_some_iff.1 h
      simp only [Prod.mk.injEq] at heq
      obtain ⟨rfl, rfl⟩ := heq
      rw [ih h']
      simp

theorem cutAt_eq {closing cs content after : List Char} {state : Quoting}
    (h : cutAt closing state cs = some (content, after)) :
    cs = content ++ closing ++ after := by
  induction cs generalizing content state with
  | nil => simp [cutAt] at h
  | cons c rest ih =>
    unfold cutAt at h
    split at h
    · rename_i hp
      simp only [Option.some.injEq, Prod.mk.injEq] at h
      rw [← h.1, ← h.2]
      have := List.prefix_iff_eq_append.1 (List.isPrefixOf_iff_prefix.1 hp.2)
      simpa using this.symm
    · obtain ⟨⟨content', after'⟩, h', heq⟩ := Option.map_eq_some_iff.1 h
      simp only [Prod.mk.injEq] at heq
      obtain ⟨rfl, rfl⟩ := heq
      rw [ih h']
      simp

/-- A cut takes a start of the text and leaves the rest as it is. -/
theorem cut_eq {cs : List Char} {c : Cut} (h : cut cs = .ok c) :
    '\x7b' :: '\x7b' :: cs = c.text ++ c.after := by
  unfold cut at h
  split at h
  · rename_i rest
    simp only at h
    split at h
    · rename_i content after hc
      cases h
      have := cutBefore_eq hc
      simp only [Cut.text]
      split <;> rename_i hp <;> simp only [hp] at this <;> rw [this] <;> simp [TagForm.opening]
    · cases h
  · rename_i rest
    split at h
    · rename_i content after hc
      cases h
      simp [Cut.text, TagForm.opening, cutAt_eq hc]
    · cases h
  · split at h
    · rename_i content after hc
      cases h
      simp [Cut.text, TagForm.opening, cutAt_eq hc]
    · cases h

theorem cut_length {cs : List Char} {c : Cut} (h : cut cs = .ok c) :
    c.after.length < cs.length := by
  have := congrArg List.length (cut_eq h)
  simp only [Cut.text, List.length_cons, List.length_append] at this
  have : 0 < c.form.closing.length := by cases c.form <;> simp [TagForm.closing]
  omega

namespace Tag

/-- An expression: a single word stands for itself, a row of words calls a helper. -/
def ofExpression (content : List Char) (escape : Bool) : Except SyntaxCause Tag :=
  match Word.readAll content with
  | .error e => .error e
  | .ok [] => .error .emptyTag
  | .ok [.positional (.path p)] => .ok (lookup p escape)
  | .ok [.positional (.literal l)] => .ok (literal l escape)
  | .ok [.named ..] => .error .nameMissing
  | .ok (first :: rest) =>
    match first.identifier? with
    | none => .error .notAnIdentifier
    | some name =>
      (Word.arguments rest [] []).map fun (params, named) => call name params named escape

/-- The name of a region: a text literal, or a dotted name. -/
def regionName? : List Param → Option String
  | [.literal (.text s)] => some s
  | [.path (.named head rest)] => some (Value.joined "." (head :: rest))
  | _ => none

/-- What a block's name and arguments open. -/
def opening (name : String) (params : List Param) (named : Table Param) :
    Except SyntaxCause Opening :=
  match Keyword.ofName? name with
  | some k =>
    if !named.isEmpty then .error (.namedArgumentOn name)
    else
      match params with
      | [p] => .ok (.keyword k p)
      | _ => .error (.argumentCount name)
  | none =>
    if name = "block" ∨ name = "partial" then
      if !named.isEmpty then .error (.namedArgumentOn name)
      else
        match regionName? params with
        | some region =>
          .ok (if name = "block" then .region region else .override region)
        | none => .error (.regionName name)
    else .ok (.helper name params named)

/-- The content of an opener, behind its `#`. -/
def ofOpener (content : List Char) : Except SyntaxCause Tag :=
  match Word.readAll content with
  | .error e => .error e
  | .ok [] => .error .blockWithoutName
  | .ok (first :: rest) =>
    match first.identifier? with
    | none => .error .notAnIdentifier
    | some name =>
      match Word.arguments rest [] [] with
      | .error e => .error e
      | .ok (params, named) => (opening name params named).map opener

/-- The content of an include, behind its `>`: a name, and at most one argument. -/
def ofInclude (content : List Char) : Except SyntaxCause Tag :=
  match Word.readAll content with
  | .error e => .error e
  | .ok words =>
    match words with
    | [] => .error .includeWithoutName
    | first :: rest =>
      let name? :=
        match first with
        | .positional p => regionName? [p]
        | .named .. => none
      match name?, rest with
      | none, _ => .error .includeWithoutName
      | some name, [] => .ok (inclusion name none)
      | some name, [.positional p] => .ok (inclusion name (some p))
      | some _, .positional _ :: _ :: _ => .error .includeArgumentCount
      | some _, .named .. :: _ => .error .includeNamedArgument

/-- The meaning of a tag of a form with a content. -/
def ofContent (form : TagForm) (content : List Char) : Except SyntaxCause Tag :=
  match form with
  | .note | .longNote => .ok comment
  | .raw => ofExpression (trim content) false
  | .plain =>
    match trim content with
    | '#' :: rest => ofOpener (trimStart rest)
    | '/' :: rest => .ok (closer (String.ofList (trim rest)))
    | '>' :: rest => ofInclude (trimStart rest)
    | '&' :: rest => ofExpression (trimStart rest) false
    | ['e', 'l', 's', 'e'] => .ok otherwise
    | content => ofExpression content true

/-- Whether the tag, when it has a line to itself, takes the whole line with it. -/
def takesLine : Tag → Bool
  | comment | opener _ | otherwise | closer _ => true
  | lookup .. | literal .. | call .. | inclusion .. => false

end Tag

end Stencil
