import Stencil.Fault

/-!
# Helpers

A helper is called from a template with evaluated arguments. It sees its call (`Call`) and may
have the bodies of its block rendered, any number of times, before it answers. What it does is
written as a `Script`: a tree of requests, each with what the helper goes on to do once it has
been served, whether with text or with a fault. A script is finite along every branch, and it
has no other way to touch the rendering around it.
-/

namespace Stencil

/-- What a helper is told. -/
structure Call where
  /-- The name as the template writes it. -/
  name : String
  params : List Value
  named : Table Value
  /-- Whether the call has a body. -/
  isBlock : Bool
  /-- The subject where the call stands. -/
  context : Value
  /-- Looks a path up from where the call stands. -/
  lookup : String → Option Value

/-- What a helper does. -/
inductive Script where
  /-- Answers, or fails. -/
  | done (result : Except Fault Value)
  /-- Has the body rendered with a subject. -/
  | body (subject : Value) (resume : Except Fault String → Script)
  /-- Has the second body rendered with the current subject. -/
  | inverse (resume : Except Fault String → Script)

/-- A helper. -/
abbrev Helper := Call → Script

namespace Call

/-- The first argument, null when there is none. -/
def first (c : Call) : Value := c.params.headD .null

/-- The subject of the body: the first argument, or the current subject where that is missing
or null. -/
def bodySubject (c : Call) : Value := if c.first.isNull then c.context else c.first

end Call

namespace Script

/-- Answers with a value. -/
def answer (v : Value) : Script := .done (.ok v)

/-- Answers with text. -/
def answerText (s : String) : Script := answer (.str s)

/-- Goes on with text, and fails with a fault. -/
def withText (next : String → Script) : Except Fault String → Script
  | .ok s => next s
  | .error e => .done (.error e)

/-- Has the body rendered with a subject and goes on with its text. -/
def bodyWith (subject : Value) (next : String → Script) : Script :=
  .body subject (withText next)

/-- Has the second body rendered and goes on with its text. -/
def inverseThen (next : String → Script) : Script := .inverse (withText next)

/-- Has the body rendered once for every subject and goes on with the texts in a row. -/
def bodyForEach (next : String → Script) : String → List Value → Script
  | text, [] => next text
  | text, v :: rest => bodyWith v fun s => bodyForEach next (text ++ s) rest

end Script

end Stencil
