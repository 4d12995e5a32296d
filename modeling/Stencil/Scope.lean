import Stencil.Syntax.Param
import Stencil.Resolver

/-!
# Scopes

Every block opens a scope: a subject, and the variables that the block binds. Paths are looked
up against the scopes from the innermost outward, but only the head of a named path may be
found further out; from there on only the value reached counts. A look-up never answers null.
-/

namespace Stencil

/-- One level: the current subject, and the variables bound here, the latest first. -/
structure Scope where
  subject : Value
  bound : Table Value

/-- The innermost scope and those around it, in order. -/
structure Scopes where
  current : Scope
  outer : List Scope

namespace Scope

/-- A scope without variables. -/
def of (subject : Value) : Scope := ⟨subject, []⟩

/-- Binds a variable. A null binding hides the same name further out. -/
def bind (s : Scope) (name : String) (v : Value) : Scope :=
  { s with bound := (name, v) :: s.bound }

end Scope

namespace Scopes

/-- A single scope with nothing around it. -/
def root (subject : Value) : Scopes := ⟨.of subject, []⟩

/-- Opens a scope inside. -/
def push (scopes : Scopes) (s : Scope) : Scopes := ⟨s, scopes.current :: scopes.outer⟩

/-- The current subject. -/
def subject (scopes : Scopes) : Value := scopes.current.subject

/-- The scopes from the innermost outward. -/
def toList (scopes : Scopes) : List Scope := scopes.current :: scopes.outer

end Scopes

/-- Follows the segments of a path from a value; nothing is found at a null end. -/
def follow (chain : Chain) : Value → List String → Option Value
  | v, [] => v.nonNull
  | v, segment :: rest =>
    match chain.resolve v segment with
    | some next => follow chain next rest
    | none => none

/-- What the innermost scope that binds a variable says about it. -/
def lookupBound (name : String) : List Scope → Option Value
  | [] => none
  | s :: outer =>
    match Table.get? s.bound name with
    | some v => v.nonNull
    | none => lookupBound name outer

/-- What the innermost subject that resolves a name gives. -/
def lookupHead (chain : Chain) (name : String) : List Scope → Option Value
  | [] => none
  | s :: outer =>
    match chain.resolve s.subject name with
    | some v => some v
    | none => lookupHead chain name outer

namespace Scopes

/-- Looks a path up. -/
def lookup (scopes : Scopes) (chain : Chain) : Path → Option Value
  | .bound name => lookupBound name scopes.toList
  | .this segments => follow chain scopes.subject segments
  | .named head rest =>
    (lookupHead chain head scopes.toList).bind fun v => follow chain v rest

/-- The value of an argument; nothing for a missing path and for null. -/
def eval (scopes : Scopes) (chain : Chain) : Param → Option Value
  | .path p => scopes.lookup chain p
  | .literal l => l.value.nonNull

/-- The value of an argument, null where it has none. -/
def evalOrNull (scopes : Scopes) (chain : Chain) (p : Param) : Value :=
  (scopes.eval chain p).getD .null

end Scopes

end Stencil
