import Stencil.Declaration.Fault
import Stencil.Declaration.TypePath

/-!
# Declared helper functions

A block of functions declares a table of helpers. Every public function without a receiver
becomes a helper, under its own name or under one that an attribute gives. Its parameters are
types as texts: one that refers to the options of a call takes them, every other one must be
owned and takes the next argument of the template.
-/

namespace Stencil.Declaration

/-- What a block of functions belongs to. -/
inductive Block where
  | plain
  | ofTrait
  | generic
  deriving DecidableEq, Repr

/-- The attribute that names a helper. -/
inductive HelperNaming where
  | absent
  | text (name : String)
  | malformed
  deriving DecidableEq, Repr

/-- A declared function. -/
structure HelperFunction where
  name : String
  visibility : String
  hasReceiver : Bool
  parameters : List String
  result : Option String
  naming : HelperNaming
  deriving DecidableEq, Repr

/-- What a helper passes to its function in one place. -/
inductive Argument where
  | options
  /-- The argument at an index among the owned parameters, as a type. -/
  | owned (index : Nat) (type : String)
  deriving DecidableEq, Repr

/-- How an argument is written. -/
def Argument.text : Argument → String
  | options => "options"
  | owned index type => toString index ++ ":" ++ type

/-- A helper in the table of a block. -/
structure Entry where
  name : String
  function : String
  arguments : List Argument
  /-- Whether the function may fail. -/
  fallible : Bool
  deriving DecidableEq, Repr

/-- The arguments that a row of parameters takes; `taken` counts the owned ones before. -/
def arguments : Nat → List String → Except DeclarationFault (List Argument)
  | _, [] => .ok []
  | taken, type :: rest =>
    let tokens := Token.read type
    match TypePath.referent? tokens with
    | some inner =>
      if TypePath.lastSegment? inner = some "Options".toList then
        (arguments taken rest).map (.options :: ·)
      else .error .borrowedArgument
    | none => (arguments (taken + 1) rest).map (.owned taken (TypePath.compact tokens) :: ·)

namespace HelperFunction

/-- The name that a helper goes by. -/
def helperName (f : HelperFunction) : Except DeclarationFault String :=
  match f.naming with
  | .absent => .ok f.name
  | .text name => .ok name
  | .malformed => .error .nameNotText

/-- Whether a function becomes a helper. -/
def isExported (f : HelperFunction) : Bool :=
  Token.read f.visibility == [.word "pub".toList] && !f.hasReceiver

/-- Whether the result says that the function may fail. -/
def isFallible (f : HelperFunction) : Bool :=
  match f.result with
  | none => false
  | some type => TypePath.lastSegment? (Token.read type) == some "Result".toList

end HelperFunction

/-- The helpers of functions in order. The name is looked at first, also where the function is
not exported. -/
def entries : List HelperFunction → Except DeclarationFault (List Entry)
  | [] => .ok []
  | f :: rest =>
    f.helperName.bind fun name =>
      if f.isExported then
        (arguments 0 f.parameters).bind fun args =>
          (entries rest).map (⟨name, f.name, args, f.isFallible⟩ :: ·)
      else entries rest

/-- The table of helpers that a block of functions declares. -/
def helperTable (block : Block) (functions : List HelperFunction) :
    Except DeclarationFault (List Entry) :=
  match block with
  | .ofTrait => .error .blockOfTrait
  | .generic => .error .genericBlock
  | .plain => entries functions

end Stencil.Declaration
