import Stencil.Text.Position
import Stencil.Number.Integer
import Stencil.Value.Text

/-!
# Faults: what can go wrong, and how it is said

Every failing operation names its cause. A fault belongs to one of eight kinds (`Fault.kind`),
and its full text is the title of its kind followed by the text of the cause
(`Fault.message`). The texts live here alone: the operations only choose causes.
-/

namespace Stencil

open Text (Position quote)

/-- What can be wrong with a tag or with the nesting of tags. -/
inductive SyntaxCause where
  | unterminatedComment
  /-- No end of the tag; `raw` when it began with three braces. -/
  | unterminatedTag (raw : Bool)
  | emptyTag
  | nameMissing
  | blockWithoutName
  | notAnIdentifier
  | positionalAfterNamed
  | unterminatedText
  | missingValue
  | invalidPath (word : String)
  | namedArgumentOn (block : String)
  | argumentCount (block : String)
  | regionName (block : String)
  | includeWithoutName
  | includeNamedArgument
  | includeArgumentCount
  | elseOutside
  | elseInRegion
  | duplicateElse (block : String)
  | unexpectedCloser (name : String)
  | mismatchedCloser (expected found : String)
  | unclosedBlock (block : String)
  deriving DecidableEq, Repr

namespace SyntaxCause

/-- The spelling of a block's opener in messages. -/
def openerText (block : String) : String := "'\x7b\x7b#" ++ block ++ "\x7d\x7d'"

/-- The spelling of a closer in messages. -/
def closerText (name : String) : String := "'\x7b\x7b/" ++ name ++ "\x7d\x7d'"

/-- The cause in words, without the position. -/
def text : SyntaxCause → String
  | unterminatedComment => "unterminated comment"
  | unterminatedTag true => "unterminated tag, expected '\x7d\x7d\x7d'"
  | unterminatedTag false => "unterminated tag, expected '\x7d\x7d'"
  | emptyTag => "empty tag"
  | nameMissing => "expected a name before '='"
  | blockWithoutName => "block without a name"
  | notAnIdentifier => "expected an identifier"
  | positionalAfterNamed => "positional arguments must precede hash arguments"
  | unterminatedText => "unterminated string literal"
  | missingValue => "missing argument value"
  | invalidPath word => "invalid path '" ++ word ++ "'"
  | namedArgumentOn block => openerText block ++ " does not take hash arguments"
  | argumentCount block => openerText block ++ " expects exactly one argument"
  | regionName block => openerText block ++ " expects a region name"
  | includeWithoutName => "partial without a name"
  | includeNamedArgument => "partial hash arguments are not supported"
  | includeArgumentCount => "a partial takes at most one context argument"
  | elseOutside => "'\x7b\x7belse\x7d\x7d' outside of a block"
  | elseInRegion => "'\x7b\x7belse\x7d\x7d' is not allowed in a layout region"
  | duplicateElse block => "duplicate '\x7b\x7belse\x7d\x7d' in " ++ openerText block
  | unexpectedCloser name => "unexpected closing tag " ++ closerText name
  | mismatchedCloser expected found =>
    "mismatched closing tag: expected " ++ closerText expected ++ " but found " ++
      closerText found
  | unclosedBlock block => "unclosed block " ++ openerText block

end SyntaxCause

/-- Why a file that is there, or whose name cannot be one, was not read. -/
inductive FileCause where
  | isDirectory
  | notADirectory
  | nameTooLong
  | notUtf8
  | nulInName
  deriving DecidableEq, Repr

/-- The cause in words. -/
def FileCause.text : FileCause → String
  | isDirectory => "Is a directory (os error 21)"
  | notADirectory => "Not a directory (os error 20)"
  | nameTooLong => "File name too long (os error 36)"
  | notUtf8 => "stream did not contain valid UTF-8"
  | nulInName => "file name contained an unexpected NUL byte"

/-- The kind of a fault. -/
inductive FaultKind where
  | malformed
  | notFound
  | unknownHelper
  | helper
  | render
  | typeMismatch
  | serialization
  | load
  deriving DecidableEq, Repr

/-- The title under which a message announces its kind. -/
def FaultKind.title : FaultKind → String
  | malformed => "Syntax Error"
  | notFound => "Template Not Found"
  | unknownHelper => "Helper Not Found"
  | helper => "Helper Error"
  | render => "Render Error"
  | typeMismatch => "Type Mismatch"
  | serialization => "Serialization Error"
  | load => "Template Load Error"

/-- Why an operation failed. -/
inductive Fault where
  | malformed (cause : SyntaxCause) (position : Position)
  /-- No template at a location. -/
  | notFound (location : String)
  /-- A template was asked for by name, but there is nowhere to look. -/
  | noSource (name : String)
  | unknownHelper (name : String)
  /-- A helper gave up with a text of its own. -/
  | helper (text : String)
  /-- An argument of a typed helper could not be converted; arguments count from one. -/
  | argument (helper : String) (index : Nat) (reason : Fault)
  | tooDeep (name : String)
  | outOfRange (n : Int) (kind : IntKind)
  | unreadable (text target : String)
  | unexpected (wanted : String) (found : Value)
  | wideInteger (n : Int)
  | unusableKey (found : Value)
  | valueBeforeKey
  | custom (text : String)
  /-- A pattern that the search for paths could not read, and why, in its words. -/
  | badPattern (pattern why : String)
  /-- A place that the search for paths could not look at, and why, in its words. -/
  | unlistedPath (pattern why : String)
  | unreadableFile (path : String) (cause : FileCause)
  | emptyKey

namespace Fault

/-- The deepest nesting of includes. -/
def includeLimit : Nat := 64

/-- The kind a fault belongs to. -/
def kind : Fault → FaultKind
  | malformed .. => .malformed
  | notFound _ | noSource _ => .notFound
  | unknownHelper _ => .unknownHelper
  | helper _ | argument .. => .helper
  | tooDeep _ => .render
  | outOfRange .. | unreadable .. | unexpected .. => .typeMismatch
  | wideInteger _ | unusableKey _ | valueBeforeKey | custom _ => .serialization
  | badPattern .. | unlistedPath .. | unreadableFile .. | emptyKey => .load

/-- The full text: the title of its kind and the cause in words. -/
def message : Fault → String
  | malformed cause position =>
    FaultKind.malformed.title ++ ": " ++ cause.text ++ " at line " ++ toString position.line ++
      ", column " ++ toString position.column
  | notFound location => FaultKind.notFound.title ++ ": " ++ location
  | noSource name => FaultKind.notFound.title ++ ": " ++ name ++ " (no template source)"
  | unknownHelper name => FaultKind.unknownHelper.title ++ ": " ++ name
  | helper text => FaultKind.helper.title ++ ": " ++ text
  | argument name index reason =>
    FaultKind.helper.title ++ ": " ++ name ++ ": argument " ++ toString index ++ ": " ++
      reason.message
  | tooDeep name =>
    FaultKind.render.title ++ ": partial '" ++ name ++ "' nested more than " ++
      toString includeLimit ++ " levels deep"
  | outOfRange n kind =>
    FaultKind.typeMismatch.title ++ ": Value " ++ toString n ++ " out of range for " ++ kind.name
  | unreadable text target =>
    FaultKind.typeMismatch.title ++ ": Cannot parse " ++ quote text ++ " as " ++ target
  | unexpected wanted found =>
    FaultKind.typeMismatch.title ++ ": Expected " ++ wanted ++ ", got " ++ found.debug
  | wideInteger n =>
    FaultKind.serialization.title ++ ": integer " ++ toString n ++ " is out of range"
  | unusableKey found =>
    FaultKind.serialization.title ++
      ": map keys must be strings, integers or booleans, got " ++ found.debug
  | valueBeforeKey =>
    FaultKind.serialization.title ++ ": map value serialized before its key"
  | custom text => FaultKind.serialization.title ++ ": " ++ text
  | badPattern pattern why =>
    FaultKind.load.title ++ ": invalid glob pattern '" ++ pattern ++ "': " ++ why
  | unlistedPath pattern why =>
    FaultKind.load.title ++ ": cannot read path for '" ++ pattern ++ "': " ++ why
  | unreadableFile path cause =>
    FaultKind.load.title ++ ": failed to read '" ++ path ++ "': " ++ cause.text
  | emptyKey => FaultKind.load.title ++ ": embedded asset without a path"

end Fault

/-! ## Results -/

section

universe u v w

variable {ε : Type} {α : Type u} {β : Type v} {r : Except ε α} {f : α → β}

theorem of_map_eq_ok {y : β} (h : r.map f = .ok y) : ∃ x, r = .ok x ∧ f x = y := by
  cases r with
  | error e => cases h
  | ok x =>
    cases h
    exact ⟨x, rfl, rfl⟩

theorem of_bind_eq_ok {g : α → Except ε β} {y : β} (h : r.bind g = .ok y) :
    ∃ x, r = .ok x ∧ g x = .ok y := by
  cases r with
  | error e => cases h
  | ok x => exact ⟨x, rfl, h⟩

theorem map_map_result {γ : Type w} {g : β → γ} : (r.map f).map g = r.map fun x => g (f x) := by
  cases r with
  | error e => rfl
  | ok x => rfl

theorem of_map_eq_error {e : ε} (h : r.map f = .error e) : r = .error e := by
  cases r with
  | error e' =>
    cases h
    rfl
  | ok x => cases h

end

section

variable {ε α β : Type}

/-- Each item of a list is mapped to one of the results, and each result comes from an item. -/
theorem of_mapM_eq_ok {f : α → Except ε β} {as : List α} {bs : List β} (h : as.mapM f = .ok bs) :
    (∀ a ∈ as, ∃ b ∈ bs, f a = .ok b) ∧ ∀ b ∈ bs, ∃ a ∈ as, f a = .ok b := by
  induction as generalizing bs with
  | nil =>
    cases h
    exact ⟨fun a ha => absurd ha List.not_mem_nil, fun b hb => absurd hb List.not_mem_nil⟩
  | cons a rest ih =>
    rw [List.mapM_cons] at h
    obtain ⟨b, hb, h⟩ := of_bind_eq_ok h
    obtain ⟨more, hmore, h⟩ := of_bind_eq_ok h
    cases h
    obtain ⟨hitems, hresults⟩ := ih hmore
    constructor
    · refine List.forall_mem_cons.2 ⟨⟨b, List.mem_cons_self .., hb⟩, fun a' ha' => ?_⟩
      obtain ⟨b', hb', heq⟩ := hitems a' ha'
      exact ⟨b', List.mem_cons_of_mem _ hb', heq⟩
    · refine List.forall_mem_cons.2 ⟨⟨a, List.mem_cons_self .., hb⟩, fun b' hb' => ?_⟩
      obtain ⟨a', ha', heq⟩ := hresults b' hb'
      exact ⟨a', List.mem_cons_of_mem _ ha', heq⟩

/-- What holds of the items that are left and of what the others came to, step by step, holds in the
end. -/
theorem of_foldlM {f : β → α → Except ε β} (I : List α → β → Prop)
    (step : ∀ a rest b b', I (a :: rest) b → f b a = .ok b' → I rest b') {as : List α} {b b' : β}
    (hb : I as b) (h : as.foldlM f b = .ok b') : I [] b' := by
  induction as generalizing b with
  | nil =>
    cases h
    exact hb
  | cons a rest ih =>
    obtain ⟨next, hnext, h⟩ := of_bind_eq_ok h
    exact ih (step a rest b next hb hnext) h

end

end Stencil
