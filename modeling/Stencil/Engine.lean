import Stencil.Template
import Stencil.Source

/-!
# The engine: what handles and templates share

An engine has helpers by name, a source of named templates, and the shelf on which parsed
templates are kept. Handles and templates have nothing of their own but a chain, so a helper
registered anywhere is seen everywhere, and a template read once is read for all.

An engine that does not keep what it reads (`keeps = false`) reads and parses a named template
at every use.
-/

namespace Stencil

/-- What all handles and templates share. -/
structure Engine where
  helpers : Table Helper
  source : Option Source
  /-- What the source looks at. -/
  around : Surroundings
  shelf : Shelf
  /-- Whether templates read by name are kept for the next use. -/
  keeps : Bool

namespace Engine

/-- An engine without helpers that keeps what it reads. -/
def new (source : Option Source) (around : Surroundings) : Engine :=
  { helpers := [], source := source, around := around, shelf := .empty, keeps := true }

/-- What reads the text of a named template. -/
def reader (e : Engine) : Option Reader := e.source.map fun s => s.read e.around

/-- What stays the same during a render with a chain. -/
def setting (e : Engine) (chain : Chain) : Setting where
  helpers := e.helpers
  chain := chain
  source := e.reader
  keeps := e.keeps

/-- Registers a helper in place of any other under the same name. -/
def register (e : Engine) (name : String) (h : Helper) : Engine :=
  { e with helpers := e.helpers.insert name h }

/-- Registers helpers in order. -/
def registerAll (e : Engine) (hs : Table Helper) : Engine :=
  hs.foldl (fun e entry => e.register entry.1 entry.2) e

/-- Forgets the parsed templates; the next use reads the source again. -/
def clearKept (e : Engine) : Engine := { e with shelf := { e.shelf with kept := [] } }

/-- Forgets which names the source was asked for. -/
def clearAsked (e : Engine) : Engine := { e with shelf := { e.shelf with asked := [] } }

/-- Adds a text to a source in memory. -/
def insertText (e : Engine) (name text : String) : Engine :=
  { e with source := e.source.map fun s => s.insert name text }

/-- The name of templates compiled from a text at hand. -/
def inlineName : String := "inline"

/-- Compiles a text at hand, which is never kept on the shelf. -/
def compileText (chain : Chain) (text : String) : Except Fault Template :=
  (parse text).map fun nodes => ⟨inlineName, nodes, chain⟩

/-- Compiles a named template from the shelf or the source. -/
def compile (e : Engine) (chain : Chain) (name : String) : Except Fault Template × Engine :=
  let (r, shelf) := e.shelf.load e.reader e.keeps name
  (r.map fun nodes => ⟨name, nodes, chain⟩, { e with shelf := shelf })

/-- Renders a template. There is no result if overrides lead back to their own region for
ever. -/
def render (e : Engine) (t : Template) (c : Context) : Option (Except Fault String × Engine) :=
  ((e.setting (c.chainFor t)).render t.nodes c.scopes e.shelf).map fun (r, shelf) =>
    (r, { e with shelf := shelf })

/-- How logs show an engine behind a handle with a chain. -/
def text (e : Engine) (chain : Chain) : String :=
  "Handlebars \x7b helpers: " ++ toString e.helpers.length ++ ", resolvers: " ++ chain.text ++
    ", has_source: " ++ (if e.source.isSome then "true" else "false") ++ ", cached: " ++
    toString e.shelf.kept.length ++ " \x7d"

end Engine

end Stencil
