import Stencil.Engine

/-!
# Sessions: one engine, many handles and templates

A session is an engine with named handles to it and with slots for compiled templates. A handle
is a chain: cloning it copies the chain, and giving it another chain changes nothing for any
other handle or for a template compiled before. Everything else goes to the engine that all of
them share.

`Session.step` carries out one command and replies; the names that the source was asked for on
the way stand on the engine's shelf.
-/

namespace Stencil

/-- An engine with its handles, and compiled templates in slots. -/
structure Session where
  engine : Engine
  handles : Table Chain
  slots : Table Template

/-- What can be done in a session. Handles and slots go by their names. -/
inductive Command where
  | compileText (handle slot text : String)
  | compile (handle slot name : String)
  | render (slot : String) (context : Context)
  | register (name : String) (helper : Helper)
  | registerAll (helpers : Table Helper)
  | hasHelper (name : String)
  | countHelpers
  | clearKept
  | insertText (name text : String)
  | putAssets (pairs : List (String × String))
  | clearAssets
  /-- Replaces the files on the disk. -/
  | replaceFiles (disk : Disk)
  | clone (handle other : String)
  | setChain (handle : String) (chain : Chain)
  | describe (handle : String)

/-- What a command replies. -/
inductive Reply where
  | done
  | failed (e : Fault)
  | compiled (t : Template)
  | rendered (text : String)
  /-- There was no template to render. -/
  | skipped
  /-- The render has no result. -/
  | endless
  | answer (b : Bool)
  | count (n : Nat)
  | described (text : String) (resolvers : Nat)

namespace Session

/-- A session with one handle, which has the default chain. -/
def start (engine : Engine) (handle : String) : Session :=
  { engine := engine, handles := [(handle, .default)], slots := [] }

/-- The chain of a handle; a handle that is not there has the default chain. -/
def chainOf (s : Session) (handle : String) : Chain := (s.handles.get? handle).getD .default

/-- Puts a freshly compiled template into its slot; after a failure the slot keeps what it
had. -/
def putCompiled (s : Session) (slot : String) : Except Fault Template → Reply × Session
  | .ok t => (.compiled t, { s with slots := s.slots.insert slot t })
  | .error e => (.failed e, s)

/-- Renders the template in a slot. -/
def renderSlot (s : Session) (slot : String) (context : Context) : Reply × Session :=
  match s.slots.get? slot with
  | none => (.skipped, s)
  | some t =>
    match s.engine.render t context with
    | none => (.endless, s)
    | some (.ok text, engine) => (.rendered text, { s with engine := engine })
    | some (.error e, engine) => (.failed e, { s with engine := engine })

/-- Changes what the engine's source looks at. -/
def withAround (s : Session) (around : Surroundings) : Session :=
  { s with engine := { s.engine with around := around } }

/-- Carries out a command. -/
def run (s : Session) : Command → Reply × Session
  | .compileText handle slot text =>
    s.putCompiled slot (Engine.compileText (s.chainOf handle) text)
  | .compile handle slot name =>
    let (r, engine) := s.engine.compile (s.chainOf handle) name
    { s with engine := engine }.putCompiled slot r
  | .render slot context => s.renderSlot slot context
  | .register name helper => (.done, { s with engine := s.engine.register name helper })
  | .registerAll helpers => (.done, { s with engine := s.engine.registerAll helpers })
  | .hasHelper name => (.answer (s.engine.helpers.has name), s)
  | .countHelpers => (.count s.engine.helpers.length, s)
  | .clearKept => (.done, { s with engine := s.engine.clearKept })
  | .insertText name text => (.done, { s with engine := s.engine.insertText name text })
  | .putAssets pairs =>
    let (r, assets) := s.engine.around.assets.putAll pairs
    let s := s.withAround { s.engine.around with assets := assets }
    match r with
    | .ok _ => (.done, s)
    | .error e => (.failed e, s)
  | .clearAssets => (.done, s.withAround { s.engine.around with assets := [] })
  | .replaceFiles disk => (.done, s.withAround { s.engine.around with disk := disk })
  | .clone handle other =>
    (.done, { s with handles := s.handles.insert other (s.chainOf handle) })
  | .setChain handle chain => (.done, { s with handles := s.handles.insert handle chain })
  | .describe handle =>
    let chain := s.chainOf handle
    (.described (s.engine.text chain) chain.length, s)

/-- Carries out a command with an empty record of asked names. -/
def step (s : Session) (c : Command) : Reply × Session :=
  { s with engine := s.engine.clearAsked }.run c

/-- The names that the source was asked for in the last step. -/
def asked (s : Session) : List String := s.engine.shelf.asked

end Session

end Stencil
