import Stencil.Session

/-!
# What a command does to the engine

The engine is shared, so whatever is said of it in a row of commands has to be said for every kind of
command, also for those that have nothing to do with it. Most have not: a command changes the helpers,
or the source, or what the source looks at, or the shelf, and leaves everything else as it was
(`Command.Changes`). This is shown once for all commands,

> `engine_run`, `engine_step`: what one command makes of each part of the engine,

and what is said of a single part follows from it. What compiling and rendering do to the shelf is left
out: it depends on the templates.
-/

namespace Stencil

/-! ## The parts of an engine after a command -/

namespace Command

/-- The helpers after a command. -/
def helpersAfter (helpers : Table Helper) : Command → Table Helper
  | .register name helper => helpers.insert name helper
  | .registerAll more => more.foldl (fun t entry => t.insert entry.1 entry.2) helpers
  | .compileText .. | .compile .. | .render .. | .hasHelper .. | .countHelpers | .clearKept
  | .insertText .. | .putAssets .. | .clearAssets | .replaceFiles .. | .clone .. | .setChain ..
  | .describe .. => helpers

/-- The source after a command. -/
def sourceAfter (source : Option Source) : Command → Option Source
  | .insertText name text => source.map fun s => s.insert name text
  | .compileText .. | .compile .. | .render .. | .register .. | .registerAll .. | .hasHelper ..
  | .countHelpers | .clearKept | .putAssets .. | .clearAssets | .replaceFiles .. | .clone ..
  | .setChain .. | .describe .. => source

/-- What the source looks at after a command. -/
def aroundAfter (around : Surroundings) : Command → Surroundings
  | .putAssets pairs => { around with assets := (around.assets.putAll pairs).2 }
  | .clearAssets => { around with assets := [] }
  | .replaceFiles disk => { around with disk := disk }
  | .compileText .. | .compile .. | .render .. | .register .. | .registerAll .. | .hasHelper ..
  | .countHelpers | .clearKept | .insertText .. | .clone .. | .setChain .. | .describe .. => around

/-- The command neither looks anything up on the shelf nor clears it. -/
def leavesShelf : Command → Bool
  | .compile .. | .render .. | .clearKept => false
  | .compileText .. | .register .. | .registerAll .. | .hasHelper .. | .countHelpers
  | .insertText .. | .putAssets .. | .clearAssets | .replaceFiles .. | .clone .. | .setChain ..
  | .describe .. => true

/-- What a command makes of an engine, part by part. -/
structure Changes (c : Command) (e e' : Engine) : Prop where
  helpers : e'.helpers = c.helpersAfter e.helpers
  source : e'.source = c.sourceAfter e.source
  around : e'.around = c.aroundAfter e.around
  keeps : e'.keeps = e.keeps
  shelf : c.leavesShelf = true → e'.shelf = e.shelf

theorem isSome_sourceAfter (c : Command) (source : Option Source) :
    (c.sourceAfter source).isSome = source.isSome := by
  cases c with
  | insertText name text => exact Option.isSome_map
  | _ => rfl

end Command

/-! ## One command -/

namespace Engine

variable {d e : Engine}

/-- Of an engine, a render changes nothing but the shelf. -/
theorem shelf_of_render {t : Template} {c : Context} {r : Except Fault String}
    (h : d.render t c = some (r, e)) : e = { d with shelf := e.shelf } := by
  unfold render at h
  obtain ⟨⟨r', shelf⟩, _, hresult⟩ := Option.map_eq_some_iff.1 h
  cases hresult
  rfl

/-- Registering helpers changes nothing but the helpers. -/
theorem registerAll_eq (e : Engine) (helpers : Table Helper) :
    e.registerAll helpers =
      { e with helpers := helpers.foldl (fun t entry => t.insert entry.1 entry.2) e.helpers } := by
  unfold registerAll
  induction helpers generalizing e with
  | nil => rfl
  | cons entry rest ih => exact ih (e.register entry.1 entry.2)

end Engine

namespace Session

variable {s : Session}

theorem engine_putCompiled (slot : String) (r : Except Fault Template) :
    (s.putCompiled slot r).2.engine = s.engine := by
  cases r with
  | error e => rfl
  | ok t => rfl

/-- Of a session, a render changes nothing but the shelf. -/
theorem shelf_of_renderSlot (s : Session) (slot : String) (context : Context) :
    ∃ shelf, (s.renderSlot slot context).2 =
      { s with engine := { s.engine with shelf := shelf } } := by
  unfold renderSlot
  cases s.slots.get? slot with
  | none => exact ⟨s.engine.shelf, rfl⟩
  | some template =>
    dsimp only
    split
    next => exact ⟨s.engine.shelf, rfl⟩
    next text engine hrender =>
      exact ⟨engine.shelf, by rw [← Engine.shelf_of_render hrender]⟩
    next fault engine hrender =>
      exact ⟨engine.shelf, by rw [← Engine.shelf_of_render hrender]⟩

/-- A list of pairs is put in the store, and the rest of the session is as it was. -/
theorem run_putAssets_snd (s : Session) (pairs : List (String × String)) :
    (s.run (.putAssets pairs)).2 =
      s.withAround { s.engine.around with assets := (s.engine.around.assets.putAll pairs).2 } := by
  unfold run
  dsimp only
  split
  next => rfl
  next => rfl

/-- **What one command makes of the engine.** -/
theorem engine_run (s : Session) (c : Command) : c.Changes s.engine (s.run c).2.engine := by
  cases c with
  | compileText handle slot text =>
    simp only [run, engine_putCompiled]
    exact ⟨rfl, rfl, rfl, rfl, fun _ => rfl⟩
  | compile handle slot name =>
    simp only [run, engine_putCompiled]
    exact ⟨rfl, rfl, rfl, rfl, nofun⟩
  | render slot context =>
    obtain ⟨shelf, hshelf⟩ := s.shelf_of_renderSlot slot context
    simp only [run, hshelf]
    exact ⟨rfl, rfl, rfl, rfl, nofun⟩
  | registerAll helpers =>
    simp only [run, Engine.registerAll_eq]
    exact ⟨rfl, rfl, rfl, rfl, fun _ => rfl⟩
  | putAssets pairs =>
    rw [run_putAssets_snd]
    exact ⟨rfl, rfl, rfl, rfl, fun _ => rfl⟩
  | clearKept => exact ⟨rfl, rfl, rfl, rfl, nofun⟩
  | register | hasHelper | countHelpers | insertText | clearAssets | replaceFiles | clone | setChain
  | describe => exact ⟨rfl, rfl, rfl, rfl, fun _ => rfl⟩

/-- The same with an empty record of asked names before the command. -/
theorem engine_step (s : Session) (c : Command) :
    c.Changes s.engine.clearAsked (s.step c).2.engine :=
  engine_run { s with engine := s.engine.clearAsked } c

end Session

end Stencil
