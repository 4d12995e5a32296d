import Stencil.Proofs.EngineChanges
import Stencil.Proofs.RenderRules
import Stencil.Proofs.ShelfAnswers

/-!
# Keeping templates changes no result

The shelf keeps every template that was read by name, for all handles and all templates compiled
before or after, and also in the middle of a render that fails later on. None of this shows in
what compiling and rendering give:

> `results_eq_rereading`: as long as the source answers as it did, the results of a session are
> those of a session whose engine reads and parses again at every use, and a render more or less
> in between changes no later result.
> `rereading_keeps_nothing`: that engine never has a kept template to look at.

The invariant is `Shelf.Fresh`: the shelf answers what reading and parsing would give. Two engines
with fresh shelves in front of the same source are the `Same` to whoever uses them, however much
is on either shelf, and every command takes sessions that are the same to sessions that are.
-/

namespace Stencil

/-! ## Renders in front of fresh shelves -/

/-- Progress that is the same but for what is on the shelves, which are both fresh. -/
structure Progress.Same (source : Option Reader) (p q : Progress) : Prop where
  overrides : p.overrides = q.overrides
  openIncludes : p.openIncludes = q.openIncludes
  left : Shelf.Fresh source p.shelf
  right : Shelf.Fresh source q.shelf

/-- Settings with the same source run in parallel, whether they keep templates or not. -/
theorem parallel_of_source {S T : Setting} (hhelpers : S.helpers = T.helpers)
    (hchain : S.chain = T.chain) (hsource : S.source = T.source) :
    Parallel (Progress.Same T.source) S T where
  helpers := hhelpers
  chain := hchain
  overrides _ _ h := h.overrides
  openIncludes _ _ h := h.openIncludes
  override _ _ _ h := { h with overrides := rfl }
  opened _ _ _ h := { h with openIncludes := rfl }
  loaded p q name h := by
    rw [hsource, Shelf.load_fst, Shelf.load_fst, h.left name, h.right name]
  shelved p q name h := by
    rw [hsource]
    exact { h with left := h.left.load, right := h.right.load }

/-- Two engines are the same to whoever uses them: only their shelves differ, and both of these
answer what reading and parsing give. -/
structure Engine.Same (d e : Engine) : Prop where
  helpers : d.helpers = e.helpers
  source : d.source = e.source
  around : d.around = e.around
  left : Shelf.Fresh d.reader d.shelf
  right : Shelf.Fresh e.reader e.shelf

namespace Engine

variable {d e : Engine}

theorem Same.reader (h : Same d e) : d.reader = e.reader := by
  unfold Engine.reader
  rw [h.source, h.around]

theorem same_register (h : Same d e) (name : String) (helper : Helper) :
    Same (d.register name helper) (e.register name helper) where
  helpers := congrArg (Table.insert · name helper) h.helpers
  source := h.source
  around := h.around
  left := h.left
  right := h.right

theorem same_registerAll (h : Same d e) (helpers : Table Helper) :
    Same (d.registerAll helpers) (e.registerAll helpers) := by
  unfold registerAll
  induction helpers generalizing d e with
  | nil => exact h
  | cons entry rest ih => exact ih (same_register h entry.1 entry.2)

/-- What was kept may be forgotten: it can be read again. -/
theorem same_clearKept (h : Same d e) : Same d.clearKept e.clearKept :=
  { h with left := Shelf.fresh_of_kept_eq_nil rfl, right := Shelf.fresh_of_kept_eq_nil rfl }

theorem same_clearAsked (h : Same d e) : Same d.clearAsked e.clearAsked :=
  { h with
    left := fun name => (Shelf.answer_congr rfl).trans (h.left name)
    right := fun name => (Shelf.answer_congr rfl).trans (h.right name) }

theorem same_compile (h : Same d e) (chain : Chain) (name : String) :
    (d.compile chain name).1 = (e.compile chain name).1 ∧
      Same (d.compile chain name).2 (e.compile chain name).2 := by
  unfold compile
  have hload : (d.shelf.load d.reader d.keeps name).1 = (e.shelf.load e.reader e.keeps name).1 := by
    rw [Shelf.load_fst, Shelf.load_fst, h.left name, h.right name, h.reader]
  refine ⟨?_, { h with left := h.left.load, right := h.right.load }⟩
  dsimp only
  rw [hload]

/-- A render gives the same result and leaves the engines the same. -/
theorem same_render (h : Same d e) (t : Template) (c : Context) :
    Option.Rel (fun a b => a.1 = b.1 ∧ Same a.2 b.2) (d.render t c) (e.render t c) := by
  have hparallel : Parallel (Progress.Same e.reader) (d.setting (c.chainFor t))
      (e.setting (c.chainFor t)) := by
    refine parallel_of_source (T := e.setting (c.chainFor t)) ?_ ?_ ?_
    · exact h.helpers
    · rfl
    · exact h.reader
  have hstart : Progress.Same e.reader ⟨[], 0, d.shelf⟩ ⟨[], 0, e.shelf⟩ :=
    { overrides := rfl, openIncludes := rfl, left := h.reader ▸ h.left, right := h.right }
  have hagree := expand_agree hparallel expansionBudget t.nodes c.scopes _ _ hstart
  unfold render Setting.render
  generalize (d.setting (c.chainFor t)).expand expansionBudget t.nodes c.scopes _ = x,
    (e.setting (c.chainFor t)).expand expansionBudget t.nodes c.scopes _ = y at hagree ⊢
  cases hagree with
  | endless => exact .none
  | ended hpq =>
    exact .some ⟨rfl, { h with left := h.reader.symm ▸ hpq.left, right := hpq.right }⟩

end Engine

/-! ## Sessions -/

/-- The command leaves the source's answers as they are: it changes neither the source nor what
the source looks at. -/
def Command.keepsAnswers : Command → Bool
  | .insertText .. | .putAssets .. | .clearAssets | .replaceFiles .. => false
  | .compileText .. | .compile .. | .render .. | .register .. | .registerAll .. | .hasHelper ..
  | .countHelpers | .clearKept | .clone .. | .setChain .. | .describe .. => true

/-- The command compiles or renders a template. -/
def Command.isUse : Command → Bool
  | .compileText .. | .compile .. | .render .. => true
  | .register .. | .registerAll .. | .hasHelper .. | .countHelpers | .clearKept
  | .insertText .. | .putAssets .. | .clearAssets | .replaceFiles .. | .clone .. | .setChain ..
  | .describe .. => false

/-- An engine without helpers that reads and parses a template at every use. -/
def Engine.rereading (source : Option Source) (around : Surroundings) : Engine :=
  { Engine.new source around with keeps := false }

namespace Session

/-- The session after a row of commands. -/
def after (s : Session) : List Command → Session
  | [] => s
  | c :: rest => (s.step c).2.after rest

/-- What the compilations and renders in a row of commands give, in order. -/
def results (s : Session) : List Command → List Reply
  | [] => []
  | c :: rest =>
    if c.isUse then (s.step c).1 :: (s.step c).2.results rest else (s.step c).2.results rest

/-- Sessions with the same handles and slots, and with engines that are the same to them. -/
structure Same (s t : Session) : Prop where
  engine : s.engine.Same t.engine
  handles : s.handles = t.handles
  slots : s.slots = t.slots

variable {s t : Session}

theorem after_append (s : Session) (before rest : List Command) :
    s.after (before ++ rest) = (s.after before).after rest := by
  induction before generalizing s with
  | nil => rfl
  | cons c before ih => exact ih (s.step c).2

/-- What every command keeps true of a session and of something that is made of the commands so far,
rows of commands keep true of them. -/
theorem after_of_step {σ : Type} {f : σ → Command → σ} {R : σ → Session → Prop}
    (hstep : ∀ {x s}, R x s → ∀ c, R (f x c) (s.step c).2) {x : σ} (h : R x s)
    (commands : List Command) : R (commands.foldl f x) (s.after commands) := by
  induction commands generalizing s x with
  | nil => exact h
  | cons c rest ih => exact ih (hstep h c)

theorem Same.chainOf (h : Same s t) (handle : String) : s.chainOf handle = t.chainOf handle := by
  unfold Session.chainOf
  rw [h.handles]

theorem same_putCompiled (h : Same s t) (slot : String) (r : Except Fault Template) :
    (s.putCompiled slot r).1 = (t.putCompiled slot r).1 ∧
      Same (s.putCompiled slot r).2 (t.putCompiled slot r).2 := by
  cases r with
  | error e => exact ⟨rfl, h⟩
  | ok template => exact ⟨rfl, { h with slots := congrArg (Table.insert · slot template) h.slots }⟩

theorem same_renderSlot (h : Same s t) (slot : String) (context : Context) :
    (s.renderSlot slot context).1 = (t.renderSlot slot context).1 ∧
      Same (s.renderSlot slot context).2 (t.renderSlot slot context).2 := by
  unfold renderSlot
  rw [h.slots]
  cases t.slots.get? slot with
  | none => exact ⟨rfl, h⟩
  | some template =>
    have hrender := Engine.same_render h.engine template context
    dsimp only
    generalize s.engine.render template context = x, t.engine.render template context = y
      at hrender ⊢
    cases hrender with
    | none => exact ⟨rfl, h⟩
    | @some a b hab =>
      obtain ⟨r, d⟩ := a
      obtain ⟨r', e⟩ := b
      obtain ⟨rfl, hsame⟩ := hab
      cases r with
      | error fault => exact ⟨rfl, { engine := hsame, handles := h.handles, slots := rfl }⟩
      | ok text => exact ⟨rfl, { engine := hsame, handles := h.handles, slots := rfl }⟩

/-- One command: sessions that are the same stay the same, and what a compilation or a render
gives is the same in both. -/
theorem same_run (h : Same s t) {c : Command} (hc : c.keepsAnswers = true) :
    (c.isUse = true → (s.run c).1 = (t.run c).1) ∧ Same (s.run c).2 (t.run c).2 := by
  -- What other commands give need not be the same.
  have hother (huse : c.isUse = false) (hsame : Same (s.run c).2 (t.run c).2) :
      (c.isUse = true → (s.run c).1 = (t.run c).1) ∧ Same (s.run c).2 (t.run c).2 :=
    ⟨fun h => absurd (huse.symm.trans h) Bool.false_ne_true, hsame⟩
  cases c with
  | compileText handle slot text =>
    obtain ⟨hreply, hsame⟩ := same_putCompiled h slot (Engine.compileText (t.chainOf handle) text)
    simp only [run, h.chainOf]
    exact ⟨fun _ => hreply, hsame⟩
  | compile handle slot name =>
    obtain ⟨hresult, hengine⟩ := Engine.same_compile h.engine (t.chainOf handle) name
    simp only [run, h.chainOf, hresult]
    obtain ⟨hreply, hsame⟩ := same_putCompiled (s := { s with engine := _ })
      (t := { t with engine := _ }) { h with engine := hengine } slot
      (t.engine.compile (t.chainOf handle) name).1
    exact ⟨fun _ => hreply, hsame⟩
  | render slot context =>
    obtain ⟨hreply, hsame⟩ := same_renderSlot h slot context
    exact ⟨fun _ => hreply, hsame⟩
  | register name helper =>
    exact hother rfl { h with engine := Engine.same_register h.engine name helper }
  | registerAll helpers =>
    exact hother rfl { h with engine := Engine.same_registerAll h.engine helpers }
  | hasHelper name => exact hother rfl h
  | countHelpers => exact hother rfl h
  | clearKept => exact hother rfl { h with engine := Engine.same_clearKept h.engine }
  | clone handle other =>
    have hhandles : s.handles.insert other (s.chainOf handle) =
        t.handles.insert other (t.chainOf handle) := by rw [h.handles, h.chainOf]
    exact hother rfl { h with handles := hhandles }
  | setChain handle chain =>
    have hhandles := congrArg (Table.insert · handle chain) h.handles
    exact hother rfl { h with handles := hhandles }
  | describe handle => exact hother rfl h
  | insertText | putAssets | clearAssets | replaceFiles => cases hc

theorem same_step (h : Same s t) {c : Command} (hc : c.keepsAnswers = true) :
    (c.isUse = true → (s.step c).1 = (t.step c).1) ∧ Same (s.step c).2 (t.step c).2 := by
  have hcleared : Same { s with engine := s.engine.clearAsked }
      { t with engine := t.engine.clearAsked } :=
    { h with engine := Engine.same_clearAsked h.engine }
  exact same_run hcleared hc

theorem same_after (h : Same s t) {commands : List Command}
    (hc : ∀ c ∈ commands, c.keepsAnswers = true) : Same (s.after commands) (t.after commands) := by
  induction commands generalizing s t with
  | nil => exact h
  | cons c rest ih =>
    exact ih (same_step h (hc c (List.mem_cons_self ..))).2
      fun c' hc' => hc c' (List.mem_cons_of_mem _ hc')

/-- A row of commands gives the same results in sessions that are the same. -/
theorem results_eq_of_same (h : Same s t) {commands : List Command}
    (hc : ∀ c ∈ commands, c.keepsAnswers = true) : s.results commands = t.results commands := by
  induction commands generalizing s t with
  | nil => rfl
  | cons c rest ih =>
    obtain ⟨hreply, hsame⟩ := same_step h (hc c (List.mem_cons_self ..))
    have hrest := ih hsame fun c' hc' => hc c' (List.mem_cons_of_mem _ hc')
    unfold results
    split
    next huse => rw [hreply huse, hrest]
    next => exact hrest

/-- A render leaves the session the same, whether it succeeds or fails. -/
theorem same_step_render (h : Same s s) (slot : String) (context : Context) :
    Same (s.step (.render slot context)).2 s := by
  -- That its shelf is still fresh is known from the step; all else is as it was.
  have hfresh := (same_step h (c := .render slot context) rfl).2.engine.left
  obtain ⟨shelf, hshelf⟩ : ∃ shelf, (s.step (.render slot context)).2 =
      { s with engine := { s.engine with shelf := shelf } } :=
    shelf_of_renderSlot { s with engine := s.engine.clearAsked } slot context
  rw [hshelf] at hfresh ⊢
  exact { h with engine := { h.engine with left := hfresh } }

/-- At the start it makes no difference whether the engine is going to keep templates. -/
theorem same_start (source : Option Source) (around : Surroundings) (handle : String)
    (keeps keeps' : Bool) :
    Same (start { Engine.new source around with keeps := keeps } handle)
      (start { Engine.new source around with keeps := keeps' } handle) where
  engine :=
    { helpers := rfl, source := rfl, around := rfl, left := fun _ => rfl, right := fun _ => rfl }
  handles := rfl
  slots := rfl

end Session

/-! ## The engine that reads again -/

/-- The engine keeps nothing and has kept nothing, so it reads and parses at every use. -/
structure Engine.Bare (e : Engine) : Prop where
  keeps : e.keeps = false
  kept : e.shelf.kept = []

namespace Engine

variable {d e : Engine}

theorem Bare.load (h : Bare d) (shelf : Shelf) (name : String) (hshelf : shelf.kept = []) :
    (shelf.load d.reader d.keeps name).2.kept = [] := by
  rw [h.keeps]
  exact Shelf.kept_load_of_not_keeping hshelf

theorem bare_render {t : Template} {c : Context} {r : Except Fault String} (hd : Bare d)
    (h : d.render t c = some (r, e)) : Bare e := by
  unfold render at h
  obtain ⟨⟨r', shelf⟩, hrender, hresult⟩ := Option.map_eq_some_iff.1 h
  cases hresult
  have hkept := render_keeps_shelf (d.setting _) hd.load hd.kept hrender
  exact { hd with kept := hkept }

end Engine

namespace Session

variable {s : Session}

/-- No command makes the engine keep anything, also none that changes the source. -/
theorem bare_run (h : s.engine.Bare) (c : Command) : (s.run c).2.engine.Bare := by
  have hchanges := s.engine_run c
  have hidle : c.leavesShelf = true → (s.run c).2.engine.Bare := fun hc =>
    ⟨hchanges.keeps.trans h.keeps, (congrArg Shelf.kept (hchanges.shelf hc)).trans h.kept⟩
  cases c with
  | compile handle slot name =>
    simp only [run, engine_putCompiled]
    exact { h with kept := h.load _ name h.kept }
  | render slot context =>
    simp only [run, renderSlot]
    cases s.slots.get? slot with
    | none => exact h
    | some template =>
      dsimp only
      split
      next => exact h
      next hrender => exact Engine.bare_render h hrender
      next hrender => exact Engine.bare_render h hrender
  | clearKept => exact { h with kept := rfl }
  | _ => exact hidle rfl

theorem bare_after (h : s.engine.Bare) (commands : List Command) :
    (s.after commands).engine.Bare := by
  induction commands generalizing s with
  | nil => exact h
  | cons c rest ih =>
    exact ih (bare_run (s := { s with engine := s.engine.clearAsked }) { h with } c)

end Session

/-- At no point has the engine that reads again a template to fall back on. -/
theorem rereading_keeps_nothing (source : Option Source) (around : Surroundings) (handle : String)
    (commands : List Command) :
    ((Session.start (Engine.rereading source around) handle).after commands).engine.shelf.kept =
      [] :=
  (Session.bare_after { keeps := rfl, kept := rfl } commands).kept

/-! ## Two engines, one result -/

/-- **Keeping templates changes no result.** As long as no command changes what the source
answers, every compilation and every render gives what it gives where the engine reads and parses
at every use; and a render put in anywhere, also one that fails, changes no result after it. -/
theorem results_eq_rereading (source : Option Source) (around : Surroundings) (handle : String)
    (commands : List Command) (hc : ∀ c ∈ commands, c.keepsAnswers = true) :
    let s := Session.start (Engine.new source around) handle
    s.results commands =
        (Session.start (Engine.rereading source around) handle).results commands ∧
      ∀ before after slot context, commands = before ++ after →
        (s.after (before ++ [.render slot context])).results after =
          (s.after before).results after := by
  intro s
  have hstart := Session.same_start source around handle
  refine ⟨Session.results_eq_of_same (hstart true false) hc, ?_⟩
  rintro before rest slot context rfl
  -- The session before the render is the same as itself, so it is the same as after the render.
  have hself : (s.after before).Same (s.after before) :=
    Session.same_after (hstart true true) fun c h => hc c (List.mem_append_left _ h)
  rw [Session.after_append]
  exact Session.results_eq_of_same (Session.same_step_render hself slot context)
    fun c h => hc c (List.mem_append_right _ h)

/-- A page that includes itself for ever and one that is missing, compiled and rendered again after
the shelf was cleared. -/
theorem results_eq_rereading_of_pages :
    let source := Source.own fun name =>
      if name = "page" then .ok "a\x7b\x7b> page\x7d\x7d" else .error (.notFound name)
    let render := Command.render "slot" (.of .null)
    let commands := [.compile "one" "slot" "page", render, .compile "one" "slot" "gone", render,
      .clone "one" "two", .clearKept, .compile "two" "slot" "page", render]
    let s := Session.start (Engine.new (some source) ⟨[], .empty⟩) "one"
    (∀ c ∈ commands, c.keepsAnswers = true) ∧
      s.results commands =
          (Session.start (Engine.rereading (some source) ⟨[], .empty⟩) "one").results commands ∧
        ∀ before after slot context, commands = before ++ after →
          (s.after (before ++ [.render slot context])).results after =
            (s.after before).results after := by
  intro source render commands s
  have hcommands : ∀ c ∈ commands, c.keepsAnswers = true := by
    simp [commands, render, Command.keepsAnswers]
  exact ⟨hcommands, results_eq_rereading (some source) ⟨[], .empty⟩ "one" commands hcommands⟩

end Stencil
