import Mathlib
import Stencil.Proofs.Cells

/-!
# What handles share and what they have alone

Handles and templates share the helpers, the source and the shelf; a chain is what each of them has
alone. For rows of commands that go through any of the handles, this is shown of the session in
which handles and templates refer to cells (`handles_share_and_detach`), where giving a handle
another chain replaces it in place or in a copy:

> The helper under a name is the one registered last, no matter through which handle, and whether
> before or after a template was compiled.
> A template keeps its nodes, and the chain that its handle had when it was compiled.
> Another chain for a handle is no other chain for any other handle or template.
> A chain that comes with the context of a render does what the chain of the template does
> otherwise.

All of these are first shown of a `Session` and then carried over by `run_shows`. What a render
gives can depend on the shelf, which compiling once more changes; `render_congr` is the reason why
that does not matter: what counts is what the shelf answers.
-/

namespace Stencil

/-! ## Renders with shelves that answer alike -/

/-- Progress that is the same but for the shelves, which answer alike. -/
structure Progress.Alike (source : Option Reader) (p q : Progress) : Prop where
  overrides : p.overrides = q.overrides
  openIncludes : p.openIncludes = q.openIncludes
  answers : ∀ name, p.shelf.answer source name = q.shelf.answer source name

theorem parallel_of_answers (setting : Setting) :
    Parallel (Progress.Alike setting.source) setting setting where
  helpers := rfl
  chain := rfl
  overrides _ _ h := h.overrides
  openIncludes _ _ h := h.openIncludes
  override _ _ _ h := { h with overrides := rfl }
  opened _ _ _ h := { h with openIncludes := rfl }
  loaded p q name h := by rw [Shelf.load_fst, Shelf.load_fst, h.answers name]
  shelved p q name h := by
    refine { h with answers := fun other => ?_ }
    rw [Shelf.answer_load, Shelf.answer_load, h.answers other]

/-- What a render gives depends on what the shelf answers. -/
theorem Setting.render_congr (setting : Setting) (nodes : List Node) (scopes : Scopes)
    {shelf other : Shelf}
    (h : ∀ name, shelf.answer setting.source name = other.answer setting.source name) :
    (setting.render nodes scopes shelf).map Prod.fst =
      (setting.render nodes scopes other).map Prod.fst := by
  have hstart : Progress.Alike setting.source ⟨[], 0, shelf⟩ ⟨[], 0, other⟩ :=
    { overrides := rfl, openIncludes := rfl, answers := h }
  have hagree :=
    expand_agree (parallel_of_answers setting) expansionBudget nodes scopes _ _ hstart
  unfold Setting.render
  generalize setting.expand expansionBudget nodes scopes ⟨[], 0, shelf⟩ = x,
    setting.expand expansionBudget nodes scopes ⟨[], 0, other⟩ = y at hagree ⊢
  cases hagree with
  | endless => rfl
  | ended => rfl

/-- What the command that renders replies, given what the render gives. -/
def Reply.ofRender : Option (Except Fault String) → Reply
  | none => .endless
  | some (.ok text) => .rendered text
  | some (.error e) => .failed e

/-! ## The helper registered last -/

/-- The helpers that a command registers, in order. -/
def Command.registered : Command → Table Helper
  | .register name helper => [(name, helper)]
  | .registerAll helpers => helpers
  | .compileText .. | .compile .. | .render .. | .hasHelper .. | .countHelpers | .clearKept
  | .insertText .. | .putAssets .. | .clearAssets | .replaceFiles .. | .clone .. | .setChain ..
  | .describe .. => []

/-- Of all helpers that a row of commands registers under a name, the last one. -/
def lastRegistered (commands : List Command) (name : String) : Option Helper :=
  Table.get? (commands.flatMap Command.registered).reverse name

/-- Every call of a helper runs the one that `find` gives, and fails where there is none. -/
def Setting.Calls (setting : Setting) (find : String → Option Helper) : Prop :=
  ∀ scopes name params named isBlock body inverse,
    setting.runHelper scopes name params named isBlock body inverse =
      match find name with
      | none => Step.fail (.unknownHelper name)
      | some helper =>
        (helper (setting.call scopes name params named isBlock)).run body inverse

theorem Setting.calls_of_get? {setting : Setting} {find : String → Option Helper}
    (h : ∀ name, setting.helpers.get? name = find name) : setting.Calls find := by
  intro scopes name params named isBlock body inverse
  rw [← h name]
  rfl

theorem Engine.helpers_registerAll (e : Engine) (helpers : Table Helper) (name : String) :
    (e.registerAll helpers).helpers.get? name =
      (Table.get? helpers.reverse name).or (e.helpers.get? name) := by
  rw [e.registerAll_eq]
  exact Table.get?_foldl helpers e.helpers name

/-! ## Templates in their slots -/

/-- The slot that a command compiles into. -/
def Command.slot? : Command → Option String
  | .compileText _ slot _ | .compile _ slot _ => some slot
  | .render .. | .register .. | .registerAll .. | .hasHelper .. | .countHelpers | .clearKept
  | .insertText .. | .putAssets .. | .clearAssets | .replaceFiles .. | .clone .. | .setChain ..
  | .describe .. => none

/-- With an engine, a command compiles nodes through a handle into a slot: from a text at hand, or
from what the engine has under a name. -/
inductive Command.Compiles (e : Engine) : Command → String → String → List Node → Prop
  | text {handle slot text : String} {nodes : List Node} (h : parse text = .ok nodes) :
    Compiles e (.compileText handle slot text) handle slot nodes
  | named {handle slot name : String} {nodes : List Node}
    (h : e.shelf.answer e.reader name = .ok nodes) :
    Compiles e (.compile handle slot name) handle slot nodes

theorem Command.Compiles.clearAsked {e : Engine} {c : Command} {handle slot : String}
    {nodes : List Node} (h : c.Compiles e handle slot nodes) :
    c.Compiles e.clearAsked handle slot nodes := by
  cases h with
  | text h => exact .text h
  | named h => exact .named ((Shelf.answer_congr rfl).trans h)

namespace Session

variable {s : Session}

theorem helpers_step (s : Session) (c : Command) (name : String) :
    (s.step c).2.engine.helpers.get? name =
      (Table.get? c.registered.reverse name).or (s.engine.helpers.get? name) := by
  rw [(s.engine_step c).helpers]
  change (c.helpersAfter s.engine.helpers).get? name = _
  cases c with
  | register key helper => exact Table.get?_foldl [(key, helper)] s.engine.helpers name
  | registerAll helpers => exact Table.get?_foldl helpers s.engine.helpers name
  | _ => rfl

theorem helpers_after (s : Session) (commands : List Command) (name : String) :
    (s.after commands).engine.helpers.get? name =
      (lastRegistered commands name).or (s.engine.helpers.get? name) := by
  unfold lastRegistered
  induction commands generalizing s with
  | nil => rfl
  | cons c rest ih =>
    rw [after, ih, helpers_step, List.flatMap_cons, List.reverse_append, Table.get?_append,
      Option.or_assoc]

theorem slots_putCompiled {slot other : String} (h : slot ≠ other) (r : Except Fault Template) :
    (s.putCompiled slot r).2.slots.get? other = s.slots.get? other := by
  cases r with
  | error e => rfl
  | ok t => exact (Table.get?_insert ..).trans (if_neg h)

/-- Commands that do not compile into a slot leave the template there as it is. -/
theorem slots_run (s : Session) {c : Command} {slot : String} (h : c.slot? ≠ some slot) :
    (s.run c).2.slots.get? slot = s.slots.get? slot := by
  cases c with
  | compileText handle other text =>
    exact slots_putCompiled (fun heq => h (congrArg some heq)) _
  | compile handle other name =>
    exact slots_putCompiled (fun heq => h (congrArg some heq)) _
  | render other context =>
    obtain ⟨shelf, hshelf⟩ := s.shelf_of_renderSlot other context
    simp only [run, hshelf]
  | putAssets pairs =>
    rw [run_putAssets_snd]
    rfl
  | register | registerAll | hasHelper | countHelpers | clearKept | insertText | clearAssets
  | replaceFiles | clone | setChain | describe => rfl

theorem slots_after (s : Session) {commands : List Command} {slot : String}
    (h : ∀ c ∈ commands, c.slot? ≠ some slot) :
    (s.after commands).slots.get? slot = s.slots.get? slot := by
  induction commands generalizing s with
  | nil => rfl
  | cons c rest ih =>
    have hstep : (s.step c).2.slots.get? slot = s.slots.get? slot :=
      slots_run { s with engine := s.engine.clearAsked } (h c (List.mem_cons_self ..))
    rw [after, ih _ fun c' hc' => h c' (List.mem_cons_of_mem _ hc'), hstep]

/-- What compiling does to a session: the slot has the nodes with the chain of the handle, and the
shelf answers what it answered before. -/
theorem step_compiles {c : Command} {handle slot : String} {nodes : List Node}
    (h : c.Compiles s.engine handle slot nodes) :
    ∃ name shelf,
      (s.step c).2 =
        { s with
          engine := { s.engine with shelf := shelf }
          slots := s.slots.insert slot ⟨name, nodes, s.chainOf handle⟩ } ∧
      ∀ other,
        shelf.answer s.engine.reader other = s.engine.shelf.answer s.engine.reader other := by
  cases h.clearAsked with
  | @text _ _ text _ hparse =>
    refine ⟨Engine.inlineName, s.engine.clearAsked.shelf, ?_, fun _ => Shelf.answer_congr rfl⟩
    simp only [step, run, Engine.compileText, hparse]
    rfl
  | @named _ _ name _ hanswer =>
    let e := s.engine.clearAsked
    refine ⟨name, (e.shelf.load e.reader e.keeps name).2, ?_, fun other => ?_⟩
    · have hload : (e.shelf.load e.reader e.keeps name).1 = .ok nodes :=
        Shelf.load_fst.trans hanswer
      simp only [step, run, Engine.compile]
      rw [hload]
      rfl
    · exact (Shelf.answer_load other).trans (Shelf.answer_congr rfl)

/-- A template stays in its slot with the nodes it was compiled to and with the chain that its
handle had. -/
theorem slots_of_compiles (s : Session) {before later : List Command} {c : Command}
    {handle slot : String} {nodes : List Node}
    (hc : c.Compiles (s.after before).engine handle slot nodes)
    (hlater : ∀ c' ∈ later, c'.slot? ≠ some slot) :
    ∃ name, (s.after (before ++ c :: later)).slots.get? slot =
      some ⟨name, nodes, (s.after before).chainOf handle⟩ := by
  obtain ⟨name, shelf, hstep, -⟩ := step_compiles hc
  refine ⟨name, ?_⟩
  rw [after_append, after, slots_after _ hlater, hstep]
  exact (Table.get?_insert ..).trans (if_pos rfl)

/-- What rendering replies. -/
theorem step_render_fst {slot : String} {t : Template} (h : s.slots.get? slot = some t)
    (context : Context) :
    (s.step (.render slot context)).1 =
      .ofRender (((s.engine.setting (context.chainFor t)).render t.nodes context.scopes
        s.engine.shelf).map Prod.fst) := by
  let nodesGive := fun shelf : Shelf =>
    ((s.engine.setting (context.chainFor t)).render t.nodes context.scopes shelf).map Prod.fst
  have hcleared : nodesGive s.engine.clearAsked.shelf = nodesGive s.engine.shelf :=
    Setting.render_congr _ t.nodes context.scopes fun _ => Shelf.answer_congr rfl
  refine Eq.trans ?_ (congrArg Reply.ofRender hcleared)
  change (renderSlot { s with engine := s.engine.clearAsked } slot context).1 =
    .ofRender (((s.engine.clearAsked.setting (context.chainFor t)).render t.nodes context.scopes
      s.engine.clearAsked.shelf).map Prod.fst)
  simp only [renderSlot, h, Engine.render]
  generalize (s.engine.clearAsked.setting (context.chainFor t)).render t.nodes context.scopes
    s.engine.clearAsked.shelf = outcome
  obtain _ | ⟨_ | _, shelf⟩ := outcome
  · rfl
  · rfl
  · rfl

/-- Nodes that are compiled through a handle with another chain render as the same nodes do in a
context with that chain. -/
theorem render_of_detached {handle slot slot' : String} {chain : Chain} {t : Template}
    (ht : s.slots.get? slot = some t) {c : Command}
    (hc : c.Compiles (s.step (.setChain handle chain)).2.engine handle slot' t.nodes)
    {context : Context} (hcontext : context.chain = none) :
    ((s.after [.setChain handle chain, c]).step (.render slot' context)).1 =
      (s.step (.render slot { context with chain := some chain })).1 := by
  let detached : Session :=
    { s with engine := s.engine.clearAsked, handles := s.handles.insert handle chain }
  have hchain : detached.chainOf handle = chain := by
    simp only [chainOf, detached, Table.get?_insert, if_true, Option.getD_some]
  obtain ⟨name, shelf, hafter, hanswers⟩ := step_compiles (s := detached) hc
  rw [hchain] at hafter
  change ((detached.step c).2.step (.render slot' context)).1 = _
  have ht' : (detached.step c).2.slots.get? slot' = some ⟨name, t.nodes, chain⟩ := by
    rw [hafter]
    exact (Table.get?_insert ..).trans (if_pos rfl)
  rw [step_render_fst ht', step_render_fst ht, hafter]
  simp only [Context.chainFor, hcontext, Option.getD_none, Option.getD_some]
  -- The two engines differ in their shelves, which answer alike.
  refine congrArg Reply.ofRender ?_
  refine Setting.render_congr (s.engine.setting chain) t.nodes context.scopes fun other => ?_
  exact (hanswers other).trans (Shelf.answer_congr rfl)

end Session

/-! ## Sessions of cells -/

namespace CellSession

variable {l : CellSession} {s : Session}

/-- The engine behind a handle. -/
def engineOf (l : CellSession) (handle : String) : Engine :=
  (l.reach handle).engineAt ((l.reach handle).cellOf handle)

theorem Shows.engineOf (h : l.Shows s) (handle : String) : l.engineOf handle = s.engine := by
  obtain ⟨hreach, a, ha⟩ := h.reach handle
  rw [CellSession.engineOf, cellOf_of_get? ha, hreach.engineAt (hreach.handle_lt handle a ha)]

/-- A render of a template replies what its nodes give with the engine and the chain of its cell,
unless the context has a chain. -/
theorem Shows.step_render (h : l.Shows s) {slot : String} {t : CellTemplate}
    (ht : l.slots.get? slot = some t) (via : String) (context : Context) :
    (l.step via (.render slot context)).1 =
      .ofRender ((((l.engineAt t.cell).setting (context.chainFor (l.shown t))).render t.nodes
        context.scopes (l.engineAt t.cell).shelf).map Prod.fst) := by
  have hslot : s.slots.get? slot = some (l.shown t) := by
    rw [← h.slots slot, template?, ht]
    rfl
  rw [(step_shows h via _).1, Session.step_render_fst hslot, h.engineAt (h.slot_lt slot t ht)]
  rfl

/-- Another chain for a handle is seen at that handle alone. -/
theorem Shows.step_setChain (h : l.Shows s) (via handle : String) (chain : Chain) :
    let detached := (l.step via (.setChain handle chain)).2
    detached.chainOf handle = chain ∧
      (∀ other, handle ≠ other → detached.chainOf other = l.chainOf other) ∧
      ∀ slot, detached.template? slot = l.template? slot := by
  intro detached
  have hdetached := (step_shows h via (.setChain handle chain)).2
  have hchains : ∀ other, detached.chainOf other =
      if handle = other then chain else l.chainOf other := by
    intro other
    rw [hdetached.chains, h.chains]
    exact Session.chainOf_insert _ handle other chain
  refine ⟨(hchains handle).trans (if_pos rfl), fun other hne => ?_, fun slot => ?_⟩
  · exact (hchains other).trans (if_neg hne)
  · rw [hdetached.slots, h.slots]
    rfl

end CellSession

/-- **Handles share and detach.** After every row of commands, each through any handle: the replies
are those of the session without cells; a render of a template calls the helpers registered last; a
template has the nodes and the chain it was compiled with, unless something else was compiled into
its slot; another chain for a handle changes no other handle and no template; and a chain in the
context of a render does the same as that chain on the handle that compiles the nodes. -/
theorem handles_share_and_detach (source : Option Source) (around : Surroundings)
    (first : String) (orders : List (String × Command)) :
    let start := CellSession.start (Engine.new source around) first
    let l := start.after orders
    start.replies orders =
        (Session.start (Engine.new source around) first).replies (orders.map Prod.snd) ∧
      (∀ slot t, l.slots.get? slot = some t → ∀ via context,
        let setting := (l.engineAt t.cell).setting (context.chainFor (l.shown t))
        (l.step via (.render slot context)).1 =
            .ofRender ((setting.render t.nodes context.scopes (l.engineAt t.cell).shelf).map
              Prod.fst) ∧
          setting.Calls (lastRegistered (orders.map Prod.snd))) ∧
      (∀ before via c later handle slot nodes, orders = before ++ (via, c) :: later →
        c.Compiles ((start.after before).engineOf handle) handle slot nodes →
        (∀ order ∈ later, order.2.slot? ≠ some slot) →
        ∃ t, l.template? slot = some t ∧ t.nodes = nodes ∧
          t.chain = (start.after before).chainOf handle) ∧
      (∀ via handle chain,
        let detached := (l.step via (.setChain handle chain)).2
        detached.chainOf handle = chain ∧
          (∀ other, handle ≠ other → detached.chainOf other = l.chainOf other) ∧
          ∀ slot, detached.template? slot = l.template? slot) ∧
      ∀ via handle chain slot slot' t c context, l.template? slot = some t →
        c.Compiles ((l.step via (.setChain handle chain)).2.engineOf handle) handle slot' t.nodes →
        context.chain = none →
        ((l.after [(via, .setChain handle chain), (via, c)]).step via (.render slot' context)).1 =
          (l.step via (.render slot { context with chain := some chain })).1 := by
  intro start l
  let s := Session.start (Engine.new source around) first
  have hstart : start.Shows s := CellSession.start_shows (Engine.new source around) first
  -- What shows after the row is a session without cells; each part is read off there.
  obtain ⟨hreplies, hl⟩ := CellSession.after_shows hstart orders
  refine ⟨hreplies, ?shared, ?kept, hl.step_setChain, ?context⟩
  case shared =>
    intro slot t ht via context setting
    refine ⟨hl.step_render ht via context, Setting.calls_of_get? fun name => ?_⟩
    change (l.engineAt t.cell).helpers.get? name = _
    rw [hl.engineAt (hl.slot_lt slot t ht), Session.helpers_after]
    exact Option.or_none
  case kept =>
    rintro before via c later handle slot nodes rfl hcompiles hlater
    have hbefore := (CellSession.after_shows hstart before).2
    rw [hbefore.engineOf] at hcompiles
    have hlater' : ∀ c' ∈ later.map Prod.snd, c'.slot? ≠ some slot := by
      intro c' hc'
      obtain ⟨order, horder, rfl⟩ := List.mem_map.1 hc'
      exact hlater order horder
    obtain ⟨name, hslot⟩ := s.slots_of_compiles hcompiles hlater'
    refine ⟨⟨name, nodes, (start.after before).chainOf handle⟩, ?_, rfl, rfl⟩
    rw [hl.slots, List.map_append, List.map_cons, hslot, hbefore.chains]
  case context =>
    intro via handle chain slot slot' t c context ht hcompiles hcontext
    have hdetached := (CellSession.step_shows hl via (.setChain handle chain)).2
    have hafter := (CellSession.after_shows hl [(via, .setChain handle chain), (via, c)]).2
    rw [hdetached.engineOf] at hcompiles
    rw [hl.slots] at ht
    rw [(CellSession.step_shows hafter via _).1, (CellSession.step_shows hl via _).1]
    exact Session.render_of_detached ht hcompiles hcontext

/-- A template that was compiled early, a clone of its handle that is given another chain, and a
helper that is registered through the clone; then the same text is compiled through the clone, which
has a third chain by then. -/
theorem handles_share_and_detach_of_clone :
    let greet : Helper := fun _ => .answerText "now"
    let text := "\x7b\x7blater 1\x7d\x7d"
    let nodes : List Node := [.call "later" [.literal (.int 1)] [] true]
    let chain := Chain.default.reverse
    let start := CellSession.start (Engine.new none ⟨[], .empty⟩) "one"
    let early := Command.compileText "one" "early" text
    let later := [("one", .clone "one" "two"), ("one", .setChain "two" []),
      ("two", .register "later" greet)]
    let again := Command.compileText "two" "again" text
    let l := start.after (("one", early) :: later)
    early.Compiles (start.engineOf "one") "one" "early" nodes ∧
      (∀ order ∈ later, order.2.slot? ≠ some "early") ∧
      again.Compiles ((l.step "two" (.setChain "two" chain)).2.engineOf "two") "two" "again"
        nodes ∧
      ∃ t, (l.template? "early" = some t ∧ t.nodes = nodes ∧ t.chain = .default) ∧
        ((l.after [("two", .setChain "two" chain), ("two", again)]).step "two"
            (.render "again" (.of .null))).1 =
          (l.step "two" (.render "early" { Context.of .null with chain := some chain })).1 := by
  intro greet text nodes chain start early later again l
  have hparse : parse text = .ok nodes := by cbv
  have hlater : ∀ order ∈ later, order.2.slot? ≠ some "early" := by
    simp [later, Command.slot?]
  obtain ⟨-, -, hkept, -, hcontext⟩ :=
    handles_share_and_detach none ⟨[], .empty⟩ "one" (("one", early) :: later)
  obtain ⟨t, hslot, hnodes, hchain⟩ :=
    hkept [] "one" early later "one" "early" nodes rfl (.text hparse) hlater
  have hagain : again.Compiles ((l.step "two" (.setChain "two" chain)).2.engineOf "two") "two"
      "again" t.nodes := .text (hnodes.symm ▸ hparse)
  refine ⟨.text hparse, hlater, .text hparse, t, ⟨hslot, hnodes, hchain⟩, ?_⟩
  exact hcontext "two" "two" chain "early" "again" t again (.of .null) hslot hagain rfl

end Stencil
