import Stencil.Proofs.KeptTemplates

/-!
# Handles that refer to cells

In a session every handle has a chain, and so has every template. One may as well let handles and
templates refer to cells. A clone of a handle then refers to the cell of that handle, and a template
to the cell of the handle that compiled it, so nothing is copied. A cell holds a chain and refers to
a hub, where the helpers, the source and the shelf are.

A handle that is given another chain is not alone with its cell in general. If nothing else
refers to the cell, its chain is replaced in place; otherwise the handle gets a cell of its own, a
copy with the new chain, which refers to the hub of the old one (`CellSession.detach`). That this
cannot be seen is what makes the cells a way to carry out a session:

> `run_shows`: each command takes a session of cells that shows as a session to one that shows as
> the session after the command, with the same reply.
> `after_shows`: and so do rows of commands.

Here a command also tells through which handle it goes, which decides on the hub.
-/

namespace Stencil

/-- What handles and templates refer to: a chain, and the place of all that is shared. -/
structure Cell where
  chain : Chain
  hub : Nat

/-- A compiled template that refers to a cell for its chain. -/
structure CellTemplate where
  name : String
  nodes : List Node
  cell : Nat

/-- The command is about the engine alone, and not about handles or templates. -/
def Command.engineAlone : Command → Bool
  | .register .. | .registerAll .. | .hasHelper .. | .countHelpers | .clearKept | .insertText ..
  | .putAssets .. | .clearAssets | .replaceFiles .. => true
  | .compileText .. | .compile .. | .render .. | .clone .. | .setChain .. | .describe .. => false

/-- What a row of commands replies. -/
def Session.replies (s : Session) : List Command → List Reply
  | [] => []
  | c :: rest => (s.step c).1 :: (s.step c).2.replies rest

/-- A session in which handles and templates refer to cells, and cells to hubs, by number. -/
structure CellSession where
  hubs : Nat → Engine
  cells : Nat → Cell
  /-- The cells from here on are not in use. -/
  fresh : Nat
  handles : Table Nat
  slots : Table CellTemplate

/-- Puts something else in one place. -/
def write {α : Type} (f : Nat → α) (a : Nat) (x : α) : Nat → α := fun b => if b = a then x else f b

theorem write_self {α : Type} (f : Nat → α) (a : Nat) (x : α) : write f a x a = x := if_pos rfl

theorem write_of_ne {α : Type} (f : Nat → α) {a b : Nat} (h : b ≠ a) (x : α) :
    write f a x b = f b := if_neg h

theorem Session.chainOf_insert (s : Session) (handle other : String) (chain : Chain) :
    Session.chainOf { s with handles := s.handles.insert handle chain } other =
      if handle = other then chain else s.chainOf other := by
  simp only [chainOf, Table.get?_insert]
  split
  next => rfl
  next => rfl

namespace CellSession

/-- A session with one handle, which has the default chain. -/
def start (engine : Engine) (handle : String) : CellSession where
  hubs _ := engine
  cells _ := ⟨.default, 0⟩
  fresh := 1
  handles := [(handle, 0)]
  slots := []

/-- The engine that a cell refers to. -/
def engineAt (l : CellSession) (a : Nat) : Engine := l.hubs (l.cells a).hub

/-- The chain of a handle; a handle that is not there has the default chain. -/
def chainOf (l : CellSession) (handle : String) : Chain :=
  ((l.handles.get? handle).map fun a => (l.cells a).chain).getD .default

/-- A template with the chain of its cell, as it is now. -/
def shown (l : CellSession) (t : CellTemplate) : Template :=
  ⟨t.name, t.nodes, (l.cells t.cell).chain⟩

/-- The template in a slot. -/
def template? (l : CellSession) (slot : String) : Option Template := (l.slots.get? slot).map l.shown

/-- Changes the engine that a cell refers to. -/
def putEngine (l : CellSession) (a : Nat) (e : Engine) : CellSession :=
  { l with hubs := write l.hubs (l.cells a).hub e }

/-- Lets a handle refer to a new cell. -/
def allot (l : CellSession) (handle : String) (c : Cell) : CellSession :=
  { l with
    cells := write l.cells l.fresh c
    fresh := l.fresh + 1
    handles := l.handles.insert handle l.fresh }

/-- The session after a handle was looked for: one that is not there comes into being with the
default chain. -/
def reach (l : CellSession) (handle : String) : CellSession :=
  match l.handles.get? handle with
  | some _ => l
  | none => l.allot handle ⟨.default, 0⟩

/-- The cell of a handle that is there. -/
def cellOf (l : CellSession) (handle : String) : Nat := (l.handles.get? handle).getD 0

/-- How many handles and templates refer to a cell. -/
def references (l : CellSession) (a : Nat) : Nat :=
  l.handles.countP (fun e => e.2 == a) + l.slots.countP fun e => e.2.cell == a

/-- Gives a handle another chain: in its cell, if the handle is alone with it, and else in a copy
of the cell. -/
def detach (l : CellSession) (handle : String) (chain : Chain) : CellSession :=
  let cell := { l.cells (l.cellOf handle) with chain := chain }
  if l.references (l.cellOf handle) = 1 then
    { l with cells := write l.cells (l.cellOf handle) cell }
  else l.allot handle cell

/-- Puts a freshly compiled template into its slot, with the cell of the handle that compiled
it. -/
def putCompiled (l : CellSession) (slot : String) (a : Nat) :
    Except Fault Template → Reply × CellSession
  | .ok t => (.compiled t, { l with slots := l.slots.insert slot ⟨t.name, t.nodes, a⟩ })
  | .error e => (.failed e, l)

/-- Renders the template in a slot. -/
def renderSlot (l : CellSession) (slot : String) (context : Context) : Reply × CellSession :=
  match l.slots.get? slot with
  | none => (.skipped, l)
  | some t =>
    match (l.engineAt t.cell).render (l.shown t) context with
    | none => (.endless, l)
    | some (.ok text, e) => (.rendered text, l.putEngine t.cell e)
    | some (.error fault, e) => (.failed fault, l.putEngine t.cell e)

/-- Carries out a command that goes through a handle. A command that names its handle goes through
that one. Commands that concern the engine alone do at the hub what they do in a session. -/
def run (l : CellSession) (via : String) : Command → Reply × CellSession
  | .compileText handle slot text =>
    let l := l.reach handle
    let a := l.cellOf handle
    l.putCompiled slot a (Engine.compileText (l.cells a).chain text)
  | .compile handle slot name =>
    let l := l.reach handle
    let a := l.cellOf handle
    let (r, e) := (l.engineAt a).compile (l.cells a).chain name
    (l.putEngine a e).putCompiled slot a r
  | .render slot context => l.renderSlot slot context
  | .clone handle other =>
    let l := l.reach handle
    (.done, { l with handles := l.handles.insert other (l.cellOf handle) })
  | .setChain handle chain => (.done, (l.reach handle).detach handle chain)
  | .describe handle =>
    let l := l.reach handle
    let a := l.cellOf handle
    (.described ((l.engineAt a).text (l.cells a).chain) (l.cells a).chain.length, l)
  | c =>
    let l := l.reach via
    let a := l.cellOf via
    let (reply, s) := Session.run ⟨l.engineAt a, [], []⟩ c
    (reply, l.putEngine a s.engine)

/-- Carries out a command with empty records of asked names. -/
def step (l : CellSession) (via : String) (c : Command) : Reply × CellSession :=
  { l with hubs := fun b => (l.hubs b).clearAsked }.run via c

/-- The session after a row of commands, each with the handle that it goes through. -/
def after (l : CellSession) : List (String × Command) → CellSession
  | [] => l
  | (via, c) :: rest => (l.step via c).2.after rest

/-- What the commands in a row reply. -/
def replies (l : CellSession) : List (String × Command) → List Reply
  | [] => []
  | (via, c) :: rest => (l.step via c).1 :: (l.step via c).2.replies rest

/-! ## What a session of cells shows as -/

/-- All cells in use refer to the hub of the session's engine; and the session of cells has the
chains and templates of the session. -/
structure Shows (l : CellSession) (s : Session) : Prop where
  hub : ∀ a < l.fresh, (l.cells a).hub = 0
  engine : l.hubs 0 = s.engine
  handle_lt : ∀ handle a, l.handles.get? handle = some a → a < l.fresh
  slot_lt : ∀ slot t, l.slots.get? slot = some t → t.cell < l.fresh
  chains : ∀ handle, l.chainOf handle = s.chainOf handle
  slots : ∀ slot, l.template? slot = s.slots.get? slot

section

variable {l : CellSession} {s : Session} {handle : String} {a : Nat}

theorem chainOf_of_get? (h : l.handles.get? handle = some a) :
    l.chainOf handle = (l.cells a).chain := by
  simp only [chainOf, h, Option.map_some, Option.getD_some]

theorem chainOf_of_none (h : l.handles.get? handle = none) : l.chainOf handle = .default := by
  simp only [chainOf, h, Option.map_none, Option.getD_none]

theorem cellOf_of_get? (h : l.handles.get? handle = some a) : l.cellOf handle = a := by
  simp only [cellOf, h, Option.getD_some]

namespace Shows

theorem engineAt (h : l.Shows s) (ha : a < l.fresh) : l.engineAt a = s.engine := by
  rw [CellSession.engineAt, h.hub a ha, h.engine]

theorem chain_at (h : l.Shows s) (ha : l.handles.get? handle = some a) :
    (l.cells a).chain = s.chainOf handle :=
  (chainOf_of_get? ha).symm.trans (h.chains handle)

/-- Of a template in a slot, everything is the same if its cell has the same chain. -/
theorem slots_of_cells (h : l.Shows s) {cells : Nat → Cell}
    (hcells : ∀ slot t, l.slots.get? slot = some t →
      (cells t.cell).chain = (l.cells t.cell).chain) (slot : String) :
    template? { l with cells := cells } slot = s.slots.get? slot := by
  rw [← h.slots slot]
  unfold template?
  cases hslot : l.slots.get? slot with
  | none => rfl
  | some t => simp only [Option.map_some, shown, hcells slot t hslot]

/-- A new cell is seen by nobody but the handle that refers to it. -/
theorem allot (h : l.Shows s) (handle : String) {c : Cell} (hc : c.hub = 0) :
    (l.allot handle c).Shows { s with handles := s.handles.insert handle c.chain } := by
  -- Nothing in use refers to the new cell, so every cell that is referred to is as it was.
  have hold : ∀ b < l.fresh, write l.cells l.fresh c b = l.cells b := fun b hb =>
    write_of_ne l.cells (Nat.ne_of_lt hb) c
  refine ⟨fun b hb => ?_, h.engine, fun other b hb => ?_, fun slot t ht => ?_, fun other => ?_,
    fun slot => ?_⟩
  · change (write l.cells l.fresh c b).hub = 0
    rcases Nat.lt_or_eq_of_le (Nat.le_of_lt_succ hb) with hb | rfl
    · rw [hold b hb, h.hub b hb]
    · rw [write_self, hc]
  · change (l.handles.insert handle l.fresh).get? other = some b at hb
    rw [Table.get?_insert] at hb
    split at hb
    next =>
      cases hb
      exact Nat.lt_succ_self _
    next => exact Nat.lt_succ_of_lt (h.handle_lt other b hb)
  · exact Nat.lt_succ_of_lt (h.slot_lt slot t ht)
  · rw [Session.chainOf_insert, ← h.chains other]
    simp only [chainOf, CellSession.allot, Table.get?_insert]
    split
    next => simp only [Option.map_some, Option.getD_some, write_self]
    next =>
      cases hother : l.handles.get? other with
      | none => rfl
      | some b => simp only [Option.map_some, hold b (h.handle_lt other b hother)]
  · refine h.slots_of_cells (fun slot t ht => ?_) slot
    exact congrArg Cell.chain (hold t.cell (h.slot_lt slot t ht))

/-- After it was looked for, a handle is there, and nothing else shows. -/
theorem reach (h : l.Shows s) (handle : String) :
    (l.reach handle).Shows s ∧ ∃ a, (l.reach handle).handles.get? handle = some a := by
  unfold CellSession.reach
  cases hget : l.handles.get? handle with
  | some a => exact ⟨h, a, hget⟩
  | none =>
    have hnew := h.allot handle (c := ⟨.default, 0⟩) rfl
    refine ⟨{ hnew with chains := fun other => ?_, slots := hnew.slots }, l.fresh, ?_⟩
    · rw [hnew.chains other, Session.chainOf_insert]
      split
      next heq => rw [← heq, ← h.chains handle, chainOf_of_none hget]
      next => rfl
    · change (l.handles.insert handle l.fresh).get? handle = _
      rw [Table.get?_insert, if_pos rfl]

theorem putEngine (h : l.Shows s) (ha : a < l.fresh) (e : Engine) :
    (l.putEngine a e).Shows { s with engine := e } := by
  refine { h with engine := ?_ }
  change write l.hubs (l.cells a).hub e 0 = e
  rw [h.hub a ha, write_self]

theorem clearAsked (h : l.Shows s) :
    Shows { l with hubs := fun b => (l.hubs b).clearAsked }
      { s with engine := s.engine.clearAsked } :=
  { h with engine := congrArg Engine.clearAsked h.engine }

/-- A handle may refer to a cell that is in use. -/
theorem insertHandle (h : l.Shows s) (ha : a < l.fresh) (other : String) :
    Shows { l with handles := l.handles.insert other a }
      { s with handles := s.handles.insert other (l.cells a).chain } := by
  refine { h with handle_lt := fun handle b hb => ?_, chains := fun handle => ?_ }
  · change (l.handles.insert other a).get? handle = some b at hb
    rw [Table.get?_insert] at hb
    split at hb
    next =>
      cases hb
      exact ha
    next => exact h.handle_lt handle b hb
  · rw [Session.chainOf_insert, ← h.chains handle]
    simp only [chainOf, Table.get?_insert]
    split
    next => rfl
    next => rfl

/-- A chain may be replaced in the cell of a handle if nothing else refers to the cell. -/
theorem replaceChain (h : l.Shows s) (ha : l.handles.get? handle = some a)
    (hhandles : ∀ other, l.handles.get? other = some a → handle = other)
    (hslots : ∀ slot t, l.slots.get? slot = some t → t.cell ≠ a) (chain : Chain) :
    Shows { l with cells := write l.cells a { l.cells a with chain := chain } }
      { s with handles := s.handles.insert handle chain } := by
  refine { h with hub := fun b hb => ?_, chains := fun other => ?_, slots := ?_ }
  · change (write l.cells a { l.cells a with chain := chain } b).hub = 0
    by_cases hba : b = a
    · rw [hba, write_self, h.hub a (h.handle_lt handle a ha)]
    · rw [write_of_ne _ hba, h.hub b hb]
  · rw [Session.chainOf_insert, ← h.chains other]
    simp only [chainOf]
    split
    next heq =>
      rw [← heq, ha]
      simp only [Option.map_some, Option.getD_some, write_self]
    next hne =>
      cases hother : l.handles.get? other with
      | none => rfl
      | some b =>
        have hba : b ≠ a := fun hba => hne (hhandles other (hba ▸ hother))
        simp only [Option.map_some, write_of_ne _ hba]
  · refine h.slots_of_cells fun slot t ht => ?_
    rw [write_of_ne _ (hslots slot t ht)]

end Shows

/-- If a cell of a handle has one reference, it is that of the handle. -/
theorem alone_of_references (h : l.references a = 1) (ha : l.handles.get? handle = some a) :
    (∀ other, l.handles.get? other = some a → handle = other) ∧
      ∀ slot t, l.slots.get? slot = some t → t.cell ≠ a := by
  have hmem : (handle, a) ∈ l.handles := Table.mem_of_get? ha
  have hone : 0 < l.handles.countP fun e => e.2 == a :=
    List.countP_pos_iff.2 ⟨_, hmem, beq_self_eq_true a⟩
  unfold references at h
  constructor
  · intro other hother
    -- The entries of both handles are among those that refer to the cell, and there is only one.
    have hcount : (l.handles.filter fun e => e.2 == a).length = 1 := by
      rw [← List.countP_eq_length_filter]
      omega
    obtain ⟨e, he⟩ := List.length_eq_one_iff.1 hcount
    have hfiltered : ∀ key, l.handles.get? key = some a → (key, a) = e := by
      intro key hkey
      rw [← List.mem_singleton, ← he]
      exact List.mem_filter.2 ⟨Table.mem_of_get? hkey, beq_self_eq_true a⟩
    exact congrArg Prod.fst ((hfiltered handle ha).trans (hfiltered other hother).symm)
  · intro slot t ht hcell
    have hslot : 0 < l.slots.countP fun e => e.2.cell == a :=
      List.countP_pos_iff.2 ⟨_, Table.mem_of_get? ht, beq_iff_eq.2 hcell⟩
    omega

/-- Giving a handle another chain shows at that handle alone, in place or not. -/
theorem Shows.detach (h : l.Shows s) (ha : l.handles.get? handle = some a) (chain : Chain) :
    (l.detach handle chain).Shows { s with handles := s.handles.insert handle chain } := by
  unfold CellSession.detach
  rw [cellOf_of_get? ha]
  dsimp only
  split
  next hone =>
    obtain ⟨hhandles, hslots⟩ := alone_of_references hone ha
    exact h.replaceChain ha hhandles hslots chain
  next => exact h.allot handle (h.hub a (h.handle_lt handle a ha))

/-- A compiled template refers to the cell of its handle. -/
theorem Shows.putCompiled (h : l.Shows s) (ha : a < l.fresh) (slot : String)
    {r : Except Fault Template} (hr : ∀ t, r = .ok t → t.chain = (l.cells a).chain) :
    (l.putCompiled slot a r).1 = (s.putCompiled slot r).1 ∧
      (l.putCompiled slot a r).2.Shows (s.putCompiled slot r).2 := by
  cases r with
  | error e => exact ⟨rfl, h⟩
  | ok t =>
    refine ⟨rfl, { h with slot_lt := fun other t' ht' => ?_, slots := fun other => ?_ }⟩
    · change (l.slots.insert slot ⟨t.name, t.nodes, a⟩).get? other = some t' at ht'
      rw [Table.get?_insert] at ht'
      split at ht'
      next =>
        cases ht'
        exact ha
      next => exact h.slot_lt other t' ht'
    · have hold := h.slots other
      simp only [template?, CellSession.putCompiled, Session.putCompiled, Table.get?_insert]
        at hold ⊢
      split
      next => simp only [Option.map_some, shown, ← hr t rfl]
      next => exact hold

/-- A render sees the chain of the cell, which is the chain of the template. -/
theorem Shows.renderSlot (h : l.Shows s) (slot : String) (context : Context) :
    (l.renderSlot slot context).1 = (s.renderSlot slot context).1 ∧
      (l.renderSlot slot context).2.Shows (s.renderSlot slot context).2 := by
  unfold CellSession.renderSlot Session.renderSlot
  rw [← h.slots slot, template?]
  cases hslot : l.slots.get? slot with
  | none => exact ⟨rfl, h⟩
  | some t =>
    have ha := h.slot_lt slot t hslot
    dsimp only [Option.map_some]
    rw [h.engineAt ha]
    generalize s.engine.render (l.shown t) context = outcome
    obtain _ | ⟨_ | _, e⟩ := outcome
    · exact ⟨rfl, h⟩
    · exact ⟨rfl, h.putEngine ha e⟩
    · exact ⟨rfl, h.putEngine ha e⟩

/-- What compiling gives: the nodes that were parsed, with the chain. -/
theorem compiled_of_map {r : Except Fault (List Node)} {name : String} {chain : Chain}
    {t : Template} (h : (r.map fun nodes => (⟨name, nodes, chain⟩ : Template)) = .ok t) :
    r = .ok t.nodes ∧ t.chain = chain := by
  cases r with
  | error e => cases h
  | ok nodes =>
    cases h
    exact ⟨rfl, rfl⟩

/-- What a command does that concerns the engine alone depends on the engine alone. -/
theorem run_of_engineAlone {c : Command} (hc : c.engineAlone = true) (s : Session) :
    s.run c = ((Session.run ⟨s.engine, [], []⟩ c).1,
      { s with engine := (Session.run ⟨s.engine, [], []⟩ c).2.engine }) := by
  cases c with
  | compileText | compile | render | clone | setChain | describe => cases hc
  | putAssets pairs =>
    simp only [Session.run]
    split
    next => rfl
    next => rfl
  | register | registerAll | hasHelper | countHelpers | clearKept | insertText | clearAssets
  | replaceFiles => rfl

/-- Each command replies as in the session that is shown, and goes on to what shows as the session
after it, whichever handle it goes through. -/
theorem run_shows (h : l.Shows s) (via : String) (c : Command) :
    (l.run via c).1 = (s.run c).1 ∧ (l.run via c).2.Shows (s.run c).2 := by
  have halone : c.engineAlone = true →
      (l.run via c).1 = (s.run c).1 ∧ (l.run via c).2.Shows (s.run c).2 := by
    intro hc
    obtain ⟨h, a, ha⟩ := h.reach via
    have hlt := h.handle_lt via a ha
    have hrun : l.run via c = ((Session.run ⟨(l.reach via).engineAt a, [], []⟩ c).1,
        (l.reach via).putEngine a (Session.run ⟨(l.reach via).engineAt a, [], []⟩ c).2.engine) := by
      rw [← cellOf_of_get? ha]
      cases c with
      | compileText | compile | render | clone | setChain | describe => cases hc
      | _ => rfl
    rw [hrun, run_of_engineAlone hc s, h.engineAt hlt]
    exact ⟨rfl, h.putEngine hlt _⟩
  cases c with
  | compileText handle slot text =>
    obtain ⟨h, a, ha⟩ := h.reach handle
    have hlt := h.handle_lt handle a ha
    simp only [run, Session.run]
    rw [cellOf_of_get? ha, ← h.chain_at ha]
    exact h.putCompiled hlt slot fun t ht => (compiled_of_map ht).2
  | compile handle slot name =>
    obtain ⟨h, a, ha⟩ := h.reach handle
    have hlt := h.handle_lt handle a ha
    simp only [run, Session.run]
    rw [cellOf_of_get? ha, ← h.chain_at ha, h.engineAt hlt]
    exact (h.putEngine hlt _).putCompiled hlt slot fun t ht => (compiled_of_map ht).2
  | render slot context => exact h.renderSlot slot context
  | clone handle other =>
    obtain ⟨h, a, ha⟩ := h.reach handle
    simp only [run, Session.run]
    rw [cellOf_of_get? ha, ← h.chain_at ha]
    exact ⟨trivial, h.insertHandle (h.handle_lt handle a ha) other⟩
  | setChain handle chain =>
    obtain ⟨h, a, ha⟩ := h.reach handle
    exact ⟨rfl, h.detach ha chain⟩
  | describe handle =>
    obtain ⟨h, a, ha⟩ := h.reach handle
    simp only [run, Session.run]
    rw [cellOf_of_get? ha, h.engineAt (h.handle_lt handle a ha), h.chain_at ha]
    exact ⟨rfl, h⟩
  | _ => exact halone rfl

theorem step_shows (h : l.Shows s) (via : String) (c : Command) :
    (l.step via c).1 = (s.step c).1 ∧ (l.step via c).2.Shows (s.step c).2 :=
  run_shows h.clearAsked via c

/-- Rows of commands reply as in the session that is shown, and go on to what shows as the session
after them. -/
theorem after_shows (h : l.Shows s) (orders : List (String × Command)) :
    l.replies orders = s.replies (orders.map Prod.snd) ∧
      (l.after orders).Shows (s.after (orders.map Prod.snd)) := by
  induction orders generalizing l s with
  | nil => exact ⟨rfl, h⟩
  | cons order rest ih =>
    obtain ⟨via, c⟩ := order
    obtain ⟨hreply, hstep⟩ := step_shows h via c
    obtain ⟨hreplies, hafter⟩ := ih hstep
    refine ⟨?_, hafter⟩
    rw [replies, List.map_cons, Session.replies, hreply, hreplies]

theorem start_shows (engine : Engine) (handle : String) :
    (start engine handle).Shows (Session.start engine handle) where
  hub _ _ := rfl
  engine := rfl
  handle_lt other a ha := by
    obtain ⟨-, rfl⟩ := Prod.ext_iff.1 (List.mem_singleton.1 (Table.mem_of_get? ha))
    exact Nat.one_pos
  slot_lt _ _ ht := by cases ht
  chains other := by
    unfold chainOf Session.chainOf start Session.start
    dsimp only [Table.get?]
    split
    next => rfl
    next => rfl
  slots _ := rfl

end

end CellSession

end Stencil
