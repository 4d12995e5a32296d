import Mathlib
import Stencil.Proofs.KeptTemplates
import Stencil.Proofs.Ledgers

/-!
# Epochs of the shelf

Named templates are used in two places: a command compiles one, and a render comes to an include
that is not refused. Both ask the shelf, which keeps what it has read until it is cleared. The
`Session.history` of a session tells its uses and the moments at which the shelf is cleared, in
order: through whatever handle a command goes, however a render ends that has come to some includes,
and with the source as it was at each moment. From one clearing to the next is an epoch, and there

> `loaded_once_per_epoch`: from the first use that succeeds on, a name has the nodes it had then and
> the source is not asked for it again; as long as no use succeeds, nothing is kept under the name
> and each use asks the source.

What is kept is told by the history alone: each use finds what the event before it has left
(`Follow`). For renders this is a ledger of the shelf, for sessions a step lemma and the run from
it. The laws of epochs are then laws of rows that follow.
-/

namespace Stencil

/-! ## Uses of named templates -/

/-- The shelf is asked for a name, in front of a source. -/
structure Use where
  name : String
  source : Option Reader
  keeps : Bool
  shelf : Shelf

namespace Use

variable (u : Use)

/-- The nodes that a use gives, or the fault. -/
def nodes : Except Fault (List Node) := (u.shelf.load u.source u.keeps u.name).1

/-- The shelf after a use. -/
def after : Shelf := (u.shelf.load u.source u.keeps u.name).2

/-- The names that the source is asked for in a use. -/
def asked : List String := u.after.asked.drop u.shelf.asked.length

theorem nodes_eq_answer : u.nodes = u.shelf.answer u.source u.name := Shelf.load_fst

theorem asked_eq :
    u.asked = if u.source.isSome ∧ u.shelf.kept.get? u.name = none then [u.name] else [] := by
  unfold asked after
  rw [Shelf.asked_load, List.drop_left]

theorem asked_after : u.after.asked = u.shelf.asked ++ u.asked := by
  rw [asked_eq]
  exact Shelf.asked_load ..

variable {u} {kept : List Node}

/-- Without a source no use gives nodes. -/
theorem source_of_ok (h : u.nodes = .ok kept) : u.source.isSome = true := by
  rw [nodes_eq_answer] at h
  unfold Shelf.answer at h
  cases hsource : u.source with
  | none =>
    rw [hsource] at h
    cases h
  | some read => rfl

/-- What is kept is given without asking the source. -/
theorem of_kept (hkept : u.shelf.kept.get? u.name = some kept) (hsource : u.source.isSome = true) :
    u.nodes = .ok kept ∧ u.asked = [] := by
  obtain ⟨read, hread⟩ := Option.isSome_iff_exists.1 hsource
  constructor
  · rw [nodes_eq_answer, hread]
    simp only [Shelf.answer, hkept]
  · rw [asked_eq, hkept]
    exact if_neg fun h => Option.some_ne_none _ h.2

/-- What is not kept is read and parsed. -/
theorem of_missing (hmissing : u.shelf.kept.get? u.name = none) {read : Reader}
    (hread : u.source = some read) :
    u.asked = [u.name] ∧ u.nodes = (read u.name).bind parse := by
  constructor
  · rw [asked_eq, hread]
    exact if_pos ⟨rfl, hmissing⟩
  · rw [nodes_eq_answer, hread]
    simp only [Shelf.answer, hmissing]
    rfl

/-- Where templates are kept, the nodes of a use are kept. -/
theorem get?_after (hkeeps : u.keeps = true) (h : u.nodes = .ok kept) :
    u.after.kept.get? u.name = some kept := by
  unfold after
  rw [hkeeps]
  exact Shelf.get?_kept_load_of_ok (u.nodes_eq_answer.symm.trans h)

end Use

/-- What happens to the shelf. -/
inductive Event where
  | used (u : Use)
  | cleared

namespace Event

/-- What is kept after an event. -/
def kept : Event → Table (List Node)
  | used u => u.after.kept
  | cleared => []

/-- The names that the source is asked for in an event. -/
def asked : Event → List String
  | used u => u.asked
  | cleared => []

end Event

/-! ## Events that follow one another -/

/-- What is kept after events in order. -/
def keptAfter (kept : Table (List Node)) (es : List Event) : Table (List Node) :=
  es.foldl (fun _ e => e.kept) kept

/-- Each use finds kept what the event before it has left. -/
def Follow : Table (List Node) → List Event → Prop
  | _, [] => True
  | kept, e :: rest => (∀ u, e = .used u → u.shelf.kept = kept) ∧ Follow e.kept rest

/-- What a shelf is after events: it keeps what they leave, and the source was asked for the names
that they tell. -/
structure Leave (before : Shelf) (es : List Event) (after : Shelf) : Prop where
  kept : after.kept = keptAfter before.kept es
  asked : after.asked = before.asked ++ es.flatMap Event.asked

theorem leave_nil (shelf : Shelf) : Leave shelf [] shelf := ⟨rfl, (List.append_nil _).symm⟩

section

variable {kept : Table (List Node)} {name : String} {nodes : List Node}

theorem keptAfter_append (kept : Table (List Node)) (es fs : List Event) :
    keptAfter kept (es ++ fs) = keptAfter (keptAfter kept es) fs := List.foldl_append

theorem follow_append {es fs : List Event} :
    Follow kept (es ++ fs) ↔ Follow kept es ∧ Follow (keptAfter kept es) fs := by
  induction es generalizing kept with
  | nil => exact (and_iff_right trivial).symm
  | cons e es ih =>
    change _ ∧ Follow e.kept (es ++ fs) ↔ (_ ∧ Follow e.kept es) ∧ _
    rw [ih, and_assoc]
    exact Iff.rfl

theorem Follow.at_use {before after : List Event} {u : Use}
    (h : Follow kept (before ++ .used u :: after)) :
    u.shelf.kept = keptAfter kept before ∧ Follow u.after.kept after := by
  obtain ⟨-, hfinds, hafter⟩ := follow_append.1 h
  exact ⟨hfinds u rfl, hafter⟩

/-- Until the shelf is cleared, what is kept stays as it is. -/
theorem Follow.keeps_kept {es : List Event} (h : Follow kept es) (hes : .cleared ∉ es)
    (hkept : kept.get? name = some nodes) : (keptAfter kept es).get? name = some nodes := by
  induction es generalizing kept with
  | nil => exact hkept
  | cons e es ih =>
    obtain ⟨hfinds, hrest⟩ := h
    rw [List.mem_cons, not_or] at hes
    refine ih hrest hes.2 ?_
    cases e with
    | cleared => exact absurd rfl hes.1
    | used u =>
      refine Shelf.get?_kept_load_of_some ?_
      rw [hfinds u rfl, hkept]

/-- As long as no use of a name succeeds, nothing is kept under it. -/
theorem Follow.keeps_missing {es : List Event} (h : Follow kept es)
    (hes : ∀ u, .used u ∈ es → u.name = name → ∃ e, u.nodes = .error e)
    (hkept : kept.get? name = none) : (keptAfter kept es).get? name = none := by
  induction es generalizing kept with
  | nil => exact hkept
  | cons e es ih =>
    obtain ⟨hfinds, hrest⟩ := h
    refine ih hrest (fun u hu => hes u (List.mem_cons_of_mem _ hu)) ?_
    cases e with
    | cleared => rfl
    | used u =>
      rw [← hfinds u rfl] at hkept
      by_cases hname : u.name = name
      · obtain ⟨e, he⟩ := hes u (List.mem_cons_self ..) hname
        exact (congrArg (Table.get? · name)
          (Shelf.kept_load_of_error (u.nodes_eq_answer.symm.trans he))).trans hkept
      · exact (Shelf.get?_kept_load_of_ne hname).trans hkept

end

/-! ## The uses of a render -/

/-- The use at a visit: that of an include, unless it is refused. -/
def Visit.use? (setting : Setting) (v : Visit) : Option Use :=
  match v.node with
  | .inclusion name _ =>
    if v.progress.openIncludes < Fault.includeLimit then
      some ⟨name, setting.source, setting.keeps, v.progress.shelf⟩
    else none
  | _ => none

/-- What visits in order use. -/
def Visit.events (setting : Setting) (vs : List Visit) : List Event :=
  (vs.filterMap (Visit.use? setting)).map .used

/-- What a render uses, also if it fails. -/
def Setting.events (setting : Setting) (nodes : List Node) (scopes : Scopes) (shelf : Shelf) :
    List Event :=
  Visit.events setting (setting.visits expansionBudget nodes scopes (.start shelf))

/-- The shelf, which changes where an include uses it. -/
def Ledger.shelf (setting : Setting) : Ledger Shelf where
  part := Progress.shelf
  book shelf v :=
    match v.use? setting with
    | some u => u.after
    | none => shelf

section

variable {setting : Setting}

theorem Visit.use?_eq_some {v : Visit} {u : Use} (h : v.use? setting = some u) :
    ∃ context, v.node = .inclusion u.name context ∧
      v.progress.openIncludes < Fault.includeLimit ∧
      u = ⟨u.name, setting.source, setting.keeps, v.progress.shelf⟩ := by
  unfold Visit.use? at h
  split at h
  next name context hnode =>
    split at h
    next hlimit =>
      cases h
      exact ⟨context, hnode, hlimit, rfl⟩
    next => cases h
  next => cases h

theorem Ledger.shelf_lawful (setting : Setting) : (Ledger.shelf setting).Lawful setting where
  quiet {_ n _ _} hn := by
    cases n with
    | inclusion name context => cases hn
    | _ => rfl
  override _ _ _ _ _ := rfl
  refused _ _ _ _ _ hlimit := by
    simp only [Ledger.shelf, Visit.use?, if_neg (Nat.not_lt.2 hlimit)]
  asking _ _ _ _ _ hlimit := by
    simp only [Ledger.shelf, Visit.use?, if_pos hlimit]
    rfl
  opened _ _ := rfl

/-- The uses at faithful visits follow one another, and they account for the shelf after them. -/
theorem follow_of_faithful {base : Nat} {shelf : Shelf} {vs : List Visit}
    (h : (Ledger.shelf setting).Faithful base shelf vs) :
    Follow shelf.kept (Visit.events setting vs) ∧
      Leave shelf (Visit.events setting vs) ((Ledger.shelf setting).after shelf vs) := by
  unfold Visit.events
  induction vs generalizing shelf with
  | nil => exact ⟨trivial, leave_nil shelf⟩
  | cons v vs ih =>
    obtain ⟨hshelf, -, hrest⟩ := h
    rw [Ledger.after_cons]
    cases huse : v.use? setting with
    | none =>
      have hbook : (Ledger.shelf setting).book shelf v = shelf := by
        simp only [Ledger.shelf, huse]
      rw [hbook] at hrest ⊢
      rw [List.filterMap_cons_none huse]
      exact ih hrest
    | some u =>
      have hbook : (Ledger.shelf setting).book shelf v = u.after := by
        simp only [Ledger.shelf, huse]
      have hfinds : u.shelf = shelf := by
        obtain ⟨-, -, -, hu⟩ := Visit.use?_eq_some huse
        rw [hu]
        exact hshelf
      rw [hbook] at hrest ⊢
      obtain ⟨hfollow, hleave⟩ := ih hrest
      rw [List.filterMap_cons_some huse, List.map_cons]
      refine ⟨⟨?_, hfollow⟩, hleave.kept, ?_⟩
      · intro other hother
        cases hother
        rw [hfinds]
      · rw [hleave.asked, u.asked_after, hfinds, List.append_assoc, List.flatMap_cons]
        rfl

/-- The uses of a render follow one another, and if it ends they account for the shelf that it
leaves. -/
theorem follow_render (setting : Setting) (nodes : List Node) (scopes : Scopes) (shelf : Shelf) :
    Follow shelf.kept (setting.events nodes scopes shelf) ∧
      ∀ r left, setting.render nodes scopes shelf = some (r, left) →
        Leave shelf (setting.events nodes scopes shelf) left := by
  have hstands : Stands 0 [] (.start shelf) := ⟨rfl, fun h => absurd rfl h⟩
  have hbalanced :=
    tour_balanced (Ledger.shelf_lawful setting) 0 expansionBudget nodes scopes []
  obtain ⟨hfollow, hleave⟩ := follow_of_faithful (hbalanced.visits _ hstands)
  refine ⟨hfollow, fun r left h => ?_⟩
  rw [render_eq] at h
  obtain ⟨⟨r', q⟩, hend, hleft⟩ := Option.map_eq_some_iff.1 h
  cases hleft
  obtain ⟨-, hshelf⟩ := hbalanced.ends _ hstands r q ((congrFun (tour_step ..) _).trans hend)
  change q.shelf = _ at hshelf
  rw [hshelf]
  exact hleave

end

/-! ## The history of a session -/

/-- What happens to a session: a command is carried out, or the source has other contents from
then on, whatever source it is. -/
inductive Happening where
  | command (c : Command)
  | contents (source : Source) (around : Surroundings)

/-- The reply of a render without a result. -/
def Reply.isEndless : Reply → Bool
  | .endless => true
  | .done | .failed _ | .compiled _ | .rendered _ | .skipped | .answer _ | .count _
  | .described .. => false

namespace Engine

/-- The use of a name where it is compiled. -/
def use (e : Engine) (name : String) : Use := ⟨name, e.reader, e.keeps, e.shelf⟩

end Engine

namespace Session

/-- What a command does to the shelf. -/
def runEvents (s : Session) : Command → List Event
  | .compile _ _ name => [.used (s.engine.use name)]
  | .render slot context =>
    match s.slots.get? slot with
    | none => []
    | some t =>
      (s.engine.setting (context.chainFor t)).events t.nodes context.scopes s.engine.shelf
  | .clearKept => [.cleared]
  | .compileText .. | .register .. | .registerAll .. | .hasHelper .. | .countHelpers
  | .insertText .. | .putAssets .. | .clearAssets | .replaceFiles .. | .clone .. | .setChain ..
  | .describe .. => []

/-- What a command with an empty record of asked names does to the shelf. -/
def stepEvents (s : Session) (c : Command) : List Event :=
  { s with engine := s.engine.clearAsked }.runEvents c

/-- Gives the source other contents. -/
def refill (s : Session) (source : Source) (around : Surroundings) : Session :=
  { s with
    engine := { s.engine with source := s.engine.source.map fun _ => source, around := around } }

/-- All that is done to the shelf, in order. It ends with a render that has no result, for nothing
can happen after it. -/
def history (s : Session) : List Happening → List Event
  | [] => []
  | .contents source around :: rest => (s.refill source around).history rest
  | .command c :: rest =>
    s.stepEvents c ++ if (s.step c).1.isEndless then [] else (s.step c).2.history rest

variable {s : Session}

/-- A command without events leaves the shelf as it is. -/
theorem follow_of_idle {c : Command} (hevents : s.runEvents c = [])
    (hshelf : (s.run c).2.engine.shelf = s.engine.shelf) :
    Follow s.engine.shelf.kept (s.runEvents c) ∧ ((s.run c).1.isEndless = false →
      Leave s.engine.shelf (s.runEvents c) (s.run c).2.engine.shelf) := by
  rw [hevents, hshelf]
  exact ⟨trivial, fun _ => leave_nil _⟩

/-- The events of a command follow one another, and the shelf after it is what they leave. -/
theorem follow_run (s : Session) (c : Command) :
    Follow s.engine.shelf.kept (s.runEvents c) ∧ ((s.run c).1.isEndless = false →
      Leave s.engine.shelf (s.runEvents c) (s.run c).2.engine.shelf) := by
  cases c with
  | compile handle slot name =>
    simp only [runEvents, run, engine_putCompiled]
    refine ⟨⟨?_, trivial⟩, fun _ => ⟨rfl, ?_⟩⟩
    · intro u hu
      cases hu
      rfl
    · rw [List.flatMap_singleton]
      exact (s.engine.use name).asked_after
  | render slot context =>
    cases hslot : s.slots.get? slot with
    | none =>
      refine follow_of_idle ?_ ?_
      · simp only [runEvents, hslot]
      · simp only [run, renderSlot, hslot]
    | some t =>
      obtain ⟨hfollow, hleave⟩ := follow_render (s.engine.setting (context.chainFor t)) t.nodes
        context.scopes s.engine.shelf
      simp only [runEvents, run, renderSlot, hslot, Engine.render]
      refine ⟨hfollow, ?_⟩
      cases hrender : (s.engine.setting (context.chainFor t)).render t.nodes context.scopes
        s.engine.shelf with
      | none =>
        intro hends
        cases hends
      | some ended =>
        obtain ⟨r, left⟩ := ended
        intro _
        cases r with
        | error e => exact hleave _ _ hrender
        | ok text => exact hleave _ _ hrender
  | clearKept =>
    refine ⟨⟨?_, trivial⟩, fun _ => ⟨rfl, (List.append_nil _).symm⟩⟩
    intro u hu
    cases hu
  | _ => exact follow_of_idle rfl ((s.engine_run _).shelf rfl)

/-- The same for a command with an empty record of asked names, which then tells what the source was
asked for in this command. -/
theorem follow_step (s : Session) (c : Command) :
    Follow s.engine.shelf.kept (s.stepEvents c) ∧
      ((s.step c).1.isEndless = false →
        (s.step c).2.engine.shelf.kept = keptAfter s.engine.shelf.kept (s.stepEvents c) ∧
        (s.step c).2.asked = (s.stepEvents c).flatMap Event.asked) := by
  obtain ⟨hfollow, hleave⟩ := follow_run { s with engine := s.engine.clearAsked } c
  exact ⟨hfollow, fun hends => ⟨(hleave hends).kept, (hleave hends).asked⟩⟩

/-- All events of a session follow one another. -/
theorem follow_history (s : Session) (happenings : List Happening) :
    Follow s.engine.shelf.kept (s.history happenings) := by
  induction happenings generalizing s with
  | nil => trivial
  | cons happening rest ih =>
    cases happening with
    | contents source around => exact ih (s.refill source around)
    | command c =>
      obtain ⟨hfollow, hleave⟩ := s.follow_step c
      refine follow_append.2 ⟨hfollow, ?_⟩
      split
      next => trivial
      next hends =>
        rw [← (hleave (Bool.eq_false_iff.2 hends)).1]
        exact ih (s.step c).2

theorem use_of_runEvents {c : Command} {u : Use} (h : .used u ∈ s.runEvents c) :
    u.keeps = s.engine.keeps ∧ u.source = s.engine.reader := by
  unfold runEvents at h
  split at h
  next =>
    cases List.mem_singleton.1 h
    exact ⟨rfl, rfl⟩
  next =>
    split at h
    next => cases h
    next t _ =>
      obtain ⟨u', hu', heq⟩ := List.mem_map.1 h
      cases heq
      obtain ⟨v, -, huse⟩ := List.mem_filterMap.1 hu'
      obtain ⟨-, -, -, hu⟩ := Visit.use?_eq_some huse
      rw [hu]
      exact ⟨rfl, rfl⟩
  next => cases List.mem_singleton.1 h
  all_goals cases h

/-- In all uses of a session templates are kept or not, and there is a source or none, as at its
start. -/
theorem use_of_history {happenings : List Happening} {u : Use}
    (h : .used u ∈ s.history happenings) :
    u.keeps = s.engine.keeps ∧ u.source.isSome = s.engine.source.isSome := by
  induction happenings generalizing s with
  | nil => cases h
  | cons happening rest ih =>
    cases happening with
    | contents source around =>
      obtain ⟨hkeeps, hsource⟩ := ih h
      exact ⟨hkeeps, hsource.trans (Option.isSome_map ..)⟩
    | command c =>
      rcases List.mem_append.1 h with h | h
      · obtain ⟨hkeeps, hsource⟩ := use_of_runEvents h
        exact ⟨hkeeps, by rw [hsource]; exact Option.isSome_map ..⟩
      · split at h
        next => cases h
        next =>
          obtain ⟨hkeeps, hsource⟩ := ih h
          have hchanges := s.engine_step c
          refine ⟨hkeeps.trans hchanges.keeps, hsource.trans ?_⟩
          rw [hchanges.source]
          exact c.isSome_sourceAfter s.engine.source

/-- What compiling a name replies is what its use gives. -/
theorem step_compile_fst (s : Session) (handle slot name : String) :
    (s.step (.compile handle slot name)).1 =
      match (s.engine.clearAsked.use name).nodes with
      | .ok nodes => .compiled ⟨name, nodes, s.chainOf handle⟩
      | .error e => .failed e := by
  let e := s.engine.clearAsked
  change (putCompiled { s with engine := (e.compile (s.chainOf handle) name).2 } slot
    ((e.use name).nodes.map fun nodes => ⟨name, nodes, s.chainOf handle⟩)).1 = _
  cases (e.use name).nodes with
  | ok nodes => rfl
  | error fault => rfl

end Session

/-! ## What an include makes of its use -/

/-- An include that is not refused renders the nodes that its use gives, or fails as the use does;
either way the shelf is the one that the use leaves. -/
theorem renderNode_of_use? {setting : Setting} {v : Visit} {u : Use}
    (h : v.use? setting = some u) (expand : Expand) :
    ∃ context, v.node = .inclusion u.name context ∧
      renderNode setting expand v.node v.scopes v.progress =
        match u.nodes with
        | .ok nodes =>
          Step.seq (expand nodes (setting.scopesWithin context v.scopes))
            (fun r q => some (r, q.withOpen v.progress.openIncludes))
            { v.progress with
              shelf := u.after
              openIncludes := v.progress.openIncludes + 1 }
        | .error e => some (.error e, { v.progress with shelf := u.after }) := by
  obtain ⟨context, hnode, hlimit, hu⟩ := Visit.use?_eq_some h
  refine ⟨context, hnode, ?_⟩
  rw [hnode, renderNode_inclusion]
  have hanswer : v.progress.shelf.answer setting.source u.name = u.nodes := by
    rw [u.nodes_eq_answer, hu]
  have hasking : (v.progress.asking setting u.name).shelf = u.after := by
    rw [hu]
    rfl
  cases hnodes : u.nodes with
  | ok nodes =>
    rw [runInclude_found expand context v.scopes hlimit (hanswer.trans hnodes), ← hasking]
    rfl
  | error e =>
    rw [runInclude_missing expand context v.scopes hlimit (hanswer.trans hnodes), ← hasking]
    rfl

/-! ## Epochs -/

/-- **Within an epoch a name is read once.** Take whatever happens to a session from its start:
commands through any of its handles, and changes of what its source holds. In the history of this,

from a use that gives nodes on until the shelf is cleared, each use of the same name gives these
nodes, and the source is not asked for it;

from the start, or from a moment at which the shelf is cleared, until a use of a name gives nodes,
nothing is kept under the name, and each use of it asks the source and gives what reading and
parsing give at that moment.

The history tells what compiling replies and which nodes an include renders, and the names in it are
those that the source was asked for in each command that has a result. -/
theorem loaded_once_per_epoch (source : Option Source) (around : Surroundings) (handle : String)
    (happenings : List Happening) :
    let history := (Session.start (Engine.new source around) handle).history happenings
    (∀ (before between after : List Event) (w u : Use) nodes,
      history = before ++ .used w :: between ++ .used u :: after → .cleared ∉ between →
      u.name = w.name → w.nodes = .ok nodes → u.nodes = .ok nodes ∧ u.asked = []) ∧
    (∀ (before between after : List Event) (u : Use),
      history = before ++ between ++ .used u :: after →
      before = [] ∨ before.getLast? = some .cleared →
      (∀ w, .used w ∈ between → w.name = u.name → ∃ e, w.nodes = .error e) →
      u.shelf.kept.get? u.name = none ∧
        ∀ read, u.source = some read →
          u.asked = [u.name] ∧ u.nodes = (read u.name).bind parse) ∧
    (∀ (s : Session) handle slot name, ∃ u,
      s.stepEvents (.compile handle slot name) = [.used u] ∧ u.name = name ∧
        (s.step (.compile handle slot name)).1 =
          match u.nodes with
          | .ok nodes => .compiled ⟨name, nodes, s.chainOf handle⟩
          | .error e => .failed e) ∧
    (∀ setting v u, Visit.use? setting v = some u → ∀ expand,
      ∃ context, v.node = .inclusion u.name context ∧
        renderNode setting expand v.node v.scopes v.progress =
          match u.nodes with
          | .ok nodes =>
            Step.seq (expand nodes (setting.scopesWithin context v.scopes))
              (fun r q => some (r, q.withOpen v.progress.openIncludes))
              { v.progress with
                shelf := u.after
                openIncludes := v.progress.openIncludes + 1 }
          | .error e => some (.error e, { v.progress with shelf := u.after })) ∧
    ∀ (s : Session) c, (s.step c).1.isEndless = false →
      (s.step c).2.asked = (s.stepEvents c).flatMap Event.asked := by
  intro history
  have hfollow : Follow [] history :=
    (Session.start (Engine.new source around) handle).follow_history happenings
  have huses : ∀ u, .used u ∈ history → u.keeps = true ∧ u.source.isSome = source.isSome :=
    fun u hu => Session.use_of_history hu
  refine ⟨fun before between after w u nodes h hbetween hname hnodes => ?_,
    fun before between after u h hstart hmissing => ?_,
    fun s handle slot name => ⟨_, rfl, rfl, s.step_compile_fst handle slot name⟩,
    fun _ _ _ huse expand => renderNode_of_use? huse expand,
    fun s c hends => ((s.follow_step c).2 hends).2⟩
  · -- The nodes of `w` are kept after it, and what is kept stays until the next clearing.
    rw [h] at hfollow huses
    obtain ⟨hkeeps, hsource⟩ := huses w (by simp)
    obtain ⟨-, hsource'⟩ := huses u (by simp)
    obtain ⟨hfinds, -⟩ := hfollow.at_use
    obtain ⟨-, hrest⟩ := (follow_append.1 hfollow).1.at_use
    rw [keptAfter_append] at hfinds
    refine Use.of_kept ?_ (hsource'.trans (hsource.symm.trans (Use.source_of_ok hnodes)))
    rw [hfinds, hname]
    exact hrest.keeps_kept hbetween (Use.get?_after hkeeps hnodes)
  · -- At the beginning of an epoch nothing is kept.
    rw [h] at hfollow
    have hempty : keptAfter [] before = [] := by
      rcases hstart with rfl | hcleared
      · rfl
      · obtain ⟨front, rfl⟩ := List.getLast?_eq_some_iff.1 hcleared
        rw [keptAfter_append]
        rfl
    obtain ⟨hfinds, -⟩ := hfollow.at_use
    obtain ⟨-, hrest⟩ := follow_append.1 (follow_append.1 hfollow).1
    rw [keptAfter_append] at hfinds
    rw [hempty] at hfinds hrest
    have hnone : u.shelf.kept.get? u.name = none := by
      rw [hfinds]
      exact hrest.keeps_missing hmissing rfl
    exact ⟨hnone, fun read hread => Use.of_missing hnone hread⟩

/-- A page that is missing at first, is then there, and changes twice: before it is used through
another handle, which shows nothing of it, and before the shelf is cleared. -/
theorem loaded_once_per_epoch_of_page :
    let around : Surroundings := ⟨[], .empty⟩
    let gone : Source := .own fun name => .error (.notFound name)
    let holds : String → Source := fun text => .own fun _ => .ok text
    let compile : String → Happening := fun handle => .command (.compile handle "slot" "page")
    let happenings := [compile "one", .contents (holds "old") around, compile "one",
      .command (.clone "one" "two"), .contents (holds "new") around, compile "two",
      .command .clearKept, compile "two"]
    ∃ missing first again fresh : Use,
      (Session.start (Engine.new (some gone) around) "one").history happenings =
        [.used missing, .used first, .used again, .cleared, .used fresh] ∧
      missing.nodes = .error (.notFound "page") ∧
      (first.asked = ["page"] ∧ first.nodes = .ok [.text "old"]) ∧
      (again.nodes = .ok [.text "old"] ∧ again.asked = []) ∧
      (fresh.asked = ["page"] ∧ fresh.nodes = .ok [.text "new"]) := by
  intro around gone holds compile happenings
  let missing : Use := ⟨"page", some (gone.read around), true, .empty⟩
  let first : Use := ⟨"page", some ((holds "old").read around), true, .empty⟩
  let again : Use :=
    ⟨"page", some ((holds "new").read around), true, ⟨[("page", [.text "old"])], []⟩⟩
  let fresh : Use := ⟨"page", some ((holds "new").read around), true, .empty⟩
  have hhistory : (Session.start (Engine.new (some gone) around) "one").history happenings =
      [.used missing, .used first, .used again, .cleared, .used fresh] := by cbv
  have hold : parse "old" = .ok [.text "old"] := by cbv
  have hnew : parse "new" = .ok [.text "new"] := by cbv
  obtain ⟨hkept, hread, -⟩ := loaded_once_per_epoch (some gone) around "one" happenings
  obtain ⟨-, hfirst⟩ := hread [] [.used missing] [.used again, .cleared, .used fresh] first
    hhistory (.inl rfl) fun w hw _ => by
      cases List.mem_singleton.1 hw
      exact ⟨.notFound "page", rfl⟩
  obtain ⟨hfirstAsked, hfirstNodes⟩ := hfirst _ rfl
  have hfirstNodes' : first.nodes = .ok [.text "old"] := hfirstNodes.trans hold
  have hagain := hkept [.used missing] [] [.cleared, .used fresh] first again [.text "old"] hhistory
    List.not_mem_nil rfl hfirstNodes'
  obtain ⟨-, hfresh⟩ := hread [.used missing, .used first, .used again, .cleared] [] [] fresh
    hhistory (.inr rfl) fun _ hw _ => absurd hw List.not_mem_nil
  obtain ⟨hfreshAsked, hfreshNodes⟩ := hfresh _ rfl
  exact ⟨missing, first, again, fresh, hhistory, rfl, ⟨hfirstAsked, hfirstNodes'⟩, hagain,
    hfreshAsked, hfreshNodes.trans hnew⟩

/-- A page includes a part twice, and the source is asked for the part once in each epoch. -/
example :
    let pages : Source := .own fun name =>
      .ok (if name = "page" then "\x7b\x7b> part\x7d\x7d\x7b\x7b> part\x7d\x7d" else "leaf")
    let render : Happening := .command (.render "slot" (.of .null))
    ((Session.start (Engine.new (some pages) ⟨[], .empty⟩) "one").history
      [.command (.compile "one" "slot" "page"), render, render, .command .clearKept,
        render]).flatMap Event.asked = ["page", "part", "part"] := by
  decide +kernel

end Stencil
