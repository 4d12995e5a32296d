import Mathlib
import Stencil.Proofs.InlinedNodes
import Stencil.Proofs.Tours

/-!
# An include is its nodes

Rendering an include renders the nodes of its template, with one more include open around them.
The nodes could as well have been written in its place; as long as no include is refused, nobody
can tell the difference.

Two renders are followed side by side: the first one with includes, the second one with some of
them replaced. What they do to their progress is related by `Beside`: the first has at least as
many includes open, their overrides differ in replaced includes only, and their shelves answer
alike, although the second one was asked for less. The second render may need fewer nested
expansions, so each of the two ends if the other does, but not with the same budget.
`Tour.Follows` therefore says which of the two is known to end.

> `tour_follows`: as long as no include is refused, the two renders end alike.
> `inclusion_eq_inlined`: an include can be replaced by the nodes of its template, anywhere.
-/

namespace Stencil

variable {α β : Type}

/-! ## One run beside another -/

/-- Which of two runs is known to end. -/
inductive Side where
  | first
  | second

/-- Two runs end alike if the one that is known to end does end. -/
inductive Matches (known : Side) (R : Progress → Progress → Prop) :
    Option (Except Fault α × Progress) → Option (Except Fault α × Progress) → Prop where
  | ended {r : Except Fault α} {p q : Progress} (h : R p q) :
      Matches known R (some (r, p)) (some (r, q))
  | noFirst {y} (h : known = .first) : Matches known R none y
  | noSecond {x} (h : known = .second) : Matches known R x none

theorem Matches.seq {known : Side} {R T : Progress → Progress → Prop} {s s' : Step α}
    {f f' : Except Fault α → Step β} {p q : Progress} (h : Matches known R (s p) (s' q))
    (hnext : ∀ r p₁ q₁, s p = some (r, p₁) → R p₁ q₁ → Matches known T (f r p₁) (f' r q₁)) :
    Matches known T (Step.seq s f p) (Step.seq s' f' q) := by
  unfold Step.seq
  generalize s p = x, s' q = y at h hnext ⊢
  cases h with
  | @ended r p₁ q₁ h => exact hnext r p₁ q₁ rfl h
  | noFirst h => exact .noFirst h
  | noSecond h => exact .noSecond h

namespace Tour

/-- From related progress the tour and the step end alike, provided that each visit of the tour has
the property. -/
def Follows (known : Side) (C : Visit → Prop) (R : Progress → Progress → Prop) (t : Tour α)
    (s : Step α) : Prop :=
  ∀ p q, R p q → (∀ v ∈ t.visits p, C v) → Matches known R (t.step p) (s q)

variable {known : Side} {C : Visit → Prop} {R : Progress → Progress → Prop}

theorem follows_still (r : Except Fault α) :
    Follows known C R (still fun p => some (r, p)) fun q => some (r, q) :=
  fun _ _ h _ => .ended h

theorem follows_seq {t : Tour α} {s : Step α} {f : Except Fault α → Tour β}
    {g : Except Fault α → Step β} (h : Follows known C R t s)
    (hnext : ∀ r, Follows known C R (f r) (g r)) :
    Follows known C R (seq t f) (Step.seq s g) := by
  intro p q hpq hC
  refine (h p q hpq fun v hv => hC v (List.mem_append_left _ hv)).seq fun r p₁ q₁ hstep hpq₁ => ?_
  rw [seq_visits_of_ended hstep] at hC
  exact hnext r p₁ q₁ hpq₁ fun v hv => hC v (List.mem_append_right _ hv)

theorem follows_bind {t : Tour α} {s : Step α} {f : α → Tour β} {g : α → Step β}
    (h : Follows known C R t s) (hnext : ∀ x, Follows known C R (f x) (g x)) :
    Follows known C R (bind t f) (Step.bind s g) := by
  rw [Step.bind_eq_seq]
  refine follows_seq h fun r => ?_
  cases r with
  | ok x => exact hnext x
  | error e => exact follows_still (.error e)

/-- Two texts in a row. -/
theorem follows_append {t t' : Tour String} {s s' : Step String} (h : Follows known C R t s)
    (h' : Follows known C R t' s') :
    Follows known C R (bind t fun x => bind t' fun y => still (Step.pure (x ++ y)))
      (Step.bind s fun x => Step.bind s' fun y => Step.pure (x ++ y)) :=
  follows_bind h fun x => follows_bind h' fun y => follows_still (.ok (x ++ y))

/-- A plan goes on alike if it is told alike of its bodies. -/
theorem follows_plan {body other : Scopes → Tour String} {body' other' : Scopes → Step String}
    (hbody : ∀ scopes, Follows known C R (body scopes) (body' scopes))
    (hother : ∀ scopes, Follows known C R (other scopes) (other' scopes)) (plan : Plan) :
    Follows known C R (plan.tour body other) (plan.run body' other') := by
  induction plan with
  | done result => exact follows_still result
  | body scopes resume ih => exact follows_seq (hbody scopes) ih
  | other scopes resume ih => exact follows_seq (hother scopes) ih

theorem follows_of_visit {within : List String} {n : Node} {scopes : Scopes} {t : Tour α}
    {s : Step α}
    (h : ∀ p q, R p q → C ⟨within, n, scopes, p⟩ → (∀ v ∈ t.visits p, C v) →
      Matches known R (t.step p) (s q)) : Follows known C R (visiting within n scopes t) s :=
  fun p q hpq hC =>
    h p q hpq (hC _ (List.mem_cons_self ..)) fun v hv => hC v (List.mem_cons_of_mem _ hv)

theorem follows_visiting {within : List String} {n : Node} {scopes : Scopes} {t : Tour α}
    {s : Step α} (h : Follows known C R t s) : Follows known C R (visiting within n scopes t) s :=
  follows_of_visit fun p q hpq _ hC => h p q hpq hC

end Tour

open Tour (Follows)

/-! ## The progress of the two renders -/

/-- The progress of a render beside that of a render in which includes are replaced. -/
structure Beside (setting : Setting) (swaps : Swaps) (a b : Nat) (p q : Progress) : Prop where
  openFirst : p.openIncludes = a
  openSecond : q.openIncludes = b
  le : b ≤ a
  overrides : InlinesTable swaps p.overrides q.overrides
  answers : ∀ name, p.shelf.answer setting.source name = q.shelf.answer setting.source name
  swap : ∀ name context found, swaps name context found →
    p.shelf.answer setting.source name = .ok found

namespace Beside

variable {setting : Setting} {swaps : Swaps} {a b : Nat} {p q : Progress}

/-- A render beside itself. -/
theorem refl (h : ∀ name context found, swaps name context found →
    p.shelf.answer setting.source name = .ok found) :
    Beside setting swaps p.openIncludes p.openIncludes p p :=
  ⟨rfl, rfl, Nat.le_refl _, .refl swaps _, fun _ => rfl, h⟩

theorem withOpen (h : Beside setting swaps a b p q) {a' b' : Nat} (hle : b' ≤ a') :
    Beside setting swaps a' b' (p.withOpen a') (q.withOpen b') :=
  ⟨rfl, rfl, hle, h.overrides, h.answers, h.swap⟩

/-- The first render may ask for templates that the second one does not ask for. -/
theorem asking (h : Beside setting swaps a b p q) (name : String) :
    Beside setting swaps a b (p.asking setting name) q where
  openFirst := h.openFirst
  openSecond := h.openSecond
  le := h.le
  overrides := h.overrides
  answers other := (Shelf.answer_load other).trans (h.answers other)
  swap other context found hswap := (Shelf.answer_load other).trans (h.swap other context found hswap)

theorem askingBoth (h : Beside setting swaps a b p q) (name : String) :
    Beside setting swaps a b (p.asking setting name) (q.asking setting name) :=
  { h.asking name with
    openSecond := h.openSecond
    answers := fun other =>
      ((h.asking name).answers other).trans (Shelf.answer_load other).symm }

end Beside

/-- No include is come to at the limit. -/
def Visit.Admitted (v : Visit) : Prop :=
  ∀ name context, v.node = .inclusion name context → v.progress.openIncludes < Fault.includeLimit

/-- What has to be so at the visits of the first render: an include is below the limit, and if it
may be replaced and has an argument, the argument is present. -/
structure Calm (setting : Setting) (swaps : Swaps) (v : Visit) : Prop where
  admitted : v.Admitted
  present : ∀ name param found, swaps name (some param) found →
    v.node = .inclusion name (some param) → (v.scopes.eval setting.chain param).isSome

/-- What is put in the place of an include renders as the nodes of the template do in the scopes
of the include. -/
theorem renderNodes_inlined (setting : Setting) (expand : Expand) {context : Option Param}
    {scopes : Scopes}
    (h : ∀ param, context = some param → (scopes.eval setting.chain param).isSome)
    (found : List Node) :
    renderNodes setting expand (Node.inlined found context) scopes =
      renderNodes setting expand found (setting.scopesWithin context scopes) := by
  cases context with
  | none => rfl
  | some param =>
    obtain ⟨v, hv⟩ := Option.isSome_iff_exists.1 (h param rfl)
    change renderNodes setting expand [_] scopes = renderNodes setting expand found (scopes.push _)
    rw [renderNodes_singleton, renderNode_block, Scopes.evalOrNull]
    simp only [Setting.runBlock, hv, Option.getD_some]

/-! ## The two renders side by side -/

section

variable {setting : Setting} {swaps : Swaps} {known : Side} {C : Visit → Prop} {guide : Guide}
  {expand : Expand} {a b : Nat} {within : List String} {scopes : Scopes}

/-- The first render comes to an include, the second one to its nodes. -/
theorem tourInclude_matches_nodes {name : String} {context : Option Param} {found : List Node}
    {s : Step String} {p q : Progress} (h : Beside setting swaps a b p q)
    (hlimit : p.openIncludes < Fault.includeLimit)
    (hanswer : p.shelf.answer setting.source name = .ok found)
    (hnodes : Follows known C (Beside setting swaps (a + 1) b)
      (guide found (setting.scopesWithin context scopes) (name :: within)) s)
    (hC : ∀ v ∈ (setting.tourInclude guide name context scopes within).visits p, C v) :
    Matches known (Beside setting swaps a b)
      ((setting.tourInclude guide name context scopes within).step p) (s q) := by
  rw [tourInclude_visits_found _ _ _ _ hlimit hanswer, h.openFirst] at hC
  rw [tourInclude_step, runInclude_found _ _ _ hlimit hanswer, h.openFirst, ← Step.seq_done s]
  -- Only the first render opens an include here, and only it closes one afterwards.
  have hopened : Beside setting swaps (a + 1) b
      ((p.asking setting name).withOpen (a + 1)) q := by
    have hinner := (h.asking name).withOpen (Nat.le_succ_of_le h.le)
    rwa [← h.openSecond] at hinner ⊢
  refine (hnodes _ q hopened hC).seq fun r p₁ q₁ _ hends => .ended ?_
  have hclosed := hends.withOpen h.le
  rwa [← hends.openSecond] at hclosed ⊢

/-- Both renders come to the same include. -/
theorem tourInclude_matches {name : String} {context : Option Param} {p q : Progress}
    (h : Beside setting swaps a b p q) (hlimit : p.openIncludes < Fault.includeLimit)
    (hguide : ∀ found inner, Follows known C (Beside setting swaps (a + 1) (b + 1))
      (guide found inner (name :: within)) (expand found inner))
    (hC : ∀ v ∈ (setting.tourInclude guide name context scopes within).visits p, C v) :
    Matches known (Beside setting swaps a b)
      ((setting.tourInclude guide name context scopes within).step p)
      (setting.runInclude expand name context scopes q) := by
  have hlimit' : q.openIncludes < Fault.includeLimit := by
    rw [h.openSecond]
    rw [h.openFirst] at hlimit
    exact Nat.lt_of_le_of_lt h.le hlimit
  rw [tourInclude_step]
  cases hanswer : p.shelf.answer setting.source name with
  | error e =>
    rw [runInclude_missing _ _ _ hlimit hanswer,
      runInclude_missing _ _ _ hlimit' ((h.answers name).symm.trans hanswer)]
    exact .ended (h.askingBoth name)
  | ok found =>
    rw [tourInclude_visits_found _ _ _ _ hlimit hanswer, h.openFirst] at hC
    rw [runInclude_found _ _ _ hlimit hanswer,
      runInclude_found _ _ _ hlimit' ((h.answers name).symm.trans hanswer), h.openFirst,
      h.openSecond]
    have hopened := (h.askingBoth name).withOpen (Nat.succ_le_succ h.le)
    exact (hguide found _ _ _ hopened hC).seq fun r p₁ q₁ _ hends => .ended (hends.withOpen h.le)

/-- Both renders come to the same node without bodies. -/
theorem leaf_follows {n : Node} (hn : n.bodies = [])
    (hguide : ∀ found inner within, Follows known (Calm setting swaps)
      (Beside setting swaps (a + 1) (b + 1)) (guide found inner within) (expand found inner)) :
    Follows known (Calm setting swaps) (Beside setting swaps a b)
      (.visiting within n scopes (tourNode setting guide n scopes within))
      (renderNode setting expand n scopes) := by
  cases n with
  | text s =>
    rw [tourNode, renderNode]
    exact Tour.follows_visiting (Tour.follows_still (.ok s))
  | lookup path escape =>
    rw [tourNode, renderNode]
    refine Tour.follows_visiting ?_
    cases scopes.lookup setting.chain path with
    | none => exact Tour.follows_still (.ok "")
    | some v => exact Tour.follows_still (.ok (emit v escape))
  | call name params named escape =>
    rw [tourNode, renderNode_call_eq_run]
    have hnothing : Follows known (Calm setting swaps) (Beside setting swaps a b)
        (.still (Step.pure "")) (Step.pure "") := Tour.follows_still (.ok "")
    exact Tour.follows_visiting (Tour.follows_plan (fun _ => hnothing) (fun _ => hnothing) _)
  | inclusion name context =>
    rw [tourNode, renderNode_inclusion]
    refine Tour.follows_of_visit fun p q h hvisit hC => ?_
    exact tourInclude_matches h (hvisit.admitted name context rfl)
      (fun found inner => hguide found inner _) hC
  | block k param body inverse => cases hn
  | helperBlock name params named body inverse => cases hn
  | region name body => cases hn
  | override name body => cases hn

/-- Both renders come to a block of the same kind, with bodies that differ in replaced includes. -/
theorem block_follows {body body' : List Node} {inverse inverse' : Option (List Node)}
    (hinlines : Inlines swaps body body')
    (hbody : ∀ inner, Follows known C (Beside setting swaps a b)
      (tourNodes setting guide body inner within) (renderNodes setting expand body' inner))
    (hother : ∀ inner, Follows known C (Beside setting swaps a b)
      (tourOther setting guide inverse inner within) (renderOther setting expand inverse' inner))
    (hguide : ∀ {nodes nodes'}, Inlines swaps nodes nodes' →
      ∀ inner, Follows known C (Beside setting swaps a b) (guide nodes inner within)
        (expand nodes' inner)) (o : Opening) :
    Follows known C (Beside setting swaps a b)
      (tourNode setting guide (o.node body inverse) scopes within)
      (renderNode setting expand (o.node body' inverse') scopes) := by
  cases o with
  | keyword k param =>
    dsimp only [Opening.node]
    rw [tourNode_block, renderNode_block_eq_run]
    exact Tour.follows_plan hbody hother _
  | helper name params named =>
    dsimp only [Opening.node]
    rw [tourNode_helperBlock, renderNode_helperBlock_eq_run]
    exact Tour.follows_plan hbody hother _
  | region name =>
    dsimp only [Opening.node]
    rw [tourNode, renderNode]
    intro p q h hC
    have hoverride := h.overrides.get? name
    dsimp only [Tour.choose] at hC ⊢
    generalize p.overrides.get? name = x, q.overrides.get? name = y at hoverride hC ⊢
    cases hoverride with
    | none => exact hbody scopes p q h hC
    | some hreplacement => exact hguide hreplacement scopes p q h hC
  | override name =>
    dsimp only [Opening.node]
    rw [tourNode, renderNode]
    intro p q h hC
    exact .ended { h with overrides := h.overrides.insert hinlines name }

end

/-! ## Budgets -/

/-- The budget of the render that is not known to end suffices: the second render expands nothing
that the first one does not expand, and the first one expands only as many includes more as may be
open. -/
def Enough (known : Side) (a m n : Nat) : Prop :=
  match known with
  | .first => m ≤ n
  | .second => n + (Fault.includeLimit - a) ≤ m

namespace Enough

variable {known : Side} {a m n : Nat}

/-- Both renders expand something. -/
theorem below (h : Enough known a (m + 1) (n + 1)) : Enough known a m n := by
  unfold Enough at *
  split at h
  next => exact Nat.le_of_succ_le_succ h
  next => omega

/-- With one more include open, one fewer can be opened from there. -/
theorem opened (h : Enough known a m n) : Enough known (a + 1) m n := by
  unfold Enough at *
  split at h
  next => exact h
  next => omega

/-- Only the first render expands an include. -/
theorem alone (h : Enough known a (m + 1) n) (hlimit : a < Fault.includeLimit) :
    Enough known (a + 1) m n := by
  unfold Enough at *
  split at h
  next => omega
  next => omega

end Enough

section

variable {setting : Setting} {swaps : Swaps} {known : Side}

/-- Without any budget the first render does not end, nor does the second one. -/
theorem matches_without_budget {R : Progress → Progress → Prop} {a n : Nat}
    (h : Enough known a 0 n) (nodes : List Node) (scopes : Scopes) (q : Progress) :
    Matches known R none (setting.expand n nodes scopes q) := by
  cases known with
  | first => exact .noFirst rfl
  | second =>
    obtain rfl : n = 0 := by
      change n + _ ≤ 0 at h
      omega
    exact .noSecond rfl

theorem expand_follows_of_succ {nodes nodes' : List Node} {n : Nat}
    (h : ∀ m a b, Enough known a (m + 1) n → ∀ scopes within,
      Follows known (Calm setting swaps) (Beside setting swaps a b)
        (setting.tour (m + 1) nodes scopes within) (setting.expand n nodes' scopes))
    (m a b : Nat) (hm : Enough known a m n) (scopes : Scopes) (within : List String) :
    Follows known (Calm setting swaps) (Beside setting swaps a b)
      (setting.tour m nodes scopes within) (setting.expand n nodes' scopes) := by
  cases m with
  | succ m => exact h m a b hm scopes within
  | zero => exact fun p q _ _ => matches_without_budget hm nodes' scopes q

/-- One level of the second render, and all levels of the first one that are needed for it. -/
theorem expand_succ_follows {n : Nat}
    (hbelow : ∀ {nodes nodes'}, Inlines swaps nodes nodes' → ∀ m a b, Enough known a m n →
      ∀ scopes within, Follows known (Calm setting swaps) (Beside setting swaps a b)
        (setting.tour m nodes scopes within) (setting.expand n nodes' scopes))
    {nodes nodes' : List Node} (h : Inlines swaps nodes nodes') :
    ∀ m a b, Enough known a (m + 1) (n + 1) → ∀ scopes within,
      Follows known (Calm setting swaps) (Beside setting swaps a b)
        (setting.tour (m + 1) nodes scopes within) (setting.expand (n + 1) nodes' scopes) := by
  change ∀ m a b, _ → ∀ scopes within, Follows known _ _
    (tourNodes setting (setting.tour m) nodes scopes within)
    (renderNodes setting (setting.expand n) nodes' scopes)
  -- On the derivation, so that the nodes put in come with a statement of their own. The first
  -- render comes to them with less budget and more open includes, so it is for all of both.
  induction h with
  | nil =>
    intro m a b hm scopes within
    rw [tourNodes, renderNodes]
    exact Tour.follows_still (.ok "")
  | leaf hn hrest ihrest =>
    intro m a b hm scopes within
    rw [tourNodes, renderNodes]
    refine Tour.follows_append (leaf_follows hn fun found inner within => ?_)
      (ihrest m a b hm scopes within)
    exact hbelow (.refl swaps found) m _ _ hm.below.opened inner within
  | block o hbody hrest ihbody ihrest =>
    intro m a b hm scopes within
    rw [tourNodes, renderNodes]
    refine Tour.follows_append (Tour.follows_visiting (block_follows hbody ?_ ?_ ?_ o))
      (ihrest m a b hm scopes within)
    · exact fun inner => ihbody m a b hm inner within
    · exact fun inner => Tour.follows_still (.ok "")
    · exact fun h inner => hbelow h m a b hm.below inner within
  | blockElse o hbody hother hrest ihbody ihother ihrest =>
    intro m a b hm scopes within
    rw [tourNodes, renderNodes]
    refine Tour.follows_append (Tour.follows_visiting (block_follows hbody ?_ ?_ ?_ o))
      (ihrest m a b hm scopes within)
    · exact fun inner => ihbody m a b hm inner within
    · exact fun inner => ihother m a b hm inner within
    · exact fun h inner => hbelow h m a b hm.below inner within
  | @swapped name context found found' rest rest' hswap hfound hrest ihfound ihrest =>
    intro m a b hm scopes within
    rw [tourNodes, tourNode, renderNodes_append]
    refine Tour.follows_append (Tour.follows_of_visit fun p q h hvisit hC => ?_)
      (ihrest m a b hm scopes within)
    have hlimit := hvisit.admitted name context rfl
    rw [renderNodes_inlined _ _ fun param hparam =>
      hvisit.present name param found (hparam ▸ hswap) (congrArg _ hparam)]
    refine tourInclude_matches_nodes h hlimit (h.swap name context found hswap) ?_ hC
    change p.openIncludes < _ at hlimit
    rw [h.openFirst] at hlimit
    exact expand_follows_of_succ ihfound m (a + 1) b (hm.alone hlimit) _ _

/-- A render in which includes are replaced ends as the render with the includes does. -/
theorem tour_follows (n : Nat) {nodes nodes' : List Node} (h : Inlines swaps nodes nodes') :
    ∀ m a b, Enough known a m n → ∀ scopes within,
      Follows known (Calm setting swaps) (Beside setting swaps a b)
        (setting.tour m nodes scopes within) (setting.expand n nodes' scopes) := by
  induction n generalizing nodes nodes' with
  | zero =>
    intro m a b hm scopes within p q _ _
    cases known with
    | first =>
      obtain rfl : m = 0 := Nat.le_zero.1 hm
      exact .noFirst rfl
    | second => exact .noSecond rfl
  | succ n ih => exact expand_follows_of_succ (expand_succ_follows ih h)

/-- An include with a template, rendered on its own, beside the nodes of the template. -/
theorem inclusion_matches_nodes {name : String} {found : List Node} {p : Progress}
    (hanswer : p.shelf.answer setting.source name = .ok found) {context : Option Param}
    {scopes : Scopes} {m n : Nat} (hm : Enough known p.openIncludes m n)
    (hvisits : ∀ v ∈ setting.visits m [.inclusion name context] scopes p, v.Admitted) :
    Matches known (Beside setting .nowhere p.openIncludes p.openIncludes)
      (setting.expand m [.inclusion name context] scopes p)
      (setting.expand n found (setting.scopesWithin context scopes) p) := by
  cases m with
  | zero => exact matches_without_budget hm _ _ p
  | succ m =>
    change ∀ v ∈ (tourNodes setting (setting.tour m) [_] scopes []).visits p, _ at hvisits
    change Matches known _ (renderNodes setting (setting.expand m) [_] scopes p) _
    rw [tourNodes, tourNode] at hvisits
    rw [renderNodes_singleton, renderNode_inclusion]
    have hlimit := hvisits _ (List.mem_append_left _ (List.mem_cons_self ..)) name context rfl
    have hsteps : setting.runInclude (setting.expand m) name context scopes =
        (setting.tourInclude (setting.tour m) name context scopes []).step := by
      simp only [tourInclude_step, tour_step]
    rw [hsteps]
    refine tourInclude_matches_nodes (C := Calm setting .nowhere)
      (Beside.refl fun _ _ _ h => h.elim) hlimit hanswer ?_ fun v hv => ?_
    · exact tour_follows n (.refl .nowhere found) m _ _ (hm.alone hlimit) _ _
    · refine ⟨hvisits v (List.mem_append_left _ (List.mem_cons_of_mem _ hv)), ?_⟩
      exact fun _ _ _ h => h.elim

end

/-! ## Putting nodes in the place of an include -/

/-- From a progress, nodes can stand for others: both renders end with the same text or fault and
with related overrides, as long as the visits of the first one have a property. If either ends so
does the other. The first one may need more budget, but no more than for the includes that can be
open at once. -/
structure Interchangeable (setting : Setting) (C : Visit → Prop)
    (R : Table (List Node) → Table (List Node) → Prop) (p : Progress) (nodes : List Node)
    (scopes : Scopes) (nodes' : List Node) (scopes' : Scopes) : Prop where
  forth : ∀ budget r p', (∀ v ∈ setting.visits budget nodes scopes p, C v) →
    setting.expand budget nodes scopes p = some (r, p') →
    ∃ q', setting.expand budget nodes' scopes' p = some (r, q') ∧ R p'.overrides q'.overrides
  back : ∀ budget r q',
    (∀ v ∈ setting.visits (budget + Fault.includeLimit) nodes scopes p, C v) →
    setting.expand budget nodes' scopes' p = some (r, q') →
    ∃ p', setting.expand (budget + Fault.includeLimit) nodes scopes p = some (r, p') ∧
      R p'.overrides q'.overrides

theorem interchangeable_of_matches {setting : Setting} {C : Visit → Prop} {swaps : Swaps}
    {R : Table (List Node) → Table (List Node) → Prop} {p : Progress} {nodes nodes' : List Node}
    {scopes scopes' : Scopes} (hR : ∀ os os', InlinesTable swaps os os' → R os os')
    (h : ∀ known m n, Enough known p.openIncludes m n →
      (∀ v ∈ setting.visits m nodes scopes p, C v) →
      Matches known (Beside setting swaps p.openIncludes p.openIncludes)
        (setting.expand m nodes scopes p) (setting.expand n nodes' scopes' p)) :
    Interchangeable setting C R p nodes scopes nodes' scopes' where
  forth budget r p' hC hend := by
    have hmatches := h .first budget budget (Nat.le_refl budget) hC
    rw [hend] at hmatches
    generalize setting.expand budget nodes' scopes' p = y at hmatches ⊢
    cases hmatches with
    | @ended _ _ q' hends => exact ⟨q', rfl, hR _ _ hends.overrides⟩
    | noSecond h => cases h
  back budget r q' hC hend := by
    have henough : Enough .second p.openIncludes (budget + Fault.includeLimit) budget :=
      Nat.add_le_add_left (Nat.sub_le ..) budget
    have hmatches := h .second _ _ henough hC
    rw [hend] at hmatches
    generalize setting.expand _ nodes scopes p = x at hmatches ⊢
    cases hmatches with
    | @ended _ p' _ hends => exact ⟨p', rfl, hR _ _ hends.overrides⟩
    | noFirst h => cases h

/-- **An include is its nodes.** If a name has a template, then in every list of nodes, at any
depth, includes of the name can be replaced by the nodes of the template, in a block `with` if they
have an argument: as long as no include is refused, and where those with the argument find it
present, the text or fault is the same and so are the overrides at the end, but for includes
replaced in them. An include with an argument that is present is such a block wherever it is come
to; one with an argument that is absent is the nodes of the template in a scope with the subject
null. -/
theorem inclusion_eq_inlined (setting : Setting) (name : String) (found : List Node) (p : Progress)
    (hfound : (p.shelf.load setting.source setting.keeps name).1 = .ok found) :
    (∀ context nodes nodes' scopes, Inlines (.only name context found) nodes nodes' →
      Interchangeable setting (Calm setting (.only name context found))
        (InlinesTable (.only name context found)) p nodes scopes nodes' scopes) ∧
    ∀ param scopes,
      ((scopes.eval setting.chain param).isSome →
        Interchangeable setting Visit.Admitted Eq p
          [.inclusion name (some param)] scopes [.block .within param found none] scopes) ∧
      (scopes.eval setting.chain param = none →
        Interchangeable setting Visit.Admitted Eq p
          [.inclusion name (some param)] scopes found (scopes.push (.of .null))) := by
  rw [Shelf.load_fst] at hfound
  refine ⟨fun context nodes nodes' scopes h => ?_, fun param scopes => ⟨fun hpresent => ?_,
    fun habsent => ?_⟩⟩
  · refine interchangeable_of_matches (fun _ _ h => h) fun known m n hm hC => ?_
    rw [← tour_step setting m nodes scopes []]
    refine tour_follows n h m _ _ hm scopes [] p p (Beside.refl ?_) hC
    rintro _ _ _ ⟨rfl, rfl, rfl⟩
    exact hfound
  · refine interchangeable_of_matches (fun _ _ h => h.eq_of_nowhere) fun known m n hm hC => ?_
    have hblock : setting.expand n [.block .within param found none] scopes =
        setting.expand n found (setting.scopesWithin (some param) scopes) := by
      cases n with
      | zero => rfl
      | succ n =>
        have hargument : ∀ other, some param = some other →
            (scopes.eval setting.chain other).isSome := by
          rintro _ ⟨⟩
          exact hpresent
        exact renderNodes_inlined setting (setting.expand n) hargument found
    rw [hblock]
    exact inclusion_matches_nodes hfound hm hC
  · refine interchangeable_of_matches (fun _ _ h => h.eq_of_nowhere) fun known m n hm hC => ?_
    have hscopes : scopes.push (.of .null) = setting.scopesWithin (some param) scopes := by
      rw [Setting.scopesWithin, Scopes.evalOrNull, habsent, Option.getD_none]
    rw [hscopes]
    exact inclusion_matches_nodes hfound hm hC

/-- An include in a loop. -/
theorem inclusion_eq_inlined_of_loop :
    let setting : Setting := ⟨[], .default, some fun _ => .ok "<\x7b\x7bthis\x7d\x7d>", true⟩
    let found : List Node := [.text "<", .lookup (.this []) true, .text ">"]
    let nodes : List Node := [.block .each (.path (.this [])) [.inclusion "item" none] none]
    let nodes' : List Node := [.block .each (.path (.this [])) found none]
    let scopes := Scopes.root (.list [.str "a", .str "b"])
    let p := Progress.start .empty
    (p.shelf.load setting.source setting.keeps "item").1 = .ok found ∧
      Inlines (.only "item" none found) nodes nodes' ∧
      (∀ v ∈ setting.visits 2 nodes scopes p, Calm setting (.only "item" none found) v) ∧
      (setting.expand 2 nodes scopes p).map Prod.fst = some (.ok "<a><b>") ∧
      ∃ q, setting.expand 2 nodes' scopes p = some (.ok "<a><b>", q) := by
  intro setting found nodes nodes' scopes p
  have hload : (p.shelf.load setting.source setting.keeps "item").1 = .ok found := by cbv
  have hinlines : Inlines (.only "item" none found) nodes nodes' :=
    .block (.keyword .each (.path (.this [])))
      (.swapped ⟨rfl, rfl, rfl⟩ (.refl _ found) .nil) .nil
  have hopen : (setting.visits 2 nodes scopes p).all
      (fun v => v.progress.openIncludes < Fault.includeLimit) = true := by cbv
  have hcalm : ∀ v ∈ setting.visits 2 nodes scopes p, Calm setting (.only "item" none found) v := by
    intro v hv
    refine ⟨fun _ _ _ => of_decide_eq_true (List.all_eq_true.1 hopen v hv), ?_⟩
    rintro _ _ _ ⟨-, ⟨⟩, -⟩
  have htext : (setting.expand 2 nodes scopes p).map Prod.fst = some (.ok "<a><b>") := by
    unfold nodes
    cbv
  obtain ⟨⟨r, p'⟩, hend, rfl⟩ := Option.map_eq_some_iff.1 htext
  have hreplace := (inclusion_eq_inlined setting "item" found p hload).1 none _ _ scopes hinlines
  obtain ⟨q, hq, -⟩ := hreplace.forth 2 _ _ hcalm hend
  exact ⟨hload, hinlines, hcalm, htext, q, hq⟩

end Stencil
