import Stencil.Proofs.Includes
import Stencil.Proofs.NodeTree
import Stencil.Proofs.Plans

/-!
# What rendering keeps, and where one render ends as another does

Rendering walks over nodes, and only in a few places does it touch the progress or print
something that it did not put together itself. `Duties` lists these places; whoever sees to them
knows what every render keeps and prints:

> `renderNodes_keeps`: one level of the recursion.
> `expand_keeps`: all levels.
> `render_keeps_shelf`: for an invariant of the shelf, loads are all there is to see to.

Two renders of the same nodes, in settings with the same helpers and the same chain, can only
part where they look at their progress. `Parallel` says that they see the same there:

> `renderNodes_extends`: one level of the recursion; the levels below it may end more often.
> `expand_extends`, `expand_agree`: all levels.
> `expand_mono`: what a render ends with, it ends with on any greater budget. So a render has one
> result or none, whatever the budget.
-/

namespace Stencil

open Step (Keeps Extends Agree)

/-! ## What rendering keeps -/

section Keeps

variable {I : Progress → Prop} {Q : String → Prop}

/-- If the texts that the plan is told of have the property, then so has its own. -/
def Plan.Yields (Q : String → Prop) : Plan → Prop
  | .done result => ∀ s, result = .ok s → Q s
  | .body _ resume => ∀ r, (∀ s, r = .ok s → Q s) → (resume r).Yields Q
  | .other _ resume => ∀ r, (∀ s, r = .ok s → Q s) → (resume r).Yields Q

/-- A plan keeps what the rendering of its bodies keeps. -/
theorem Plan.keeps_run {body other : Scopes → Step String} (hbody : ∀ s, Keeps I Q (body s))
    (hother : ∀ s, Keeps I Q (other s)) {plan : Plan} (h : plan.Yields Q) :
    Keeps I Q (plan.run body other) := by
  induction plan with
  | done result => exact Step.keeps_done h
  | body scopes resume ih => exact Step.keeps_seq (hbody scopes) fun r hr => ih r (h r hr)
  | other scopes resume ih => exact Step.keeps_seq (hother scopes) fun r hr => ih r (h r hr)

theorem Plan.row_yields (hempty : Q "") (happend : ∀ a b, Q a → Q b → Q (a ++ b))
    (inner : List Scopes) {finish : String → Plan} (hfinish : ∀ s, Q s → (finish s).Yields Q) :
    (Plan.row finish inner).Yields Q := by
  induction inner generalizing finish with
  | nil => exact hfinish "" hempty
  | cons scopes rest ih =>
    intro r hr
    cases r with
    | ok s => exact ih fun t ht => hfinish (s ++ t) (happend s t (hr s rfl) ht)
    | error e => exact fun t ht => by cases ht

theorem blockPlan_yields (setting : Setting) (hempty : Q "")
    (happend : ∀ a b, Q a → Q b → Q (a ++ b)) (k : Keyword) (param : Param) (scopes : Scopes) :
    (setting.blockPlan k param scopes).Yields Q := by
  unfold Setting.blockPlan
  split
  next => exact fun _ hr => hr
  next =>
    refine Plan.row_yields hempty happend _ fun s hs t ht => ?_
    cases ht
    exact hs

/-- Whatever a helper does with the texts of its bodies, the text is the print of its answer. -/
theorem helperPlan_yields (setting : Setting) {escape : Bool} (h : ∀ v, Q (emit v escape))
    (name : String) (params : List Param) (named : Table Param) (isBlock : Bool)
    (scopes : Scopes) :
    (setting.helperPlan name params named isBlock escape scopes).Yields Q := by
  unfold Setting.helperPlan
  split
  next => exact fun _ hs => by cases hs
  next helper _ =>
    induction helper (setting.call scopes name params named isBlock) with
    | done result =>
      cases result with
      | ok v =>
        intro s hs
        cases hs
        exact h v
      | error e => exact fun _ hs => by cases hs
    | body subject resume ih => exact fun r _ => ih r
    | inverse resume ih => exact fun r _ => ih r

theorem renderOther_keeps {setting : Setting} {expand : Expand} {inverse : Option (List Node)}
    {scopes : Scopes} (hempty : Q "")
    (h : ∀ nodes ∈ inverse.toList, Keeps I Q (renderNodes setting expand nodes scopes)) :
    Keeps I Q (renderOther setting expand inverse scopes) := by
  cases inverse with
  | none => exact Step.keeps_pure hempty
  | some nodes => exact h nodes (List.mem_singleton.2 rfl)

/-- An include keeps an invariant that does not look at the open includes, where reading the
template and rendering its nodes do. -/
theorem runInclude_keeps {setting : Setting} {expand : Expand} {name : String}
    (hload : ∀ p, I p →
      I { p with shelf := (p.shelf.load setting.source setting.keeps name).2 })
    (hopen : ∀ p k, I p → I { p with openIncludes := k })
    (hnodes : ∀ p, I p → ∀ nodes, (p.shelf.load setting.source setting.keeps name).1 = .ok nodes →
      ∀ inner, Keeps I Q (expand nodes inner))
    (context : Option Param) (scopes : Scopes) :
    Keeps I Q (setting.runInclude expand name context scopes) := by
  intro p hp r p' h
  cases p.includeWay setting name with
  | refused hlimit =>
    rw [runInclude_refused _ _ _ hlimit] at h
    cases h
    exact ⟨hp, fun _ hx => by cases hx⟩
  | missing hlimit hanswer =>
    rw [runInclude_missing _ _ _ hlimit hanswer] at h
    cases h
    exact ⟨hload p hp, fun _ hx => by cases hx⟩
  | @found hlimit nodes hanswer =>
    rw [runInclude_found _ _ _ hlimit hanswer] at h
    have hinner := hnodes p hp nodes (Shelf.load_fst.trans hanswer)
    have hclosed : ∀ r, (∀ x, r = .ok x → Q x) →
        Keeps I Q fun q => some (r, q.withOpen p.openIncludes) := by
      intro r hr q hq r' q' h
      cases h
      exact ⟨hopen q p.openIncludes hq, hr⟩
    exact Step.keeps_seq (hinner _) hclosed _ (hopen _ _ (hload p hp)) r p' h

/-- What has to be seen to, for the rendering of nodes with `G` to keep `I` and to print only
texts with `Q`: the property holds of texts in a row and of what single nodes print, and the
invariant survives includes, regions with an override, and overrides. -/
structure Duties (setting : Setting) (expand : Expand) (G : Node → Prop) (I : Progress → Prop)
    (Q : String → Prop) : Prop where
  empty : Q ""
  append : ∀ a b, Q a → Q b → Q (a ++ b)
  text : ∀ s, G (.text s) → Q s
  lookup : ∀ path escape v, G (.lookup path escape) → Q (emit v escape)
  call : ∀ name params named escape v, G (.call name params named escape) → Q (emit v escape)
  helperBlock : ∀ name params named body inverse v,
    G (.helperBlock name params named body inverse) → Q (emit v false)
  inclusion : ∀ name context scopes, G (.inclusion name context) →
    Keeps I Q (setting.runInclude expand name context scopes)
  region : ∀ p, I p → ∀ name body, G (.region name body) → ∀ replacement,
    p.overrides.get? name = some replacement → ∀ scopes, Keeps I Q (expand replacement scopes)
  override : ∀ p, I p → ∀ name body, G (.override name body) → (∀ n, n.Occurs body → G n) →
    I { p with overrides := p.overrides.insert name body }

/-- One level of the recursion: with the duties seen to, rendering keeps the invariant and prints
only texts with the property. -/
theorem renderNodes_keeps {setting : Setting} {expand : Expand} {G : Node → Prop}
    (h : Duties setting expand G I Q) (nodes : List Node) :
    (∀ n, n.Occurs nodes → G n) →
      ∀ scopes, Keeps I Q (renderNodes setting expand nodes scopes) := by
  induction nodes using Node.induction with
  | nil =>
    intro _ scopes
    rw [renderNodes]
    exact Step.keeps_pure h.empty
  | cons n rest ihbody ihrest =>
    intro hG scopes
    rw [renderNodes]
    have hn : G n := hG n .head
    -- Nodes in a body stand in the list as well, so the induction hypotheses apply to bodies.
    have hbody : ∀ body ∈ n.bodies, (∀ m, m.Occurs body → G m) ∧
        ∀ inner, Keeps I Q (renderNodes setting expand body inner) := by
      intro body hmem
      have hoccurs := fun m (hm : m.Occurs body) => hG m (hm.inBody hmem)
      exact ⟨hoccurs, ihbody body hmem hoccurs⟩
    have hrest := ihrest (fun m hm => hG m hm.tail) scopes
    have hnode : Keeps I Q (renderNode setting expand n scopes) := by
      cases n with
      | text s =>
        rw [renderNode]
        exact Step.keeps_pure (h.text s hn)
      | lookup path escape =>
        rw [renderNode]
        split
        next v _ => exact Step.keeps_pure (h.lookup path escape v hn)
        next => exact Step.keeps_pure h.empty
      | block k param body inverse =>
        rw [renderNode_block_eq_run]
        refine Plan.keeps_run ?_ ?_ (blockPlan_yields setting h.empty h.append k param scopes)
        · exact (hbody body (by simp [Node.bodies])).2
        · exact fun inner => renderOther_keeps h.empty fun other hmem =>
            (hbody other (List.mem_cons_of_mem body hmem)).2 inner
      | helperBlock name params named body inverse =>
        rw [renderNode_helperBlock_eq_run]
        refine Plan.keeps_run ?_ ?_ (helperPlan_yields setting (fun v => ?_) ..)
        · exact (hbody body (by simp [Node.bodies])).2
        · exact fun inner => renderOther_keeps h.empty fun other hmem =>
            (hbody other (List.mem_cons_of_mem body hmem)).2 inner
        · exact h.helperBlock name params named body inverse v hn
      | call name params named escape =>
        have hnothing := Step.keeps_pure (I := I) h.empty
        rw [renderNode_call_eq_run]
        exact Plan.keeps_run (fun _ => hnothing) (fun _ => hnothing)
          (helperPlan_yields setting (fun v => h.call name params named escape v hn) ..)
      | inclusion name context =>
        rw [renderNode]
        exact h.inclusion name context scopes hn
      | region name body =>
        rw [renderNode]
        intro p hp
        dsimp only
        split
        next replacement hget => exact h.region p hp name body hn replacement hget scopes p hp
        next => exact (hbody body (by simp [Node.bodies])).2 scopes p hp
      | override name body =>
        rw [renderNode]
        intro p hp r p' hr
        cases hr
        refine ⟨h.override p hp name body hn (hbody body (by simp [Node.bodies])).1, ?_⟩
        rintro x hx
        cases hx
        exact h.empty
    refine Step.keeps_bind hnode fun s hs => ?_
    exact Step.keeps_bind hrest fun t ht => Step.keeps_pure (h.append s t hs ht)

/-- All levels of the recursion: what a level sees to under the assumption that the levels below
it keep the invariant, every budget keeps. -/
theorem expand_keeps {setting : Setting} {G : Node → Prop}
    (h : ∀ expand : Expand,
      (∀ nodes, (∀ n, n.Occurs nodes → G n) → ∀ scopes, Keeps I Q (expand nodes scopes)) →
      Duties setting expand G I Q)
    (budget : Nat) (nodes : List Node) (hG : ∀ n, n.Occurs nodes → G n) (scopes : Scopes) :
    Keeps I Q (setting.expand budget nodes scopes) := by
  induction budget generalizing nodes scopes with
  | zero =>
    intro p _ r p' hr
    cases hr
  | succ budget ih => exact renderNodes_keeps (h (setting.expand budget) ih) nodes hG scopes

/-- What every load keeps true of the shelf, every render keeps true of it. -/
theorem render_keeps_shelf (setting : Setting) {J : Shelf → Prop}
    (hload : ∀ shelf name, J shelf → J (shelf.load setting.source setting.keeps name).2)
    {nodes : List Node} {scopes : Scopes} {shelf shelf' : Shelf} {r : Except Fault String}
    (hstart : J shelf) (h : setting.render nodes scopes shelf = some (r, shelf')) : J shelf' := by
  have hkeeps : Keeps (fun p => J p.shelf) (fun _ => True)
      (setting.expand expansionBudget nodes scopes) := by
    refine expand_keeps (G := fun _ => True) (fun expand ih => ?_) _ _ (fun _ _ => trivial) _
    exact
      { empty := trivial
        append := fun _ _ _ _ => trivial
        text := fun _ _ => trivial
        lookup := fun _ _ _ _ => trivial
        call := fun _ _ _ _ _ _ => trivial
        helperBlock := fun _ _ _ _ _ _ _ => trivial
        inclusion := fun name context scopes _ =>
          runInclude_keeps (fun p hp => hload p.shelf name hp) (fun _ _ hp => hp)
            (fun _ _ found _ => ih found fun _ _ => trivial) context scopes
        region := fun _ _ _ _ _ replacement _ => ih replacement fun _ _ => trivial
        override := fun _ hp _ _ _ _ => hp }
  unfold Setting.render at h
  split at h
  next => cases h
  next hexpand =>
    cases h
    exact (hkeeps _ hstart _ _ hexpand).1

/-- A render that ends on its first levels, however many are left below them. -/
theorem render_of_levels {setting : Setting} {nodes : List Node} {scopes : Scopes} {shelf : Shelf}
    {r : Except Fault String} {p : Progress} (levels : Nat) (hlevels : levels ≤ expansionBudget)
    (h : ∀ budget, setting.expand (budget + levels) nodes scopes ⟨[], 0, shelf⟩ = some (r, p)) :
    setting.render nodes scopes shelf = some (r, p.shelf) := by
  unfold Setting.render
  rw [← Nat.sub_add_cancel hlevels, h]

end Keeps

/-! ## Where one render ends as another does -/

section Extends

/-- Two settings in which renders run in parallel, given how their progress is related: the same
helpers and chain, the same overrides and open includes, and templates that are read alike. -/
structure Parallel (R : Progress → Progress → Prop) (S T : Setting) : Prop where
  helpers : S.helpers = T.helpers
  chain : S.chain = T.chain
  overrides : ∀ p q, R p q → p.overrides = q.overrides
  openIncludes : ∀ p q, R p q → p.openIncludes = q.openIncludes
  override : ∀ p q os, R p q → R { p with overrides := os } { q with overrides := os }
  opened : ∀ p q k, R p q → R { p with openIncludes := k } { q with openIncludes := k }
  loaded : ∀ p q name, R p q →
    (p.shelf.load S.source S.keeps name).1 = (q.shelf.load T.source T.keeps name).1
  shelved : ∀ p q name, R p q →
    R { p with shelf := (p.shelf.load S.source S.keeps name).2 }
      { q with shelf := (q.shelf.load T.source T.keeps name).2 }

variable {R : Progress → Progress → Prop} {S T : Setting}

theorem Parallel.symm (h : Parallel R S T) : Parallel (flip R) T S where
  helpers := h.helpers.symm
  chain := h.chain.symm
  overrides p q hpq := (h.overrides q p hpq).symm
  openIncludes p q hpq := (h.openIncludes q p hpq).symm
  override p q os hpq := h.override q p os hpq
  opened p q k hpq := h.opened q p k hpq
  loaded p q name hpq := (h.loaded q p name hpq).symm
  shelved p q name hpq := h.shelved q p name hpq

theorem parallel_refl (setting : Setting) : Parallel Eq setting setting := by
  refine ⟨rfl, rfl, ?_, ?_, ?_, ?_, ?_, ?_⟩
  all_goals
    rintro p q
    intros
    subst_vars
    rfl

/-- A plan that is told the same goes on in the same way. -/
theorem Plan.extends_run {body body' other other' : Scopes → Step String}
    (hbody : ∀ s, Extends R (body s) (body' s)) (hother : ∀ s, Extends R (other s) (other' s))
    (plan : Plan) : Extends R (plan.run body other) (plan.run body' other') := by
  induction plan with
  | done result => exact Step.extends_done result
  | body scopes resume ih => exact Step.extends_seq (hbody scopes) ih
  | other scopes resume ih => exact Step.extends_seq (hother scopes) ih

theorem blockPlan_congr (hchain : S.chain = T.chain) (k : Keyword) (param : Param)
    (scopes : Scopes) : S.blockPlan k param scopes = T.blockPlan k param scopes := by
  unfold Setting.blockPlan Setting.innerScopes
  rw [hchain]

theorem helperPlan_congr (hhelpers : S.helpers = T.helpers) (hchain : S.chain = T.chain)
    (name : String) (params : List Param) (named : Table Param) (isBlock escape : Bool)
    (scopes : Scopes) :
    S.helperPlan name params named isBlock escape scopes =
      T.helperPlan name params named isBlock escape scopes := by
  unfold Setting.helperPlan Setting.call
  rw [hhelpers, hchain]

theorem renderOther_extends {E F : Expand} {inverse : Option (List Node)} {scopes : Scopes}
    (h : ∀ nodes ∈ inverse.toList,
      Extends R (renderNodes S E nodes scopes) (renderNodes T F nodes scopes)) :
    Extends R (renderOther S E inverse scopes) (renderOther T F inverse scopes) := by
  cases inverse with
  | none => exact Step.extends_pure ""
  | some nodes => exact h nodes (List.mem_singleton.2 rfl)

theorem runInclude_extends (h : Parallel R S T) {E F : Expand}
    (hexpand : ∀ nodes scopes, Extends R (E nodes scopes) (F nodes scopes)) (name : String)
    (context : Option Param) (scopes : Scopes) :
    Extends R (S.runInclude E name context scopes) (T.runInclude F name context scopes) := by
  intro p q hpq r p' hr
  have hopen := h.openIncludes p q hpq
  have hshelved := h.shelved p q name hpq
  -- Both read the same nodes or fail alike; only the shelves may differ from here on.
  have hanswers : p.shelf.answer S.source name = q.shelf.answer T.source name :=
    Shelf.load_fst.symm.trans ((h.loaded p q name hpq).trans Shelf.load_fst)
  cases p.includeWay S name with
  | refused hlimit =>
    rw [runInclude_refused _ _ _ hlimit] at hr
    cases hr
    exact ⟨q, runInclude_refused _ _ _ (hopen ▸ hlimit), hpq⟩
  | missing hlimit hanswer =>
    rw [runInclude_missing _ _ _ hlimit hanswer] at hr
    cases hr
    exact ⟨_, runInclude_missing _ _ _ (hopen ▸ hlimit) (hanswers.symm.trans hanswer), hshelved⟩
  | @found hlimit nodes hanswer =>
    have hinner : S.scopesWithin context scopes = T.scopesWithin context scopes := by
      unfold Setting.scopesWithin
      rw [h.chain]
    rw [runInclude_found _ _ _ hlimit hanswer, hinner, hopen] at hr
    rw [runInclude_found _ _ _ (hopen ▸ hlimit) (hanswers.symm.trans hanswer)]
    have hclosed : ∀ r : Except Fault String, Extends R
        (fun p => some (r, p.withOpen q.openIncludes))
        fun p => some (r, p.withOpen q.openIncludes) := by
      intro r p q hpq r' p' h'
      cases h'
      exact ⟨_, rfl, h.opened p q _ hpq⟩
    exact Step.extends_seq (hexpand nodes _) hclosed _ _ (h.opened _ _ _ hshelved) r p' hr

/-- One level of the recursion: a render ends as another does where the levels below it do. -/
theorem renderNodes_extends (h : Parallel R S T) {E F : Expand}
    (hexpand : ∀ nodes scopes, Extends R (E nodes scopes) (F nodes scopes)) (nodes : List Node) :
    ∀ scopes, Extends R (renderNodes S E nodes scopes) (renderNodes T F nodes scopes) := by
  induction nodes using Node.induction with
  | nil =>
    intro scopes
    rw [renderNodes, renderNodes]
    exact Step.extends_pure ""
  | cons n rest ihbody ihrest =>
    intro scopes
    rw [renderNodes, renderNodes]
    have hnode : Extends R (renderNode S E n scopes) (renderNode T F n scopes) := by
      cases n with
      | text s =>
        rw [renderNode, renderNode]
        exact Step.extends_pure s
      | lookup path escape =>
        rw [renderNode, renderNode, h.chain]
        split
        next v _ => exact Step.extends_pure (emit v escape)
        next => exact Step.extends_pure ""
      | block k param body inverse =>
        rw [renderNode_block_eq_run, renderNode_block_eq_run, blockPlan_congr h.chain]
        refine Plan.extends_run ?_ (fun inner => ?_) _
        · exact ihbody body (by simp [Node.bodies])
        · exact renderOther_extends fun other hmem =>
            ihbody other (List.mem_cons_of_mem body hmem) inner
      | helperBlock name params named body inverse =>
        rw [renderNode_helperBlock_eq_run, renderNode_helperBlock_eq_run,
          helperPlan_congr h.helpers h.chain]
        refine Plan.extends_run ?_ (fun inner => ?_) _
        · exact ihbody body (by simp [Node.bodies])
        · exact renderOther_extends fun other hmem =>
            ihbody other (List.mem_cons_of_mem body hmem) inner
      | call name params named escape =>
        rw [renderNode_call_eq_run, renderNode_call_eq_run, helperPlan_congr h.helpers h.chain]
        exact Plan.extends_run (fun _ => Step.extends_pure "") (fun _ => Step.extends_pure "") _
      | inclusion name context =>
        rw [renderNode, renderNode]
        exact runInclude_extends h hexpand name context scopes
      | region name body =>
        rw [renderNode, renderNode]
        intro p q hpq
        dsimp only
        rw [h.overrides p q hpq]
        split
        next replacement _ => exact hexpand replacement scopes p q hpq
        next => exact ihbody body (by simp [Node.bodies]) scopes p q hpq
      | override name body =>
        rw [renderNode, renderNode]
        intro p q hpq r p' hr
        cases hr
        exact ⟨_, rfl, h.overrides p q hpq ▸ h.override p q _ hpq⟩
    exact Step.extends_bind hnode fun s =>
      Step.extends_bind (ihrest scopes) fun t => Step.extends_pure (s ++ t)

/-- All levels of the recursion, with the same budget or with a greater one. -/
theorem expand_extends (h : Parallel R S T) {budget budget' : Nat} (hle : budget ≤ budget')
    (nodes : List Node) (scopes : Scopes) :
    Extends R (S.expand budget nodes scopes) (T.expand budget' nodes scopes) := by
  induction budget generalizing budget' nodes scopes with
  | zero =>
    intro p q _ r p' hr
    cases hr
  | succ budget ih =>
    obtain ⟨levels, rfl⟩ : ∃ levels, budget' = levels + 1 := ⟨budget' - 1, by omega⟩
    exact renderNodes_extends h (ih (Nat.le_of_succ_le_succ hle)) nodes scopes

/-- Renders in parallel settings agree, with any budget. -/
theorem expand_agree (h : Parallel R S T) (budget : Nat) (nodes : List Node) (scopes : Scopes) :
    Agree R (S.expand budget nodes scopes) (T.expand budget nodes scopes) :=
  Step.agree_of_extends (expand_extends h (Nat.le_refl budget) nodes scopes)
    (expand_extends h.symm (Nat.le_refl budget) nodes scopes)

/-- What a render ends with, it ends with on any greater budget. -/
theorem expand_mono {setting : Setting} {budget budget' : Nat} (hle : budget ≤ budget')
    {nodes : List Node} {scopes : Scopes} {p : Progress} {x : Except Fault String × Progress}
    (h : setting.expand budget nodes scopes p = some x) :
    setting.expand budget' nodes scopes p = some x := by
  obtain ⟨q, hq, rfl⟩ :=
    expand_extends (parallel_refl setting) hle nodes scopes p p rfl x.1 x.2 h
  exact hq

end Extends

end Stencil
