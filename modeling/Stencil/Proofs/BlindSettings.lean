import Mathlib.Data.List.Forall2
import Stencil.Proofs.Includes
import Stencil.Proofs.NodeTree
import Stencil.Proofs.Plans

/-!
# Scopes that a setting cannot tell apart

Nodes look at their scopes in few ways: a path is looked up and what it leads to is printed, a block
goes through scopes of its own, a helper is told of its call, and an include opens a scope. If related
scopes are the same in each of these ways (`Setting.Blind`), nodes are rendered alike in them. This
holds for any relation between scopes, so it is stated for all of them:

> `Plan.Related.run_eq`: related plans are carried out alike where their bodies are rendered alike.
> `Setting.Blind.renderNodes_eq`: one level of the recursion, by induction over the nodes.
> `Setting.Blind.expand_eq`: all levels.

The conclusions are equations of steps, and so they are about all of the progress.
-/

namespace Stencil

variable {A : Scopes → Scopes → Prop}

/-! ## Plans -/

namespace Plan

/-- Two plans that have their bodies rendered in related scopes, and that end alike. -/
inductive Related (A : Scopes → Scopes → Prop) : Plan → Plan → Prop where
  | done (result : Except Fault String) : Related A (.done result) (.done result)
  | body {s t : Scopes} {resume resume' : Except Fault String → Plan} (h : A s t)
      (hresume : ∀ r, Related A (resume r) (resume' r)) :
      Related A (.body s resume) (.body t resume')
  | other {s t : Scopes} {resume resume' : Except Fault String → Plan} (h : A s t)
      (hresume : ∀ r, Related A (resume r) (resume' r)) :
      Related A (.other s resume) (.other t resume')

theorem related_row {inner inner' : List Scopes} (h : List.Forall₂ A inner inner')
    (finish : String → Except Fault String) :
    Related A (row (fun s => .done (finish s)) inner) (row (fun s => .done (finish s)) inner') := by
  induction h generalizing finish with
  | nil => exact .done _
  | cons hscopes _ ih =>
    refine .body hscopes fun r => ?_
    cases r with
    | ok s => exact ih fun t => finish (s ++ t)
    | error e => exact .done (.error e)

/-- Scripts that ask for the same bodies and give the same answer, in related scopes. -/
theorem related_ofScript {s t : Scopes} (hpush : ∀ v, A (s.push (.of v)) (t.push (.of v)))
    (hsubject : A (s.push (.of s.subject)) (t.push (.of t.subject))) (escape : Bool)
    (script : Script) : Related A (ofScript s escape script) (ofScript t escape script) := by
  induction script with
  | done result => exact .done _
  | body subject resume ih => exact .body (hpush subject) ih
  | inverse resume ih => exact .other hsubject ih

theorem Related.run_eq {plan plan' : Plan} (h : plan.Related A plan')
    {body other : Scopes → Step String} (hbody : ∀ s t, A s t → body s = body t)
    (hother : ∀ s t, A s t → other s = other t) : plan.run body other = plan'.run body other := by
  induction h with
  | done result => rfl
  | body hscopes _ ih =>
    rw [run, run, hbody _ _ hscopes]
    exact congrArg (Step.seq _) (funext ih)
  | other hscopes _ ih =>
    rw [run, run, hother _ _ hscopes]
    exact congrArg (Step.seq _) (funext ih)

end Plan

/-! ## Settings -/

namespace Setting

/-- A block goes through related scopes where its arguments have related values: the values are alike
in conditions and in loops, and they are related as subjects. -/
theorem innerScopes_related {S T : Setting} {s t : Scopes} {V : Value → Value → Prop}
    {I : Scope → Scope → Prop} (hpush : ∀ {inner inner'}, I inner inner' →
      A (s.push inner) (t.push inner'))
    (hof : ∀ {v w}, V v w → I (.of v) (.of w)) (htruthy : ∀ {v w}, V v w → v.truthy = w.truthy)
    (hsubject : V s.subject t.subject) (k : Keyword) {param : Param}
    (hvalue : Option.Rel V (s.eval S.chain param) (t.eval T.chain param))
    (hturns : List.Forall₂ I (iterations (s.eval S.chain param))
      (iterations (t.eval T.chain param))) :
    List.Forall₂ A (S.innerScopes k param s) (T.innerScopes k param t) := by
  have hone : List.Forall₂ A [s.push (.of s.subject)] [t.push (.of t.subject)] :=
    .cons (hpush (hof hsubject)) .nil
  unfold Setting.innerScopes
  dsimp only
  generalize s.eval S.chain param = x at hvalue hturns ⊢
  generalize t.eval T.chain param = y at hvalue hturns ⊢
  -- Conditions see only the truth of the value, so both sides take the same branch.
  have hbranch : (x.getD .null).truthy = (y.getD .null).truthy := by
    cases hvalue with
    | none => rfl
    | some hvalue => exact htruthy hvalue
  cases k with
  | whenTrue =>
    dsimp only
    rw [hbranch]
    split
    next => exact hone
    next => exact .nil
  | whenFalse =>
    dsimp only
    rw [hbranch]
    split
    next => exact .nil
    next => exact hone
  | within =>
    cases hvalue with
    | none => exact .nil
    | some hvalue => exact .cons (hpush (hof hvalue)) .nil
  | each =>
    refine List.forall₂_map_left_iff.2 (List.forall₂_map_right_iff.2 ?_)
    exact hturns.imp fun _ _ hinner => hpush hinner

/-- In related scopes the setting prints the same for a path, goes through related scopes in blocks and
includes, and has helpers do the same. -/
structure Blind (S : Setting) (A : Scopes → Scopes → Prop) : Prop where
  printed : ∀ {s t : Scopes}, A s t → ∀ path escape,
    (s.lookup S.chain path).map (emit · escape) = (t.lookup S.chain path).map (emit · escape)
  innerScopes : ∀ {s t : Scopes}, A s t → ∀ k param,
    List.Forall₂ A (S.innerScopes k param s) (S.innerScopes k param t)
  helperPlan : ∀ {s t : Scopes}, A s t → ∀ name params named isBlock escape,
    (S.helperPlan name params named isBlock escape s).Related A
      (S.helperPlan name params named isBlock escape t)
  scopesWithin : ∀ {s t : Scopes}, A s t → ∀ context,
    A (S.scopesWithin context s) (S.scopesWithin context t)

namespace Blind

variable {S : Setting} (h : S.Blind A) {E : Expand}

include h

theorem blockPlan {s t : Scopes} (hscopes : A s t) (k : Keyword) (param : Param) :
    (S.blockPlan k param s).Related A (S.blockPlan k param t) := by
  have hinner := h.innerScopes hscopes k param
  unfold Setting.blockPlan
  generalize S.innerScopes k param s = inner at hinner ⊢
  generalize S.innerScopes k param t = inner' at hinner ⊢
  cases hinner with
  | nil => exact .other hscopes fun r => .done r
  | cons hfirst hrest => exact Plan.related_row (.cons hfirst hrest) .ok

theorem renderNode_lookup_eq {s t : Scopes} (hscopes : A s t) (path : Path) (escape : Bool) :
    renderNode S E (.lookup path escape) s = renderNode S E (.lookup path escape) t := by
  have hprinted := h.printed hscopes path escape
  rw [renderNode, renderNode]
  generalize s.lookup S.chain path = x at hprinted ⊢
  generalize t.lookup S.chain path = y at hprinted ⊢
  cases x with
  | none =>
    cases y with
    | none => rfl
    | some w => cases hprinted
  | some v =>
    cases y with
    | none => cases hprinted
    | some w => exact congrArg Step.pure (Option.some.inj hprinted)

/-- **One level of the recursion.** -/
theorem renderNodes_eq (hexpand : ∀ nodes s t, A s t → E nodes s = E nodes t) (nodes : List Node) :
    ∀ s t, A s t → renderNodes S E nodes s = renderNodes S E nodes t := by
  induction nodes using Node.induction with
  | nil =>
    intro s t _
    rw [renderNodes, renderNodes]
  | cons n rest ihbody ihrest =>
    intro s t hscopes
    have hother : ∀ inverse : Option (List Node), (∀ other ∈ inverse.toList, other ∈ n.bodies) →
        ∀ s t, A s t → renderOther S E inverse s = renderOther S E inverse t := by
      intro inverse hmem s t hscopes
      cases inverse with
      | none => rfl
      | some other => exact ihbody other (hmem other (List.mem_singleton.2 rfl)) s t hscopes
    have hnode : renderNode S E n s = renderNode S E n t := by
      cases n with
      | text text => rw [renderNode, renderNode]
      | lookup path escape => exact h.renderNode_lookup_eq hscopes path escape
      | block k param body inverse =>
        rw [renderNode_block_eq_run, renderNode_block_eq_run]
        refine (h.blockPlan hscopes k param).run_eq (ihbody body (List.mem_cons_self ..)) ?_
        exact hother inverse fun other hmem => List.mem_cons_of_mem body hmem
      | helperBlock name params named body inverse =>
        rw [renderNode_helperBlock_eq_run, renderNode_helperBlock_eq_run]
        refine (h.helperPlan hscopes ..).run_eq (ihbody body (List.mem_cons_self ..)) ?_
        exact hother inverse fun other hmem => List.mem_cons_of_mem body hmem
      | call name params named escape =>
        rw [renderNode_call_eq_run, renderNode_call_eq_run]
        exact (h.helperPlan hscopes ..).run_eq (fun _ _ _ => rfl) fun _ _ _ => rfl
      | inclusion name context =>
        rw [renderNode_inclusion, renderNode_inclusion]
        exact runInclude_congr fun nodes => hexpand nodes _ _ (h.scopesWithin hscopes context)
      | region name body =>
        rw [renderNode, renderNode]
        funext p
        rw [ihbody body (List.mem_singleton.2 rfl) s t hscopes]
        simp only [hexpand _ s t hscopes]
      | override name body => rw [renderNode, renderNode]
    rw [renderNodes, renderNodes, hnode, ihrest s t hscopes]

/-- **All levels of the recursion.** -/
theorem expand_eq (budget : Nat) (nodes : List Node) {s t : Scopes} (hscopes : A s t) :
    S.expand budget nodes s = S.expand budget nodes t := by
  induction budget generalizing nodes s t with
  | zero => rfl
  | succ budget ih =>
    exact h.renderNodes_eq (fun nodes s t hscopes => ih nodes hscopes) nodes s t hscopes

theorem render_eq (nodes : List Node) {s t : Scopes} (hscopes : A s t) (shelf : Shelf) :
    S.render nodes s shelf = S.render nodes t shelf := by
  unfold Setting.render
  rw [h.expand_eq expansionBudget nodes hscopes]

end Blind

end Setting

end Stencil
