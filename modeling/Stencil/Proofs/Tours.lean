import Stencil.Proofs.Includes
import Stencil.Proofs.NodeTree
import Stencil.Proofs.Plans

/-!
# Tours: a render and the nodes it comes to

A render is a step, and of a step one sees only what it ends with. Some laws speak of what happens
on the way: which overrides were declared before a region was come to, how many includes were open
around a tag. A `Tour` is a step together with its visits: the nodes it comes to, in order, each
with the includes that are open around it, its scopes and the progress at that moment. A node that
is come to in a body that a helper has rendered is visited as well, whatever the helper makes of
the text or the fault; and so is a node in a render that exceeds its budget, as far as it comes.

Tours are put together as renders are. The step of such a tour is the render itself:

> `tour_step`: `(setting.tour budget nodes scopes within).step = setting.expand budget nodes scopes`.

What is to be shown of all visits of all renders is shown for each way of building a tour
(`Tour.Rules`); the induction over nodes and budgets is done once (`tour_of_rules`).
-/

namespace Stencil

/-- A node that a render comes to. -/
structure Visit where
  /-- The names of the includes that are open around the node, the innermost first. -/
  within : List String
  node : Node
  scopes : Scopes
  /-- The progress of the render when it comes to the node. -/
  progress : Progress

/-- A step together with the visits it makes, given the progress before it. -/
structure Tour (α : Type) where
  step : Step α
  visits : Progress → List Visit

/-- What renders nodes in scopes and tells what it visits, given the includes that are open. -/
abbrev Guide := List Node → Scopes → List String → Tour String

namespace Tour

variable {α β : Type}

/-- A step that comes to no node. -/
def still (s : Step α) : Tour α := ⟨s, fun _ => []⟩

/-- One tour after another, which is told the result or the fault of the first. -/
def seq (t : Tour α) (f : Except Fault α → Tour β) : Tour β where
  step := Step.seq t.step fun r => (f r).step
  visits p := t.visits p ++
    match t.step p with
    | none => []
    | some (r, q) => (f r).visits q

/-- Goes on with a result and passes a fault on. -/
def onResult (f : α → Tour β) : Except Fault α → Tour β
  | .ok x => f x
  | .error e => still (Step.fail e)

/-- One tour after another; a fault ends both. -/
def bind (t : Tour α) (f : α → Tour β) : Tour β := seq t (onResult f)

/-- A tour that depends on the progress so far. -/
def choose (f : Progress → Tour α) : Tour α := ⟨fun p => (f p).step p, fun p => (f p).visits p⟩

/-- A tour that begins with a visit. -/
def visiting (within : List String) (n : Node) (scopes : Scopes) (t : Tour α) : Tour α where
  step := t.step
  visits p := ⟨within, n, scopes, p⟩ :: t.visits p

section

variable {t : Tour α} {f : Except Fault α → Tour β} {p : Progress}

theorem seq_visits_of_ended {r : Except Fault α} {q : Progress} (h : t.step p = some (r, q)) :
    (seq t f).visits p = t.visits p ++ (f r).visits q := by
  simp only [seq, h]

theorem seq_visits_of_endless (h : t.step p = none) : (seq t f).visits p = t.visits p := by
  simp only [seq, h, List.append_nil]

/-- What comes to no node adds no visit. -/
theorem seq_visits_of_still (h : ∀ r q, (f r).visits q = []) :
    (seq t f).visits p = t.visits p := by
  cases hstep : t.step p with
  | none => exact seq_visits_of_endless hstep
  | some ended =>
    obtain ⟨r, q⟩ := ended
    rw [seq_visits_of_ended hstep, h, List.append_nil]

end

theorem onResult_step (f : α → Tour β) (r : Except Fault α) :
    (onResult f r).step = Step.onResult (fun x => (f x).step) r := by
  cases r with
  | ok x => rfl
  | error e => rfl

theorem bind_step (t : Tour α) (f : α → Tour β) :
    (bind t f).step = Step.bind t.step fun x => (f x).step := by
  rw [Step.bind_eq_seq]
  unfold bind seq
  simp only [onResult_step]

end Tour

/-- The tour of a plan, given the tours of the bodies. -/
def Plan.tour (body other : Scopes → Tour String) : Plan → Tour String
  | .done result => .still fun p => some (result, p)
  | .body scopes resume => .seq (body scopes) fun r => (resume r).tour body other
  | .other scopes resume => .seq (other scopes) fun r => (resume r).tour body other

namespace Setting

/-- The tour of an include. It comes to nodes only below the limit, and only if the template is
found; then one more include is open around them. -/
def tourInclude (setting : Setting) (guide : Guide) (name : String) (context : Option Param)
    (scopes : Scopes) (within : List String) : Tour String where
  step := setting.runInclude (fun nodes inner => (guide nodes inner (name :: within)).step) name
    context scopes
  visits p :=
    if Fault.includeLimit ≤ p.openIncludes then []
    else
      match p.shelf.load setting.source setting.keeps name with
      | (.error _, _) => []
      | (.ok nodes, shelf) =>
        (guide nodes (setting.scopesWithin context scopes) (name :: within)).visits
          { p with shelf := shelf, openIncludes := p.openIncludes + 1 }

end Setting

mutual

/-- The tour of a node, after the visit to the node itself. -/
def tourNode (setting : Setting) (guide : Guide) : Node → Scopes → List String → Tour String
  | .text s, _, _ => .still (Step.pure s)
  | .lookup path escape, scopes, _ =>
    .still (Step.pure
      (match scopes.lookup setting.chain path with
      | some v => emit v escape
      | none => ""))
  | .block k param body inverse, scopes, within =>
    (setting.blockPlan k param scopes).tour
      (fun inner => tourNodes setting guide body inner within)
      fun inner =>
        match inverse with
        | some nodes => tourNodes setting guide nodes inner within
        | none => .still (Step.pure "")
  | .helperBlock name params named body inverse, scopes, within =>
    (setting.helperPlan name params named true false scopes).tour
      (fun inner => tourNodes setting guide body inner within)
      fun inner =>
        match inverse with
        | some nodes => tourNodes setting guide nodes inner within
        | none => .still (Step.pure "")
  | .call name params named escape, scopes, _ =>
    (setting.helperPlan name params named false escape scopes).tour
      (fun _ => .still (Step.pure "")) fun _ => .still (Step.pure "")
  | .inclusion name context, scopes, within => setting.tourInclude guide name context scopes within
  | .region name body, scopes, within => .choose fun p =>
    match p.overrides.get? name with
    | some replacement => guide replacement scopes within
    | none => tourNodes setting guide body scopes within
  | .override name body, _, _ => .still fun p =>
    some (.ok "", { p with overrides := p.overrides.insert name body })

/-- The tour of nodes in order. -/
def tourNodes (setting : Setting) (guide : Guide) : List Node → Scopes → List String → Tour String
  | [], _, _ => .still (Step.pure "")
  | n :: rest, scopes, within =>
    .bind (.visiting within n scopes (tourNode setting guide n scopes within)) fun s =>
      .bind (tourNodes setting guide rest scopes within) fun t => .still (Step.pure (s ++ t))

end

/-- The tour of a render with a budget for nested expansions. -/
def Setting.tour (setting : Setting) : Nat → Guide
  | 0 => fun _ _ _ => .still fun _ => none
  | budget + 1 => fun nodes scopes within => tourNodes setting (setting.tour budget) nodes scopes within

/-- What a render visits. -/
def Setting.visits (setting : Setting) (budget : Nat) (nodes : List Node) (scopes : Scopes)
    (p : Progress) : List Visit :=
  (setting.tour budget nodes scopes []).visits p

/-- The progress at the start of a render: no overrides, no open includes. -/
def Progress.start (shelf : Shelf) : Progress := ⟨[], 0, shelf⟩

theorem render_eq (setting : Setting) (nodes : List Node) (scopes : Scopes) (shelf : Shelf) :
    setting.render nodes scopes shelf =
      (setting.expand expansionBudget nodes scopes (.start shelf)).map fun (r, p) =>
        (r, p.shelf) := by
  unfold Setting.render Progress.start
  split
  next h => rw [h]; rfl
  next h => rw [h]; rfl

/-! ## The visits of an include -/

section

variable {setting : Setting} {name : String} {p : Progress}

variable (guide : Guide) (context : Option Param) (scopes : Scopes) (within : List String)

theorem tourInclude_step :
    (setting.tourInclude guide name context scopes within).step =
      setting.runInclude (fun nodes inner => (guide nodes inner (name :: within)).step) name
        context scopes := rfl

theorem tourInclude_visits_refused (h : Fault.includeLimit ≤ p.openIncludes) :
    (setting.tourInclude guide name context scopes within).visits p = [] := by
  change (if _ then _ else _) = _
  rw [if_pos h]

theorem tourInclude_visits_missing {e : Fault}
    (hanswer : p.shelf.answer setting.source name = .error e) :
    (setting.tourInclude guide name context scopes within).visits p = [] := by
  change (if _ then _ else _) = _
  rw [load_eq_answer, hanswer]
  exact ite_self _

theorem tourInclude_visits_found (h : p.openIncludes < Fault.includeLimit) {nodes : List Node}
    (hanswer : p.shelf.answer setting.source name = .ok nodes) :
    (setting.tourInclude guide name context scopes within).visits p =
      (guide nodes (setting.scopesWithin context scopes) (name :: within)).visits
        ((p.asking setting name).withOpen (p.openIncludes + 1)) := by
  change (if _ then _ else _) = _
  rw [if_neg (Nat.not_le.2 h), load_eq_answer, hanswer]
  rfl

end

/-! ## The step of a tour is the render -/

theorem Plan.tour_step (body other : Scopes → Tour String) (plan : Plan) :
    (plan.tour body other).step = plan.run (fun s => (body s).step) fun s => (other s).step := by
  induction plan with
  | done result => rfl
  | body scopes resume ih => simp only [Plan.tour, Tour.seq, Plan.run, ih]
  | other scopes resume ih => simp only [Plan.tour, Tour.seq, Plan.run, ih]

/-- The tour of a second body, where there is one. -/
def tourOther (setting : Setting) (guide : Guide) (inverse : Option (List Node)) (scopes : Scopes)
    (within : List String) : Tour String :=
  match inverse with
  | some nodes => tourNodes setting guide nodes scopes within
  | none => .still (Step.pure "")

section

variable {setting : Setting} {guide : Guide} {expand : Expand}

theorem tourOther_step {inverse : Option (List Node)}
    (h : ∀ nodes ∈ inverse.toList, ∀ scopes within,
      (tourNodes setting guide nodes scopes within).step = renderNodes setting expand nodes scopes)
    (scopes : Scopes) (within : List String) :
    (tourOther setting guide inverse scopes within).step =
      renderOther setting expand inverse scopes := by
  cases inverse with
  | none => rfl
  | some nodes => exact h nodes (List.mem_singleton.2 rfl) scopes within

theorem tourNode_block (k : Keyword) (param : Param) (body : List Node)
    (inverse : Option (List Node)) (scopes : Scopes) (within : List String) :
    tourNode setting guide (.block k param body inverse) scopes within =
      (setting.blockPlan k param scopes).tour
        (fun inner => tourNodes setting guide body inner within)
        fun inner => tourOther setting guide inverse inner within := by
  cases inverse with
  | none => simp only [tourNode, tourOther]
  | some nodes => simp only [tourNode, tourOther]

theorem tourNode_helperBlock (name : String) (params : List Param) (named : Table Param)
    (body : List Node) (inverse : Option (List Node)) (scopes : Scopes) (within : List String) :
    tourNode setting guide (.helperBlock name params named body inverse) scopes within =
      (setting.helperPlan name params named true false scopes).tour
        (fun inner => tourNodes setting guide body inner within)
        fun inner => tourOther setting guide inverse inner within := by
  cases inverse with
  | none => simp only [tourNode, tourOther]
  | some nodes => simp only [tourNode, tourOther]

/-- One level of the recursion: the steps of tours are renders where those of the guide are. -/
theorem tourNodes_step
    (h : ∀ nodes scopes within, (guide nodes scopes within).step = expand nodes scopes)
    (nodes : List Node) : ∀ scopes within,
      (tourNodes setting guide nodes scopes within).step =
        renderNodes setting expand nodes scopes := by
  induction nodes using Node.induction with
  | nil =>
    intro scopes within
    rw [tourNodes, renderNodes]
    rfl
  | cons n rest ihbody ihrest =>
    intro scopes within
    have hnode : (tourNode setting guide n scopes within).step =
        renderNode setting expand n scopes := by
      cases n with
      | text s =>
        rw [tourNode, renderNode]
        rfl
      | lookup path escape =>
        rw [tourNode, renderNode]
        cases scopes.lookup setting.chain path with
        | none => rfl
        | some v => rfl
      | block k param body inverse =>
        have hbody := ihbody body (by simp [Node.bodies])
        have hother := tourOther_step fun other hmem => ihbody other (List.mem_cons_of_mem body hmem)
        rw [tourNode_block, renderNode_block_eq_run, Plan.tour_step]
        simp only [hbody, hother]
      | helperBlock name params named body inverse =>
        have hbody := ihbody body (by simp [Node.bodies])
        have hother := tourOther_step fun other hmem => ihbody other (List.mem_cons_of_mem body hmem)
        rw [tourNode_helperBlock, renderNode_helperBlock_eq_run, Plan.tour_step]
        simp only [hbody, hother]
      | call name params named escape =>
        rw [tourNode, renderNode_call_eq_run, Plan.tour_step]
        rfl
      | inclusion name context =>
        rw [tourNode, renderNode]
        simp only [Setting.tourInclude, h]
      | region name body =>
        rw [tourNode, renderNode]
        funext p
        simp only [Tour.choose]
        cases p.overrides.get? name with
        | some replacement => exact congrFun (h replacement scopes within) p
        | none => exact congrFun (ihbody body (by simp [Node.bodies]) scopes within) p
      | override name body =>
        rw [tourNode, renderNode]
        rfl
    rw [tourNodes, renderNodes, Tour.bind_step]
    simp only [Tour.visiting, hnode, Tour.bind_step, ihrest]
    rfl

/-- The step of a tour is the render. -/
theorem tour_step (setting : Setting) (budget : Nat) (nodes : List Node) (scopes : Scopes)
    (within : List String) :
    (setting.tour budget nodes scopes within).step = setting.expand budget nodes scopes := by
  induction budget generalizing nodes scopes within with
  | zero => rfl
  | succ budget ih => exact tourNodes_step ih nodes scopes within

end

/-! ## One induction for all tours -/

/-- Whether a node changes the progress by itself, and not only by the bodies that it renders. -/
def Node.changesProgress : Node → Bool
  | .inclusion .. | .override .. => true
  | .text .. | .lookup .. | .block .. | .helperBlock .. | .call .. | .region .. => false

/-- Each way of building the tour of a node keeps a property that tours may have at a place: in
scopes, and inside of open includes. -/
structure Tour.Rules (setting : Setting) (guide : Guide)
    (P : Scopes → List String → Tour String → Prop) : Prop where
  done : ∀ {scopes within} r, P scopes within (.still fun p => some (r, p))
  seq : ∀ {scopes within t f}, P scopes within t → (∀ r, P scopes within (f r)) →
    P scopes within (.seq t f)
  choose : ∀ {scopes within f}, (∀ p, P scopes within (f p)) → P scopes within (.choose f)
  visiting : ∀ {scopes within t n}, n.changesProgress = false → P scopes within t →
    P scopes within (.visiting within n scopes t)
  block : ∀ {scopes within other} k param body inverse,
    (∀ inner, P inner within (tourNodes setting guide body inner within)) →
    (∀ inner, P inner within (other inner)) →
    P scopes within (.visiting within (.block k param body inverse) scopes
      ((setting.blockPlan k param scopes).tour
        (fun inner => tourNodes setting guide body inner within) other))
  helper : ∀ {scopes within body other} name params named isBlock escape,
    (∀ inner, P inner within (body inner)) → (∀ inner, P inner within (other inner)) →
    P scopes within ((setting.helperPlan name params named isBlock escape scopes).tour body other)
  inclusion : ∀ {scopes within} name context,
    (∀ nodes inner within, P inner within (guide nodes inner within)) →
    P scopes within (.visiting within (.inclusion name context) scopes
      (setting.tourInclude guide name context scopes within))
  override : ∀ {scopes within} name body,
    P scopes within (.visiting within (.override name body) scopes
      (tourNode setting guide (.override name body) scopes within))

section

variable {setting : Setting} {guide : Guide} {P : Scopes → List String → Tour String → Prop}

theorem Tour.Rules.bind (h : Tour.Rules setting guide P) {scopes : Scopes} {within : List String}
    {t : Tour String} {f : String → Tour String} (ht : P scopes within t)
    (hf : ∀ s, P scopes within (f s)) : P scopes within (.bind t f) := by
  refine h.seq ht fun r => ?_
  cases r with
  | ok s => exact hf s
  | error e => exact h.done (.error e)

/-- One level of the recursion: tours of nodes have the property if those of the guide have. -/
theorem tourNodes_of_rules (h : Tour.Rules setting guide P)
    (hguide : ∀ nodes scopes within, P scopes within (guide nodes scopes within))
    (nodes : List Node) : ∀ scopes within,
      P scopes within (tourNodes setting guide nodes scopes within) := by
  induction nodes using Node.induction with
  | nil =>
    intro scopes within
    rw [tourNodes]
    exact h.done (.ok "")
  | cons n rest ihbody ihrest =>
    intro scopes within
    have hother : ∀ (body : List Node) (inverse : Option (List Node)),
        (∀ ns ∈ body :: inverse.toList, ns ∈ n.bodies) → ∀ inner,
          P inner within (tourOther setting guide inverse inner within) := by
      intro body inverse hmem inner
      cases inverse with
      | none => exact h.done (.ok "")
      | some other => exact ihbody other (hmem other (by simp)) inner within
    have hnode : P scopes within
        (.visiting within n scopes (tourNode setting guide n scopes within)) := by
      cases n with
      | text s =>
        rw [tourNode]
        exact h.visiting rfl (h.done (.ok s))
      | lookup path escape =>
        rw [tourNode]
        exact h.visiting rfl (h.done (.ok _))
      | block k param body inverse =>
        rw [tourNode_block]
        refine h.block k param body inverse (fun inner => ?_) ?_
        · exact ihbody body (by simp [Node.bodies]) inner within
        · exact hother body inverse (by simp [Node.bodies])
      | helperBlock name params named body inverse =>
        rw [tourNode_helperBlock]
        refine h.visiting rfl (h.helper name params named true false (fun inner => ?_) ?_)
        · exact ihbody body (by simp [Node.bodies]) inner within
        · exact hother body inverse (by simp [Node.bodies])
      | call name params named escape =>
        rw [tourNode]
        refine h.visiting rfl (h.helper name params named false escape ?_ ?_)
        · exact fun _ => h.done (.ok "")
        · exact fun _ => h.done (.ok "")
      | inclusion name context =>
        rw [tourNode]
        exact h.inclusion name context hguide
      | region name body =>
        rw [tourNode]
        refine h.visiting rfl (h.choose fun p => ?_)
        -- The nodes of an override are no part of the region: it is the guide that tours them.
        split
        next replacement _ => exact hguide replacement scopes within
        next => exact ihbody body (by simp [Node.bodies]) scopes within
      | override name body => exact h.override name body
    rw [tourNodes]
    exact h.bind hnode fun s => h.bind (ihrest scopes within) fun t => h.done (.ok (s ++ t))

/-- All levels: the tour of every render has the property. -/
theorem tour_of_rules (h : ∀ budget, Tour.Rules setting (setting.tour budget) P)
    (hendless : ∀ scopes within, P scopes within (.still fun _ => none)) (budget : Nat)
    (nodes : List Node) (scopes : Scopes) (within : List String) :
    P scopes within (setting.tour budget nodes scopes within) := by
  induction budget generalizing nodes scopes within with
  | zero => exact hendless scopes within
  | succ budget ih => exact tourNodes_of_rules (h budget) ih nodes scopes within

end

end Stencil
