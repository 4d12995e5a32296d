import Stencil.Proofs.Steps

/-!
# What a node has rendered

A block of the language and a block that a helper fills do the same kind of thing: they have
their bodies rendered, in some order and in scopes of their own, are told the text or the fault
of each, and end with a text or a fault. This is a `Plan`. A plan does not look at the bodies
themselves, so nodes that differ only in their bodies have one plan:

> `renderNode_block_eq_run`, `renderNode_helperBlock_eq_run`, `renderNode_call_eq_run`: what the
> nodes with bodies render is their plan, run with the rendering of the bodies.

Whatever is to be shown of the rendering of such nodes is shown once, by induction over plans.
Includes, regions and overrides have no plan; they are the places where a render looks at its
progress.
-/

namespace Stencil

/-! ## A block and its second body -/

/-- Renders the second body of a block, where there is one. -/
def renderOther (setting : Setting) (expand : Expand) (inverse : Option (List Node))
    (scopes : Scopes) : Step String :=
  match inverse with
  | some nodes => renderNodes setting expand nodes scopes
  | none => Step.pure ""

theorem renderNode_block (setting : Setting) (expand : Expand) (k : Keyword) (param : Param)
    (body : List Node) (inverse : Option (List Node)) (scopes : Scopes) :
    renderNode setting expand (.block k param body inverse) scopes =
      setting.runBlock k param scopes (renderNodes setting expand body)
        (renderOther setting expand inverse scopes) := by
  cases inverse with
  | none =>
    rw [renderNode]
    rfl
  | some nodes =>
    rw [renderNode]
    rfl

/-- A helper's bodies are rendered one level further in, each against its own subject. -/
theorem renderNode_helperBlock (setting : Setting) (expand : Expand) (name : String)
    (params : List Param) (named : Table Param) (body : List Node) (inverse : Option (List Node))
    (scopes : Scopes) :
    renderNode setting expand (.helperBlock name params named body inverse) scopes =
      Step.bind
        (setting.runHelper scopes name params named true
          (fun subject => renderNodes setting expand body (scopes.push (.of subject)))
          (renderOther setting expand inverse (scopes.push (.of scopes.subject))))
        fun v => Step.pure (emit v false) := by
  cases inverse with
  | none =>
    rw [renderNode]
    rfl
  | some nodes =>
    rw [renderNode]
    rfl

/-! ## Plans -/

/-- What a node does before it has a text: it has bodies rendered in scopes, and goes on with the
text or the fault of each. -/
inductive Plan where
  /-- The text of the node, or its fault. -/
  | done (result : Except Fault String)
  /-- Has the main body rendered. -/
  | body (scopes : Scopes) (resume : Except Fault String → Plan)
  /-- Has the second body rendered. -/
  | other (scopes : Scopes) (resume : Except Fault String → Plan)

namespace Plan

/-- Goes on with a text and passes a fault on. -/
def onText (next : String → Plan) : Except Fault String → Plan
  | .ok s => next s
  | .error e => .done (.error e)

/-- The main body in one scope after another, and then what the texts in a row are good for. -/
def row (finish : String → Plan) : List Scopes → Plan
  | [] => finish ""
  | scopes :: rest => .body scopes (onText fun s => row (fun t => finish (s ++ t)) rest)

/-- What a helper does, as a plan: its bodies are rendered one level further in, and the value it
answers with is printed. -/
def ofScript (scopes : Scopes) (escape : Bool) : Script → Plan
  | .done result => .done (result.map fun v => emit v escape)
  | .body subject resume =>
    .body (scopes.push (.of subject)) fun r => ofScript scopes escape (resume r)
  | .inverse resume =>
    .other (scopes.push (.of scopes.subject)) fun r => ofScript scopes escape (resume r)

/-- Carries a plan out, given how its bodies are rendered. -/
def run (body other : Scopes → Step String) : Plan → Step String
  | .done result => fun p => some (result, p)
  | .body scopes resume => Step.seq (body scopes) fun r => (resume r).run body other
  | .other scopes resume => Step.seq (other scopes) fun r => (resume r).run body other

variable (body other : Scopes → Step String)

theorem run_onText (next : String → Plan) (r : Except Fault String) :
    (onText next r).run body other = Step.onResult (fun s => (next s).run body other) r := by
  cases r with
  | ok s => rfl
  | error e => rfl

theorem run_row (finish : String → Plan) (inner : List Scopes) :
    (row finish inner).run body other =
      Step.bind (Step.concat body inner) fun s => (finish s).run body other := by
  induction inner generalizing finish with
  | nil => rfl
  | cons scopes rest ih =>
    simp only [row, run, run_onText, ih, Step.concat, Step.bind_assoc, Step.pure_bind]
    exact (Step.bind_eq_seq ..).symm

theorem run_ofScript (scopes : Scopes) (escape : Bool) (script : Script) :
    (ofScript scopes escape script).run body other =
      Step.bind
        (script.run (fun subject => body (scopes.push (.of subject)))
          (other (scopes.push (.of scopes.subject))))
        fun v => Step.pure (emit v escape) := by
  induction script with
  | done result =>
    cases result with
    | ok v => rfl
    | error e => rfl
  | body subject resume ih =>
    simp only [ofScript, run, ih, Step.run_body, Step.seq_bind]
  | inverse resume ih =>
    simp only [ofScript, run, ih, Step.run_inverse, Step.seq_bind]

end Plan

namespace Setting

/-- The scopes in which a block of the language renders its main body; without any it renders the
second one. -/
def innerScopes (setting : Setting) (k : Keyword) (param : Param) (scopes : Scopes) :
    List Scopes :=
  let value := scopes.eval setting.chain param
  match k with
  | .whenTrue => if (value.getD .null).truthy then [scopes.push (.of scopes.subject)] else []
  | .whenFalse => if (value.getD .null).truthy then [] else [scopes.push (.of scopes.subject)]
  | .within => (value.map fun v => scopes.push (.of v)).toList
  | .each => (iterations value).map scopes.push

/-- The plan of a block of the language. -/
def blockPlan (setting : Setting) (k : Keyword) (param : Param) (scopes : Scopes) : Plan :=
  match setting.innerScopes k param scopes with
  | [] => .other scopes .done
  | inner => .row (fun s => .done (.ok s)) inner

/-- The plan of a call of a helper. -/
def helperPlan (setting : Setting) (name : String) (params : List Param) (named : Table Param)
    (isBlock escape : Bool) (scopes : Scopes) : Plan :=
  match setting.helpers.get? name with
  | none => .done (.error (.unknownHelper name))
  | some helper =>
    .ofScript scopes escape (helper (setting.call scopes name params named isBlock))

end Setting

/-- A step in a row of one is that step. -/
theorem Step.concat_singleton {β : Type} (f : β → Step String) (x : β) :
    Step.concat f [x] = f x := by
  simp only [Step.concat, Step.pure_bind, String.append_empty]
  exact Step.bind_pure (f x)

theorem Step.concat_map {β γ : Type} (f : γ → Step String) (g : β → γ) (xs : List β) :
    Step.concat f (xs.map g) = Step.concat (fun x => f (g x)) xs := by
  induction xs with
  | nil => rfl
  | cons x rest ih => simp only [List.map_cons, Step.concat, ih]

section

variable (setting : Setting) (body other : Scopes → Step String)

theorem runBlock_eq_concat (k : Keyword) (param : Param) (scopes : Scopes) (s : Step String) :
    setting.runBlock k param scopes body s =
      match setting.innerScopes k param scopes with
      | [] => s
      | inner => Step.concat body inner := by
  unfold Setting.runBlock Setting.innerScopes
  cases k with
  | whenTrue =>
    dsimp only
    split
    next => exact (Step.concat_singleton ..).symm
    next => rfl
  | whenFalse =>
    dsimp only
    split
    next => rfl
    next => exact (Step.concat_singleton ..).symm
  | within =>
    dsimp only
    cases scopes.eval setting.chain param with
    | none => rfl
    | some v => exact (Step.concat_singleton ..).symm
  | each =>
    dsimp only
    cases iterations (scopes.eval setting.chain param) with
    | nil => rfl
    | cons first rest => exact (Step.concat_map ..).symm

theorem run_blockPlan (k : Keyword) (param : Param) (scopes : Scopes) :
    (setting.blockPlan k param scopes).run body other =
      setting.runBlock k param scopes body (other scopes) := by
  rw [runBlock_eq_concat]
  unfold Setting.blockPlan
  cases setting.innerScopes k param scopes with
  | nil => exact Step.seq_done _
  | cons first rest =>
    rw [Plan.run_row]
    exact Step.bind_pure _

theorem run_helperPlan (name : String) (params : List Param) (named : Table Param)
    (isBlock escape : Bool) (scopes : Scopes) :
    (setting.helperPlan name params named isBlock escape scopes).run body other =
      Step.bind
        (setting.runHelper scopes name params named isBlock
          (fun subject => body (scopes.push (.of subject)))
          (other (scopes.push (.of scopes.subject))))
        fun v => Step.pure (emit v escape) := by
  unfold Setting.helperPlan Setting.runHelper
  cases setting.helpers.get? name with
  | none => rfl
  | some helper => exact Plan.run_ofScript ..

end

/-! ## Nodes with bodies -/

section

variable (setting : Setting) (expand : Expand)

theorem renderNode_block_eq_run (k : Keyword) (param : Param) (body : List Node)
    (inverse : Option (List Node)) (scopes : Scopes) :
    renderNode setting expand (.block k param body inverse) scopes =
      (setting.blockPlan k param scopes).run (renderNodes setting expand body)
        (renderOther setting expand inverse) := by
  rw [renderNode_block, run_blockPlan]

theorem renderNode_helperBlock_eq_run (name : String) (params : List Param) (named : Table Param)
    (body : List Node) (inverse : Option (List Node)) (scopes : Scopes) :
    renderNode setting expand (.helperBlock name params named body inverse) scopes =
      (setting.helperPlan name params named true false scopes).run (renderNodes setting expand body)
        (renderOther setting expand inverse) := by
  rw [renderNode_helperBlock, run_helperPlan]

theorem renderNode_call_eq_run (name : String) (params : List Param) (named : Table Param)
    (escape : Bool) (scopes : Scopes) :
    renderNode setting expand (.call name params named escape) scopes =
      (setting.helperPlan name params named false escape scopes).run (fun _ => Step.pure "")
        (fun _ => Step.pure "") := by
  rw [renderNode, run_helperPlan]

/-! ## Lists of nodes in a row -/

theorem renderNodes_append (a b : List Node) (scopes : Scopes) :
    renderNodes setting expand (a ++ b) scopes =
      Step.bind (renderNodes setting expand a scopes) fun s =>
        Step.bind (renderNodes setting expand b scopes) fun t => Step.pure (s ++ t) := by
  induction a with
  | nil =>
    simp only [List.nil_append, renderNodes, Step.pure_bind, String.empty_append]
    exact (Step.bind_pure _).symm
  | cons n rest ih =>
    simp only [List.cons_append, renderNodes, ih, Step.bind_assoc, Step.pure_bind,
      String.append_assoc]

theorem renderNodes_singleton (n : Node) (scopes : Scopes) :
    renderNodes setting expand [n] scopes = renderNode setting expand n scopes := by
  simp only [renderNodes, Step.pure_bind, String.append_empty]
  exact Step.bind_pure _

end

end Stencil
