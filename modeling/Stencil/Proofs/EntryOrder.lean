import Stencil.Engine
import Stencil.Proofs.BlindSettings
import Stencil.Proofs.OrderBlindHelpers
import Stencil.Proofs.Plans
import Stencil.Proofs.Includes
import Stencil.Proofs.RespelledTags
import Stencil.Proofs.RenderRules
import Mathlib

/-!
# The order of entries is not seen

Two renders whose models differ in the order of map entries, and whose templates differ in the
order of named arguments, run side by side. Everywhere they print the same text or fail with the
same fault, and their progress stays the same up to such orders (`Progress.Rearranged`):

> `renderNodes_rearranged`: one level of the recursion, by induction over the two templates;
> `expand_rearranged`: all levels;
> `Engine.renders_eq_of_rearranged`: the renders as a whole, from the texts of the templates.

What helpers and resolvers of a user's own do with the values that they are given is theirs to
answer for (`Helper.OrderBlind`, `Resolver.OrderBlind`).
-/

namespace Stencil

open Step (Agree)

/-! ## Settings and calls -/

/-- Two settings with the same helpers and resolvers, none of which sees the order of entries. -/
structure Setting.Matched (S T : Setting) : Prop where
  helpers : S.helpers = T.helpers
  chain : S.chain = T.chain
  blindHelpers : ∀ name helper, S.helpers.get? name = some helper → helper.OrderBlind
  blindResolvers : ∀ r ∈ S.chain, r.OrderBlind

namespace Setting.Matched

variable {S T : Setting} (h : S.Matched T)

include h

section

variable {s t : Scopes} (hscopes : s.Rearranged t)

include hscopes

theorem lookup (path : Path) :
    Option.Rel Value.Rearranged (s.lookup S.chain path) (t.lookup T.chain path) := by
  rw [← h.chain]
  exact hscopes.lookup h.blindResolvers path

theorem eval (param : Param) :
    Option.Rel Value.Rearranged (s.eval S.chain param) (t.eval T.chain param) := by
  rw [← h.chain]
  exact hscopes.eval h.blindResolvers param

theorem evalOrNull (param : Param) :
    (s.evalOrNull S.chain param).Rearranged (t.evalOrNull T.chain param) := by
  rw [← h.chain]
  exact hscopes.evalOrNull h.blindResolvers param

theorem call (name : String) (params : List Param) {named named' : Table Param}
    (hnamed : SameNamed named named') (isBlock : Bool) :
    (S.call s name params named isBlock).Rearranged (T.call t name params named' isBlock) where
  name := rfl
  params := by
    refine List.forall₂_map_left_iff.2 (List.forall₂_map_right_iff.2 ?_)
    exact List.forall₂_same.2 fun param _ => h.evalOrNull hscopes param
  named := by
    refine hnamed.mapValues ?_
    rintro param _ rfl
    exact h.evalOrNull hscopes param
  isBlock := rfl
  context := hscopes.current.subject
  lookup path := rel_bind_same _ fun path => h.lookup hscopes path

theorem scopesWithin (context : Option Param) :
    (S.scopesWithin context s).Rearranged (T.scopesWithin context t) := by
  cases context with
  | none => exact hscopes
  | some param => exact hscopes.push (Scope.rearranged_of (h.evalOrNull hscopes param))

/-- A block renders its main body in scopes that correspond one by one. -/
theorem innerScopes (k : Keyword) (param : Param) :
    List.Forall₂ Scopes.Rearranged (S.innerScopes k param s) (T.innerScopes k param t) := by
  have hvalue := h.eval hscopes param
  exact Setting.innerScopes_related (V := Value.Rearranged) (I := Scope.Rearranged) hscopes.push
    Scope.rearranged_of (fun hv => hv.truthy) hscopes.current.subject k hvalue
    (iterations_rearranged hvalue)

end

end Setting.Matched

/-! ## Plans -/

/-- Two plans that have their bodies rendered in scopes that are the same up to the order of
entries, and that end alike. -/
inductive Plan.Rearranged : Plan → Plan → Prop where
  | done (result : Except Fault String) : Rearranged (.done result) (.done result)
  | body {s t : Scopes} {resume resume' : Except Fault String → Plan} (h : s.Rearranged t)
      (hresume : ∀ r, Rearranged (resume r) (resume' r)) :
      Rearranged (.body s resume) (.body t resume')
  | other {s t : Scopes} {resume resume' : Except Fault String → Plan} (h : s.Rearranged t)
      (hresume : ∀ r, Rearranged (resume r) (resume' r)) :
      Rearranged (.other s resume) (.other t resume')

namespace Plan

theorem onText_rearranged {next next' : String → Plan}
    (h : ∀ s, (next s).Rearranged (next' s)) (r : Except Fault String) :
    (onText next r).Rearranged (onText next' r) := by
  cases r with
  | ok s => exact h s
  | error e => exact .done (.error e)

theorem row_rearranged {inner inner' : List Scopes}
    (h : List.Forall₂ Scopes.Rearranged inner inner') {finish finish' : String → Plan}
    (hfinish : ∀ s, (finish s).Rearranged (finish' s)) :
    (row finish inner).Rearranged (row finish' inner') := by
  induction h generalizing finish finish' with
  | nil => exact hfinish ""
  | cons hscopes _ ih =>
    exact .body hscopes (onText_rearranged fun s => ih fun t => hfinish (s ++ t))

theorem ofScript_rearranged {s t : Scopes} (hscopes : s.Rearranged t) (escape : Bool)
    {script script' : Script} (h : script.Rearranged script') :
    (ofScript s escape script).Rearranged (ofScript t escape script') := by
  induction h with
  | fail e => exact .done (.error e)
  | answer hvalue =>
    -- Here a value becomes text, and from here on the two sides are equal.
    rw [ofScript, ofScript, Except.map, Except.map, emit_rearranged hvalue]
    exact .done _
  | body hvalue _ ih => exact .body (hscopes.push (Scope.rearranged_of hvalue)) ih
  | inverse _ ih => exact .other (hscopes.push (Scope.rearranged_of hscopes.current.subject)) ih

/-- Two such plans are carried out alike where their bodies are rendered alike. -/
theorem Rearranged.run {R : Progress → Progress → Prop} {plan plan' : Plan}
    (h : plan.Rearranged plan') {body body' other other' : Scopes → Step String}
    (hbody : ∀ s t, s.Rearranged t → Agree R (body s) (body' t))
    (hother : ∀ s t, s.Rearranged t → Agree R (other s) (other' t)) :
    Agree R (plan.run body other) (plan'.run body' other') := by
  induction h with
  | done result => exact Step.agree_done result
  | body hscopes _ ih => exact Step.agree_seq (hbody _ _ hscopes) ih
  | other hscopes _ ih => exact Step.agree_seq (hother _ _ hscopes) ih

end Plan

namespace Setting.Matched

variable {S T : Setting} (h : S.Matched T) {s t : Scopes} (hscopes : s.Rearranged t)

include h hscopes

theorem blockPlan (k : Keyword) (param : Param) :
    (S.blockPlan k param s).Rearranged (T.blockPlan k param t) := by
  have hinner := h.innerScopes hscopes k param
  unfold Setting.blockPlan
  generalize S.innerScopes k param s = inner at hinner ⊢
  generalize T.innerScopes k param t = inner' at hinner ⊢
  cases hinner with
  | nil => exact .other hscopes fun r => .done r
  | cons hfirst hrest => exact Plan.row_rearranged (.cons hfirst hrest) fun s => .done (.ok s)

theorem helperPlan (name : String) (params : List Param) {named named' : Table Param}
    (hnamed : SameNamed named named') (isBlock escape : Bool) :
    (S.helperPlan name params named isBlock escape s).Rearranged
      (T.helperPlan name params named' isBlock escape t) := by
  unfold Setting.helperPlan
  rw [← h.helpers]
  cases hhelper : S.helpers.get? name with
  | none => exact .done _
  | some helper =>
    have hcall := h.call hscopes name params hnamed isBlock
    exact Plan.ofScript_rearranged hscopes escape (h.blindHelpers name helper hhelper _ _ hcall)

end Setting.Matched

/-! ## Progress -/

/-- Two answers for the nodes of a template: the same fault, or nodes that are alike. -/
inductive LikeAnswers : Except Fault (List Node) → Except Fault (List Node) → Prop where
  | missing (e : Fault) : LikeAnswers (.error e) (.error e)
  | found {ns ms : List Node} (h : Node.Like SameNamed ns ms) : LikeAnswers (.ok ns) (.ok ms)

/-- Progress that is the same up to the order of named arguments: in the overrides, and in the
templates that the shelf has or can get. -/
structure Progress.Rearranged (S T : Setting) (p q : Progress) : Prop where
  overrides : ∀ name,
    Option.Rel (Node.Like SameNamed) (p.overrides.get? name) (q.overrides.get? name)
  openIncludes : p.openIncludes = q.openIncludes
  answers : ∀ name, LikeAnswers (p.shelf.answer S.source name) (q.shelf.answer T.source name)

namespace Progress.Rearranged

variable {S T : Setting} {p q : Progress} (h : p.Rearranged S T q)

include h

theorem withOpen (count : Nat) : (p.withOpen count).Rearranged S T (q.withOpen count) :=
  ⟨h.overrides, rfl, h.answers⟩

theorem asking (name : String) : (p.asking S name).Rearranged S T (q.asking T name) := by
  refine ⟨h.overrides, h.openIncludes, fun other => ?_⟩
  show LikeAnswers ((p.shelf.load S.source S.keeps name).2.answer S.source other)
    ((q.shelf.load T.source T.keeps name).2.answer T.source other)
  rw [Shelf.answer_load, Shelf.answer_load]
  exact h.answers other

theorem override (name : String) {ns ms : List Node} (hlike : Node.Like SameNamed ns ms) :
    Progress.Rearranged S T { p with overrides := p.overrides.insert name ns }
      { q with overrides := q.overrides.insert name ms } := by
  refine ⟨fun other => ?_, h.openIncludes, h.answers⟩
  dsimp only
  rw [Table.get?_insert, Table.get?_insert]
  split
  next => exact .some hlike
  next => exact h.overrides other

end Progress.Rearranged

/-! ## Rendering -/

section

variable {S T : Setting} (h : S.Matched T) {E F : Expand}
  (hexpand : ∀ ns ms s t, Node.Like SameNamed ns ms → s.Rearranged t →
    Agree (Progress.Rearranged S T) (E ns s) (F ms t))

include h

section

include hexpand

/-- Includes go the same of their three ways. -/
theorem runInclude_rearranged (name : String) (context : Option Param) {s t : Scopes}
    (hscopes : s.Rearranged t) :
    Agree (Progress.Rearranged S T) (S.runInclude E name context s)
      (T.runInclude F name context t) := by
  intro p q hpq
  have hopen := hpq.openIncludes
  rcases Nat.lt_or_ge p.openIncludes Fault.includeLimit with hlimit | hlimit
  · have hlimit' := hopen ▸ hlimit
    have hanswers := hpq.answers name
    generalize hanswer : p.shelf.answer S.source name = x at hanswers
    generalize hanswer' : q.shelf.answer T.source name = y at hanswers
    cases hanswers with
    | missing e =>
      rw [runInclude_missing _ _ _ hlimit hanswer, runInclude_missing _ _ _ hlimit' hanswer']
      exact .ended (hpq.asking name)
    | @found ns ms hlike =>
      rw [runInclude_found _ _ _ hlimit hanswer, runInclude_found _ _ _ hlimit' hanswer', hopen]
      have hnodes := hexpand ns ms _ _ hlike (h.scopesWithin hscopes context)
      refine Step.agree_seq hnodes (fun r => ?_) _ _ ((hpq.asking name).withOpen _)
      exact fun p q hpq => .ended (hpq.withOpen _)
  · rw [runInclude_refused _ _ _ hlimit, runInclude_refused _ _ _ (hopen ▸ hlimit)]
    exact .ended hpq

/-- Nodes without bodies that are no calls. -/
theorem renderNode_leaf_rearranged {n : Node} (hn : n.bodies = [])
    (hcall : ∀ name params named escape, n ≠ .call name params named escape) {s t : Scopes}
    (hscopes : s.Rearranged t) :
    Agree (Progress.Rearranged S T) (renderNode S E n s) (renderNode T F n t) := by
  cases n with
  | text s =>
    rw [renderNode, renderNode]
    exact Step.agree_pure s
  | lookup path escape =>
    rw [renderNode, renderNode]
    have hvalue := h.lookup hscopes path
    generalize s.lookup S.chain path = x at hvalue ⊢
    generalize t.lookup T.chain path = y at hvalue ⊢
    cases hvalue with
    | none => exact Step.agree_pure ""
    | some hvalue =>
      dsimp only
      rw [emit_rearranged hvalue]
      exact Step.agree_pure _
  | inclusion name context =>
    rw [renderNode_inclusion, renderNode_inclusion]
    exact runInclude_rearranged h hexpand name context hscopes
  | call name params named escape => exact absurd rfl (hcall name params named escape)
  | block k param body inverse => cases hn
  | helperBlock name params named body inverse => cases hn
  | region name body => cases hn
  | override name body => cases hn

/-- Blocks with alike bodies that are rendered alike. -/
theorem renderNode_block_rearranged {o o' : Opening} (ho : o.Like SameNamed o')
    {body body' : List Node} (hlike : Node.Like SameNamed body body')
    (hbody : ∀ s t, s.Rearranged t →
      Agree (Progress.Rearranged S T) (renderNodes S E body s) (renderNodes T F body' t))
    {inverse inverse' : Option (List Node)}
    (hinverse : Option.Rel (fun ns ms => ∀ s t, s.Rearranged t →
      Agree (Progress.Rearranged S T) (renderNodes S E ns s) (renderNodes T F ms t))
      inverse inverse')
    {s t : Scopes} (hscopes : s.Rearranged t) :
    Agree (Progress.Rearranged S T) (renderNode S E (o.node body inverse) s)
      (renderNode T F (o'.node body' inverse') t) := by
  have hother : ∀ s t, s.Rearranged t →
      Agree (Progress.Rearranged S T) (renderOther S E inverse s) (renderOther T F inverse' t) := by
    intro s t hscopes
    cases hinverse with
    | none => exact Step.agree_pure ""
    | some hnodes => exact hnodes s t hscopes
  cases ho with
  | keyword k param =>
    rw [Opening.node, Opening.node, renderNode_block_eq_run, renderNode_block_eq_run]
    exact (h.blockPlan hscopes k param).run hbody hother
  | helper name params hnamed =>
    rw [Opening.node, Opening.node, renderNode_helperBlock_eq_run, renderNode_helperBlock_eq_run]
    exact (h.helperPlan hscopes name params hnamed true false).run hbody hother
  | region name =>
    -- A region is replaced on both sides or on neither; the replacements are alike, but they are
    -- no part of the nodes at hand, so `hexpand` has to speak for them.
    intro p q hpq
    rw [Opening.node, Opening.node, renderNode, renderNode]
    have hreplacement := hpq.overrides name
    dsimp only
    generalize p.overrides.get? name = x at hreplacement ⊢
    generalize q.overrides.get? name = y at hreplacement ⊢
    cases hreplacement with
    | none => exact hbody s t hscopes p q hpq
    | some hlike => exact hexpand _ _ s t hlike hscopes p q hpq
  | override name =>
    intro p q hpq
    rw [Opening.node, Opening.node, renderNode, renderNode]
    exact .ended (hpq.override name hlike)

/-- **One level of the recursion**, by induction over the two templates. -/
theorem renderNodes_rearranged {ns ms : List Node} (hlike : Node.Like SameNamed ns ms) :
    ∀ s t, s.Rearranged t →
      Agree (Progress.Rearranged S T) (renderNodes S E ns s) (renderNodes T F ms t) := by
  -- The texts of two nodes in a row, where the first nodes are rendered alike.
  have hrow : ∀ {n m ns ms s t},
      Agree (Progress.Rearranged S T) (renderNode S E n s) (renderNode T F m t) →
      Agree (Progress.Rearranged S T) (renderNodes S E ns s) (renderNodes T F ms t) →
      Agree (Progress.Rearranged S T) (renderNodes S E (n :: ns) s)
        (renderNodes T F (m :: ms) t) := by
    intro n m ns ms s t hnode hrest
    rw [renderNodes, renderNodes]
    exact Step.agree_bind hnode fun a => Step.agree_bind hrest fun b => Step.agree_pure (a ++ b)
  induction hlike with
  | nil =>
    intro s t _
    rw [renderNodes, renderNodes]
    exact Step.agree_pure ""
  | leaf hn hcall _ ih =>
    intro s t hscopes
    exact hrow (renderNode_leaf_rearranged h hexpand hn hcall hscopes) (ih s t hscopes)
  | call name params escape hnamed _ ih =>
    intro s t hscopes
    refine hrow ?_ (ih s t hscopes)
    rw [renderNode_call_eq_run, renderNode_call_eq_run]
    exact (h.helperPlan hscopes name params hnamed false escape).run
      (fun _ _ _ => Step.agree_pure "") fun _ _ _ => Step.agree_pure ""
  | block ho hbody _ ihbody ih =>
    intro s t hscopes
    refine hrow ?_ (ih s t hscopes)
    exact renderNode_block_rearranged h hexpand ho hbody ihbody .none hscopes
  | blockElse ho hbody _ _ ihbody ihother ih =>
    intro s t hscopes
    refine hrow ?_ (ih s t hscopes)
    exact renderNode_block_rearranged h hexpand ho hbody ihbody (.some ihother) hscopes

end

/-- **All levels of the recursion**, with the same budget. -/
theorem expand_rearranged (budget : Nat) :
    ∀ ns ms s t, Node.Like SameNamed ns ms → s.Rearranged t →
      Agree (Progress.Rearranged S T) (S.expand budget ns s) (T.expand budget ms t) := by
  induction budget with
  | zero => exact fun _ _ _ _ _ _ _ _ _ => .endless
  | succ budget ih =>
    intro ns ms s t hlike hscopes
    exact renderNodes_rearranged h ih hlike s t hscopes

/-- The results of two renders are the same. -/
theorem render_rearranged {ns ms : List Node} (hlike : Node.Like SameNamed ns ms) {s t : Scopes}
    (hscopes : s.Rearranged t) {shelf shelf' : Shelf}
    (hanswers : ∀ name, LikeAnswers (shelf.answer S.source name) (shelf'.answer T.source name)) :
    (S.render ns s shelf).map Prod.fst = (T.render ms t shelf').map Prod.fst := by
  have hstart : Progress.Rearranged S T ⟨[], 0, shelf⟩ ⟨[], 0, shelf'⟩ :=
    ⟨fun _ => .none, rfl, hanswers⟩
  have hends := expand_rearranged h expansionBudget ns ms s t hlike hscopes _ _ hstart
  unfold Setting.render
  generalize S.expand expansionBudget ns s ⟨[], 0, shelf⟩ = x at hends ⊢
  generalize T.expand expansionBudget ms t ⟨[], 0, shelf'⟩ = y at hends ⊢
  cases hends with
  | endless => rfl
  | ended _ => rfl

end

/-! ## Texts, contexts and engines -/

/-- Two texts of a template that differ in the order of named arguments at most. -/
inductive SameButOrder : String → String → Prop where
  | same (text : String) : SameButOrder text text
  | respelled {text text' : String} {ns : List Node} (hreads : parse text = .ok ns)
      (h : Respelled text text') : SameButOrder text text'

theorem SameButOrder.parse {text text' : String} (h : SameButOrder text text') :
    LikeAnswers (parse text) (parse text') := by
  cases h with
  | same =>
    cases hparse : Stencil.parse text with
    | error e => exact .missing e
    | ok ns => exact .found (parse_like_self hparse)
  | respelled hreads h =>
    obtain ⟨ms, hms, hlike⟩ := parse_respelled hreads h
    rw [hreads, hms]
    exact .found hlike

/-- Two answers of sources: the same fault, or texts that are the same but for order. -/
inductive LikeTexts : Except Fault String → Except Fault String → Prop where
  | missing (e : Fault) : LikeTexts (.error e) (.error e)
  | found {text text' : String} (h : SameButOrder text text') :
      LikeTexts (.ok text) (.ok text')

/-- Nodes on two shelves that were read from texts that are the same but for order. -/
def KeptAlike (ns ms : List Node) : Prop :=
  ∃ text text', SameButOrder text text' ∧ parse text = .ok ns ∧ parse text' = .ok ms

/-- Two contexts that are the same up to the order of entries: in the model, and among the extra
values as well as in them. -/
structure Context.Rearranged (c d : Context) : Prop where
  model : c.model.Rearranged d.model
  extras : Table.Rearranged Value.Rearranged (Table.ofWrites c.extras) (Table.ofWrites d.extras)
  chain : c.chain = d.chain

namespace Engine

/-- Two engines with the same helpers whose named templates are the same but for order, in the
source as well as on the shelf. -/
structure Rearranged (e f : Engine) : Prop where
  helpers : e.helpers = f.helpers
  source : Option.Rel (fun read read' => ∀ name, LikeTexts (read name) (read' name)) e.reader
    f.reader
  kept : ∀ name, Option.Rel KeptAlike (e.shelf.kept.get? name) (f.shelf.kept.get? name)

/-- The result of a template at hand: it is compiled from its text and rendered. -/
def renderText (e : Engine) (chain : Chain) (text : String) (c : Context) :
    Option (Except Fault String) :=
  match compileText chain text with
  | .error fault => some (.error fault)
  | .ok t => (e.render t c).map Prod.fst

/-- The result of a named template: it is compiled by its name and rendered. -/
def renderNamed (e : Engine) (chain : Chain) (name : String) (c : Context) :
    Option (Except Fault String) :=
  match e.compile chain name with
  | (.error fault, _) => some (.error fault)
  | (.ok t, e) => (e.render t c).map Prod.fst

end Engine

theorem LikeTexts.parse {x y : Except Fault String} (h : LikeTexts x y) :
    LikeAnswers (x >>= Stencil.parse) (y >>= Stencil.parse) := by
  cases h with
  | missing e => exact .missing e
  | found h => exact h.parse

theorem KeptAlike.like {ns ms : List Node} (h : KeptAlike ns ms) : Node.Like SameNamed ns ms := by
  obtain ⟨text, text', hsame, hns, hms⟩ := h
  have hanswers := hsame.parse
  rw [hns, hms] at hanswers
  cases hanswers with
  | found hlike => exact hlike

theorem foldl_insert_ne_nil {α : Type} {t : Table α} (h : t ≠ []) (writes : List (String × α)) :
    writes.foldl (fun t entry => t.insert entry.1 entry.2) t ≠ [] := by
  induction writes generalizing t with
  | nil => exact h
  | cons w rest ih => exact ih (Table.insert_ne_nil t w.1 w.2)

theorem isEmpty_ofWrites {α : Type} (writes : List (String × α)) :
    (Table.ofWrites writes).isEmpty = writes.isEmpty := by
  cases writes with
  | nil => rfl
  | cons w rest =>
    have hne : Table.ofWrites (w :: rest) ≠ [] := foldl_insert_ne_nil (List.cons_ne_nil _ _) rest
    rw [List.isEmpty_cons, List.isEmpty_eq_false_iff]
    exact hne

theorem Context.Rearranged.scopes {c d : Context} (h : c.Rearranged d) :
    c.scopes.Rearranged d.scopes := by
  have hempty : c.extras.isEmpty = d.extras.isEmpty := by
    rw [← isEmpty_ofWrites c.extras, ← isEmpty_ofWrites d.extras]
    exact Value.isEmpty_of_isSome fun key => isSome_eq_of_rel (h.extras.get? key)
  unfold Context.scopes
  rw [hempty]
  split
  next => exact ⟨Scope.rearranged_of h.model, .nil⟩
  next =>
    refine Scopes.Rearranged.push ?_ (Scope.rearranged_of h.model)
    exact ⟨Scope.rearranged_of (Value.rearranged_of_table h.extras), .nil⟩

namespace Engine

variable {e f : Engine}

theorem Rearranged.answers (h : e.Rearranged f) (name : String) :
    LikeAnswers (e.shelf.answer e.reader name) (f.shelf.answer f.reader name) := by
  have hsource := h.source
  have hkept := h.kept name
  unfold Shelf.answer
  generalize e.reader = x at hsource ⊢
  generalize f.reader = y at hsource ⊢
  cases hsource with
  | none => exact .missing _
  | some hread =>
    dsimp only
    generalize e.shelf.kept.get? name = ns at hkept ⊢
    generalize f.shelf.kept.get? name = ms at hkept ⊢
    cases hkept with
    | none => exact (hread name).parse
    | some hkept => exact .found hkept.like

section

variable {chain : Chain} {c d : Context} (hhelpers : e.helpers = f.helpers)
  (hblind : ∀ name helper, e.helpers.get? name = some helper → helper.OrderBlind)
  (hcontexts : c.Rearranged d)
  (hresolvers : ∀ r ∈ c.chain.getD chain, r ∉ Chain.default → r.OrderBlind)

include hhelpers hblind hcontexts hresolvers

theorem matched :
    (e.setting (c.chain.getD chain)).Matched (f.setting (d.chain.getD chain)) where
  helpers := hhelpers
  chain := by
    show c.chain.getD chain = d.chain.getD chain
    rw [hcontexts.chain]
  blindHelpers := hblind
  blindResolvers r hr := by
    by_cases hdefault : r ∈ Chain.default
    · exact Chain.default_orderBlind r hdefault
    · exact hresolvers r hr hdefault

/-- Templates with alike nodes have the same results. -/
theorem render_fst_eq (name : String) {ns ms : List Node} (hlike : Node.Like SameNamed ns ms)
    (hanswers : ∀ name,
      LikeAnswers (e.shelf.answer e.reader name) (f.shelf.answer f.reader name)) :
    (e.render ⟨name, ns, chain⟩ c).map Prod.fst = (f.render ⟨name, ms, chain⟩ d).map Prod.fst := by
  have hmatched := matched hhelpers hblind hcontexts hresolvers
  have hresults := render_rearranged hmatched hlike hcontexts.scopes hanswers
  unfold Engine.render Context.chainFor
  rw [Option.map_map, Option.map_map]
  exact hresults

end

theorem renderNamed_eq (e : Engine) (chain : Chain) (name : String) (c : Context) :
    e.renderNamed chain name c =
      match e.shelf.answer e.reader name with
      | .error fault => some (.error fault)
      | .ok nodes => ((e.compile chain name).2.render ⟨name, nodes, chain⟩ c).map Prod.fst := by
  have hload : (e.shelf.load e.reader e.keeps name).1 = e.shelf.answer e.reader name :=
    Shelf.load_fst
  unfold renderNamed compile
  rw [← hload]
  generalize e.shelf.load e.reader e.keeps name = loaded
  obtain ⟨_ | _, _⟩ := loaded
  all_goals rfl

/-- Being asked for a template may change what is kept, but no answer. -/
theorem answer_compile (e : Engine) (chain : Chain) (name other : String) :
    (e.compile chain name).2.shelf.answer (e.compile chain name).2.reader other =
      e.shelf.answer e.reader other :=
  Shelf.answer_load other

/-- **The order of entries is not seen.** Take two engines with the same helpers whose named
templates differ at most in the order of the named arguments of their tags, and two contexts that
differ at most in the order of map entries, at any depth, and of extra values. If the helpers do
not see the order of entries, and no resolver does that a user has brought, then every two texts
that differ at most in the order of named arguments have the same result, and so has every named
template. -/
theorem renders_eq_of_rearranged {e f : Engine} (hengines : e.Rearranged f)
    (hblind : ∀ name helper, e.helpers.get? name = some helper → helper.OrderBlind)
    {chain : Chain} {c d : Context} (hcontexts : c.Rearranged d)
    (hresolvers : ∀ r ∈ c.chain.getD chain, r ∉ Chain.default → r.OrderBlind) :
    (∀ text text', SameButOrder text text' →
      e.renderText chain text c = f.renderText chain text' d) ∧
    ∀ name, e.renderNamed chain name c = f.renderNamed chain name d := by
  constructor
  · intro text text' htext
    have hparse := htext.parse
    unfold renderText compileText
    generalize parse text = x at hparse ⊢
    generalize parse text' = y at hparse ⊢
    cases hparse with
    | missing fault => rfl
    | found hlike =>
      exact render_fst_eq hengines.helpers hblind hcontexts hresolvers inlineName
        hlike hengines.answers
  · intro name
    have hanswer := hengines.answers name
    rw [renderNamed_eq, renderNamed_eq]
    generalize e.shelf.answer e.reader name = x at hanswer ⊢
    generalize f.shelf.answer f.reader name = y at hanswer ⊢
    cases hanswer with
    | missing fault => rfl
    | found hlike =>
      have hanswers : ∀ other,
          LikeAnswers
            ((e.compile chain name).2.shelf.answer (e.compile chain name).2.reader other)
            ((f.compile chain name).2.shelf.answer (f.compile chain name).2.reader other) := by
        intro other
        rw [answer_compile, answer_compile]
        exact hengines.answers other
      have hhelpers : (e.compile chain name).2.helpers = (f.compile chain name).2.helpers :=
        hengines.helpers
      exact render_fst_eq hhelpers hblind hcontexts hresolvers name hlike hanswers

/-- The entries of the model and the named arguments, both in the other order. -/
theorem renders_eq_of_rearranged_of_two :
    let e : Engine := { Engine.new none ⟨[], .empty⟩ with helpers := Helper.stock }
    let text := "\x7b\x7b\x7bargs this b=1 a=2\x7d\x7d\x7d"
    let text' := "\x7b\x7b\x7bargs this a=2 b=1\x7d\x7d\x7d"
    let model : Value := .map [("y", .str "1"), ("x", .str "2")]
    let model' : Value := .map [("x", .str "2"), ("y", .str "1")]
    let result : Option (Except Fault String) :=
      some (.ok "args(map:\x7bx=2, y=1\x7d;a=i64:2,b=i64:1)")
    e.renderText .default text (.of model) = result ∧
      e.renderText .default text' (.of model') = result := by
  intro e text text' model model' result
  have hengines : e.Rearranged e := ⟨rfl, .none, fun _ => .none⟩
  have hblind : ∀ name helper, e.helpers.get? name = some helper → helper.OrderBlind :=
    fun name helper h => Helper.stock_orderBlind (name, helper) (Table.mem_of_get? h)
  have hcontexts : (Context.of model).Rearranged (Context.of model') := by
    refine ⟨Value.rearranged_of_table ?_, ?_, rfl⟩
    · exact Table.rearranged_of_perm (by decide) (.swap ..) .refl
    · exact Table.rearranged_of_perm List.nodup_nil (.refl _) .refl
  have hparse : parse text =
      .ok [.call "args" [.path (.this [])] [("b", .literal (.int 1)), ("a", .literal (.int 2))]
        false] := by cbv
  have hkeys : (Table.keys [("b", Param.literal (.int 1)), ("a", .literal (.int 2))]).Nodup := by
    decide
  have hwords := Word.Reordered.of_perm
    [.positional (.path (.named "args" [])), .positional (.path (.this []))] hkeys (.swap _ _ [])
  have hrespelling : Respelling text.toList text'.toList := by
    refine ⟨.expression false, _, _, ?_, ?_, hwords⟩
    · exact ⟨.raw, "args this b=1 a=2".toList, _,
        ⟨"\x7bargs this b=1 a=2\x7d\x7d\x7d".toList, by cbv, by cbv⟩, rfl, by cbv⟩
    · exact ⟨.raw, "args this a=2 b=1".toList, _,
        ⟨"\x7bargs this a=2 b=1\x7d\x7d\x7d".toList, by cbv, by cbv⟩, rfl, by cbv⟩
  have hlaid : Laid [] text.toList [.tag ⟨[], [], text.toList, [],
      .call "args" [.path (.this [])] [("b", .literal (.int 1)), ("a", .literal (.int 2))]
        false⟩] := scan_eq_iff.1 (by cbv)
  have htext : SameButOrder text text' := by
    refine .respelled hparse ⟨_, hlaid, ?_⟩
    have hrespells := Respells.tag ⟨[], [], text.toList, [], .call "args" [.path (.this [])]
      [("b", .literal (.int 1)), ("a", .literal (.int 2))] false⟩ hrespelling .nil
    simpa using hrespells
  have hboth := (renders_eq_of_rearranged hengines hblind hcontexts
    (fun r hr h => absurd hr h)).1 text text' htext
  have hleft : e.renderText .default text (.of model) = result := by
    have hlevels : ∀ budget, (e.setting .default).expand (budget + 1)
        [.call "args" [.path (.this [])] [("b", .literal (.int 1)), ("a", .literal (.int 2))] false]
        (Context.of model).scopes ⟨[], 0, e.shelf⟩ =
          some (.ok "args(map:\x7bx=2, y=1\x7d;a=i64:2,b=i64:1)", ⟨[], 0, .empty⟩) := by
      intro budget
      cbv
    unfold renderText compileText
    rw [hparse]
    show (((e.setting .default).render _ _ _).map _).map _ = result
    rw [render_of_levels 1 (by decide) hlevels]
    rfl
  exact ⟨hleft, hboth.symm.trans hleft⟩

end Engine

end Stencil
