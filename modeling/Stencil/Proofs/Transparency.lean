import Mathlib
import Stencil.Proofs.BlindSettings

/-!
# Scopes that no template can tell apart

A condition opens a scope for its main body and none for its second body. That makes no
difference: the new scope has the subject of the old one and binds nothing. Two stacks of scopes
are alike if they have one subject and answer every name in one way (`Scopes.Alike`). Opening the
same scope inside keeps stacks alike, paths and arguments mean the same in them, and helpers are
told the same, so

> `blind_alike`: no setting tells scopes apart that are alike, so nodes render alike in them.
> `conditions_eq_splice`: a condition is the branch that it selects, put in its place, and
> `unless` is `if` with its branches exchanged.

The statements are equations of steps, so they say the same about text, faults and all of the
progress, whatever it was before.
-/

namespace Stencil

namespace Scopes

/-- Two stacks of scopes with one subject that answer every name in one way. -/
structure Alike (s t : Scopes) : Prop where
  subject : s.subject = t.subject
  bound : ∀ name, lookupBound name s.toList = lookupBound name t.toList
  head : ∀ chain name, lookupHead chain name s.toList = lookupHead chain name t.toList

variable {s t : Scopes}

theorem lookupHead_cons (chain : Chain) (name : String) (s : Scope) (outer : List Scope) :
    lookupHead chain name (s :: outer) =
      (chain.resolve s.subject name).or (lookupHead chain name outer) := by
  rw [lookupHead]
  cases chain.resolve s.subject name with
  | none => rfl
  | some v => rfl

theorem Alike.push (h : Alike s t) (inner : Scope) : Alike (s.push inner) (t.push inner) where
  subject := rfl
  bound name := by
    change lookupBound name (inner :: s.toList) = lookupBound name (inner :: t.toList)
    rw [lookupBound, lookupBound, h.bound name]
  head chain name := by
    change lookupHead chain name (inner :: s.toList) = lookupHead chain name (inner :: t.toList)
    rw [lookupHead, lookupHead, h.head chain name]

/-- A scope that repeats the subject and binds nothing hides nothing and adds nothing. -/
theorem alike_push_subject (s : Scopes) : Alike (s.push (.of s.subject)) s where
  subject := rfl
  bound _ := rfl
  head chain name := by
    change lookupHead chain name (.of s.current.subject :: s.current :: s.outer) =
      lookupHead chain name (s.current :: s.outer)
    -- The subject is asked twice, and the second answer is the first one.
    rw [lookupHead_cons, lookupHead_cons, ← Option.or_assoc]
    change Option.or (Option.or (chain.resolve s.current.subject name) _) _ = _
    rw [Option.or_self]

theorem Alike.lookup (h : Alike s t) (chain : Chain) (path : Path) :
    s.lookup chain path = t.lookup chain path := by
  cases path with
  | this segments =>
    change follow chain s.subject segments = follow chain t.subject segments
    rw [h.subject]
  | bound name => exact h.bound name
  | named head rest =>
    change (lookupHead chain head s.toList).bind _ = (lookupHead chain head t.toList).bind _
    rw [h.head chain head]

theorem Alike.eval (h : Alike s t) (chain : Chain) (param : Param) :
    s.eval chain param = t.eval chain param := by
  cases param with
  | path path => exact h.lookup chain path
  | literal l => rfl

theorem Alike.evalOrNull (h : Alike s t) (chain : Chain) :
    s.evalOrNull chain = t.evalOrNull chain := by
  funext param
  rw [Scopes.evalOrNull, Scopes.evalOrNull, h.eval chain param]

end Scopes

open Scopes (Alike)

/-! ## Rendering in scopes that are alike -/

section

variable {setting : Setting} {s t : Scopes}

/-- A helper is told the same in scopes that are alike. -/
theorem call_alike (h : Alike s t) (name : String) (params : List Param) (named : Table Param)
    (isBlock : Bool) :
    setting.call s name params named isBlock = setting.call t name params named isBlock := by
  have hlookup : s.lookup setting.chain = t.lookup setting.chain := funext (h.lookup setting.chain)
  unfold Setting.call
  rw [h.evalOrNull, h.subject, hlookup]

/-- **No setting tells scopes apart that are alike.** -/
theorem blind_alike (setting : Setting) : setting.Blind Alike where
  printed h path escape := by rw [h.lookup]
  innerScopes {s t} h k param := by
    refine Setting.innerScopes_related (V := Eq) (I := Eq) ?_ (congrArg _) (congrArg _) h.subject k
      ?_ ?_
    · rintro inner _ rfl
      exact h.push inner
    · rw [h.eval]
      cases t.eval setting.chain param with
      | none => exact .none
      | some v => exact .some rfl
    · rw [h.eval]
      exact List.forall₂_same.2 fun _ _ => rfl
  helperPlan {s t} h name params named isBlock escape := by
    unfold Setting.helperPlan
    rw [call_alike h]
    cases setting.helpers.get? name with
    | none => exact .done _
    | some helper =>
      refine Plan.related_ofScript (fun v => h.push _) ?_ escape _
      rw [h.subject]
      exact h.push _
  scopesWithin {s t} h context := by
    cases context with
    | none => exact h
    | some param =>
      unfold Setting.scopesWithin
      rw [h.evalOrNull]
      exact h.push _

end

/-! ## Conditions -/

section

variable (setting : Setting) (budget : Nat) (scopes : Scopes)

/-- Nodes in a scope that repeats the subject are the nodes themselves. -/
theorem renderNodes_push_subject (nodes : List Node) :
    renderNodes setting (setting.expand budget) nodes (scopes.push (.of scopes.subject)) =
      renderNodes setting (setting.expand budget) nodes scopes :=
  (blind_alike setting).expand_eq (budget + 1) nodes (Scopes.alike_push_subject scopes)

/-- Where a node renders as a list of nodes does, it can be replaced by the list. -/
theorem expand_splice {n : Node} {nodes : List Node}
    (h : ∀ budget, renderNode setting (setting.expand budget) n scopes =
      renderNodes setting (setting.expand budget) nodes scopes)
    (before after : List Node) :
    setting.expand budget (before ++ n :: after) scopes =
      setting.expand budget (before ++ nodes ++ after) scopes := by
  cases budget with
  | zero => rfl
  | succ budget =>
    change renderNodes setting (setting.expand budget) (before ++ n :: after) scopes =
      renderNodes setting (setting.expand budget) (before ++ nodes ++ after) scopes
    rw [List.append_cons, renderNodes_append, renderNodes_append _ _ (before ++ nodes),
      renderNodes_append _ _ before [n], renderNodes_append _ _ before nodes,
      renderNodes_singleton, h]

/-- The branch of a condition that is rendered: the first if its argument is true. -/
def selected (param : Param) (yes no : List Node) : List Node :=
  if ((scopes.eval setting.chain param).getD .null).truthy then yes else no

theorem renderNode_whenTrue (param : Param) (yes no : List Node) :
    renderNode setting (setting.expand budget) (.block .whenTrue param yes (some no)) scopes =
      renderNodes setting (setting.expand budget) (selected setting scopes param yes no) scopes := by
  rw [renderNode_block, selected]
  simp only [Setting.runBlock, renderOther, renderNodes_push_subject]
  split
  all_goals rfl

theorem renderNode_whenFalse (param : Param) (yes no : List Node) :
    renderNode setting (setting.expand budget) (.block .whenFalse param no (some yes)) scopes =
      renderNodes setting (setting.expand budget) (selected setting scopes param yes no) scopes := by
  rw [renderNode_block, selected]
  simp only [Setting.runBlock, renderOther, renderNodes_push_subject]
  split
  all_goals rfl

theorem renderNode_within_this (h : scopes.subject ≠ .null) (body : List Node)
    (inverse : Option (List Node)) :
    renderNode setting (setting.expand budget) (.block .within (.path (.this [])) body inverse)
        scopes =
      renderNodes setting (setting.expand budget) body scopes := by
  have heval : scopes.eval setting.chain (.path (.this [])) = some scopes.subject := by
    refine Value.nonNull_eq_some.2 ⟨rfl, ?_⟩
    cases hsubject : scopes.subject with
    | null => exact absurd hsubject h
    | _ => rfl
  rw [renderNode_block]
  simp only [Setting.runBlock, heval, renderNodes_push_subject]

/-- **A condition is the branch that it selects.** A block `unless` is the block `if` with the
branches exchanged, and that block is the branch it selects, put in its place among other nodes; a
block `with this` is its body where the subject is not null. -/
theorem conditions_eq_splice (param : Param) (a b before after : List Node) :
    setting.expand budget (before ++ .block .whenFalse param a (some b) :: after) scopes =
        setting.expand budget (before ++ .block .whenTrue param b (some a) :: after) scopes ∧
      setting.expand budget (before ++ .block .whenTrue param b (some a) :: after) scopes =
        setting.expand budget (before ++ selected setting scopes param b a ++ after) scopes ∧
      (scopes.subject ≠ .null →
        setting.expand budget (before ++ .block .within (.path (.this [])) a none :: after) scopes =
          setting.expand budget (before ++ a ++ after) scopes) := by
  have hunless := expand_splice setting budget scopes
    (fun budget => renderNode_whenFalse setting budget scopes param b a) before after
  have hif := expand_splice setting budget scopes
    (fun budget => renderNode_whenTrue setting budget scopes param b a) before after
  refine ⟨hunless.trans hif.symm, hif, fun hsubject => ?_⟩
  exact expand_splice setting budget scopes
    (fun budget => renderNode_within_this setting budget scopes hsubject a none) before after

end

/-- An item of a loop, where `@index` is bound: neither a condition nor `with this` hides it. -/
theorem conditions_eq_splice_of_item :
    let setting : Setting := ⟨[], .default, none, false⟩
    let scopes := (Scopes.root (.map [("done", .bool true)])).push (iteration (.str "x") 0 2)
    let index : List Node := [.lookup (.bound "index") true]
    let done : Param := .path (.named "done" [])
    scopes.subject ≠ .null ∧
      setting.expand 1 ([] ++ .block .within (.path (.this [])) index none :: []) scopes =
        setting.expand 1 ([] ++ index ++ []) scopes ∧
      setting.expand 1 ([] ++ .block .whenFalse done [] (some index) :: []) scopes =
        setting.expand 1 ([] ++ .block .whenTrue done index (some []) :: []) scopes ∧
      (setting.expand 1 ([] ++ .block .whenFalse done [] (some index) :: []) scopes
        ⟨[], 0, .empty⟩).map Prod.fst = some (.ok "0") := by
  intro setting scopes index done
  have hsubject : scopes.subject ≠ .null := by
    intro h
    cases h
  have h := conditions_eq_splice setting 1 scopes done [] index [] []
  have hthis := conditions_eq_splice setting 1 scopes done index [] [] []
  exact ⟨hsubject, hthis.2.2 hsubject, h.1, by cbv⟩

end Stencil
