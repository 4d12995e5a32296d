import Stencil.Proofs.ShelfAnswers
import Stencil.Proofs.Steps

/-!
# The three ways of an include

An include can go three ways, and which one it goes depends on its progress alone:

> `runInclude_refused`: at the limit it fails, and nothing has changed.
> `runInclude_missing`: without a template it fails as the source does.
> `runInclude_found`: with a template it renders the nodes, with one more include open until they
> are done.

Below the limit the shelf was asked for the name, whatever the answer was (`Progress.asking`). What
is to be shown of all includes is shown for each of the three ways (`Progress.includeWay`).
-/

namespace Stencil

namespace Progress

/-- The progress after a template was asked for by its name. -/
def asking (p : Progress) (setting : Setting) (name : String) : Progress :=
  { p with shelf := (p.shelf.load setting.source setting.keeps name).2 }

/-- The progress with a number of includes open. -/
def withOpen (p : Progress) (count : Nat) : Progress := { p with openIncludes := count }

/-- The way that an include of a name goes. -/
inductive IncludeWay (p : Progress) (setting : Setting) (name : String) : Prop where
  | refused (hlimit : Fault.includeLimit ≤ p.openIncludes)
  | missing (hlimit : p.openIncludes < Fault.includeLimit) {e : Fault}
    (hanswer : p.shelf.answer setting.source name = .error e)
  | found (hlimit : p.openIncludes < Fault.includeLimit) {nodes : List Node}
    (hanswer : p.shelf.answer setting.source name = .ok nodes)

theorem includeWay (p : Progress) (setting : Setting) (name : String) :
    p.IncludeWay setting name := by
  rcases Nat.lt_or_ge p.openIncludes Fault.includeLimit with hlimit | hlimit
  · cases hanswer : p.shelf.answer setting.source name with
    | error e => exact .missing hlimit hanswer
    | ok nodes => exact .found hlimit hanswer
  · exact .refused hlimit

end Progress

/-- The scopes in which the nodes of an included template are rendered. -/
def Setting.scopesWithin (setting : Setting) (context : Option Param) (scopes : Scopes) : Scopes :=
  match context with
  | some param => scopes.push (.of (scopes.evalOrNull setting.chain param))
  | none => scopes

section

variable {setting : Setting} {name : String} {p : Progress}

theorem load_eq_answer :
    p.shelf.load setting.source setting.keeps name =
      (p.shelf.answer setting.source name, (p.asking setting name).shelf) :=
  Prod.ext Shelf.load_fst rfl

theorem renderNode_inclusion (expand : Expand) (context : Option Param) (scopes : Scopes) :
    renderNode setting expand (.inclusion name context) scopes =
      setting.runInclude expand name context scopes := by
  rw [renderNode]

/-- At the limit an include fails, and nothing has changed: the source was not asked. -/
theorem runInclude_refused (expand : Expand) (context : Option Param) (scopes : Scopes)
    (h : Fault.includeLimit ≤ p.openIncludes) :
    setting.runInclude expand name context scopes p = some (.error (.tooDeep name), p) := by
  unfold Setting.runInclude
  rw [if_pos h]

/-- Without a template an include fails as the source does. -/
theorem runInclude_missing (expand : Expand) (context : Option Param) (scopes : Scopes)
    (h : p.openIncludes < Fault.includeLimit) {e : Fault}
    (hanswer : p.shelf.answer setting.source name = .error e) :
    setting.runInclude expand name context scopes p =
      some (.error e, p.asking setting name) := by
  unfold Setting.runInclude
  rw [if_neg (Nat.not_le.2 h), load_eq_answer, hanswer]
  rfl

/-- With a template an include renders its nodes, with one more include open until they are
done. -/
theorem runInclude_found (expand : Expand) (context : Option Param) (scopes : Scopes)
    (h : p.openIncludes < Fault.includeLimit) {nodes : List Node}
    (hanswer : p.shelf.answer setting.source name = .ok nodes) :
    setting.runInclude expand name context scopes p =
      Step.seq (expand nodes (setting.scopesWithin context scopes))
        (fun r q => some (r, q.withOpen p.openIncludes))
        ((p.asking setting name).withOpen (p.openIncludes + 1)) := by
  unfold Setting.runInclude Step.seq
  rw [if_neg (Nat.not_le.2 h), load_eq_answer, hanswer]
  dsimp only [Setting.scopesWithin, Progress.withOpen, Progress.asking]
  generalize expand nodes _ _ = outcome
  obtain _ | ⟨_, _⟩ := outcome
  all_goals rfl

/-- Of the scopes of an include only those of its nodes matter. -/
theorem runInclude_congr {expand : Expand} {context : Option Param} {s t : Scopes}
    (h : ∀ nodes, expand nodes (setting.scopesWithin context s) =
      expand nodes (setting.scopesWithin context t)) :
    setting.runInclude expand name context s = setting.runInclude expand name context t := by
  funext p
  cases p.includeWay setting name with
  | refused hlimit => rw [runInclude_refused _ _ s hlimit, runInclude_refused _ _ t hlimit]
  | missing hlimit hanswer =>
    rw [runInclude_missing _ _ s hlimit hanswer, runInclude_missing _ _ t hlimit hanswer]
  | @found hlimit nodes hanswer =>
    rw [runInclude_found _ _ s hlimit hanswer, runInclude_found _ _ t hlimit hanswer, h nodes]

end

end Stencil
