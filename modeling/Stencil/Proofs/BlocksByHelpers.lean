import Mathlib
import Stencil.Helper.Stock
import Stencil.Proofs.LookUps
import Stencil.Proofs.Transparency

/-!
# Blocks that a helper can make

A helper never sees the nodes of its block. It asks for a body, is told the text or the fault, and
its answer is printed as it is; and both bodies are rendered one scope further in than those of the
blocks of the language. This is still enough to make these blocks:

> `helpers_make_blocks`: a helper that answers with its body is the block `with` with its main
> body on both branches, or the body itself where it has no argument; one that has its body
> rendered around the subject at hand if its first argument is true, and the second body otherwise,
> is the block `if`.

A text that is asked for and answered with is the body as a step (`run_bodyWith`), so text, fault
and progress coincide; and a scope that repeats the subject makes no difference to any body
(`renderNodes_push_subject`).
-/

namespace Stencil

namespace Helper

/-- Answers with its body. -/
def showing : Helper := fun c => .bodyWith c.bodySubject .answerText

/-- Answers with its body around the subject at hand if its first argument is true, and with its
second body otherwise. -/
def choosing : Helper := fun c =>
  if c.first.truthy then .bodyWith c.context .answerText else .inverseThen .answerText

end Helper

/-! ## Answering with a body -/

section

variable (body : Value → Step String) (inverse : Step String) (next : String → Script)

theorem run_withText (r : Except Fault String) :
    (Script.withText next r).run body inverse =
      Step.onResult (fun s => (next s).run body inverse) r := by
  cases r with
  | ok s => rfl
  | error e => rfl

theorem run_bodyWith (subject : Value) :
    (Script.bodyWith subject next).run body inverse =
      Step.bind (body subject) fun s => (next s).run body inverse := by
  unfold Script.bodyWith
  simp only [Step.run_body, run_withText, Step.bind_eq_seq]

theorem run_inverseThen :
    (Script.inverseThen next).run body inverse =
      Step.bind inverse fun s => (next s).run body inverse := by
  unfold Script.inverseThen
  simp only [Step.run_inverse, run_withText, Step.bind_eq_seq]

end

namespace Scopes

variable {s : Scopes} {chain : Chain}

/-- An argument is never null: it has another value or none. -/
theorem isNull_of_eval {param : Param} {v : Value} (h : s.eval chain param = some v) :
    v.isNull = false := by
  cases param with
  | path path => exact isNull_of_lookup h
  | literal l =>
    obtain ⟨rfl, hnull⟩ := Value.nonNull_eq_some.1 h
    exact hnull

end Scopes

section

variable (setting : Setting) (scopes : Scopes) (name : String) (named : Table Param)
  (isBlock : Bool)

/-- The body of a helper is about its first argument where that has a value, and about the subject
at hand otherwise. -/
theorem bodySubject_call (param : Param) (more : List Param) :
    (setting.call scopes name (param :: more) named isBlock).bodySubject =
      (scopes.eval setting.chain param).getD scopes.subject := by
  change (if (scopes.evalOrNull setting.chain param).isNull then scopes.subject
    else scopes.evalOrNull setting.chain param) = _
  unfold Scopes.evalOrNull
  cases hvalue : scopes.eval setting.chain param with
  | none => rfl
  | some v =>
    rw [Option.getD_some, Scopes.isNull_of_eval hvalue]
    rfl

theorem bodySubject_call_nil :
    (setting.call scopes name [] named isBlock).bodySubject = scopes.subject := rfl

end

/-! ## The blocks that helpers make -/

section

variable {setting : Setting} {name : String} (budget : Nat) (scopes : Scopes)
  (named : Table Param) (body : List Node) (inverse : Option (List Node))

/-- A helper that answers with its body renders the body one scope further in. -/
theorem renderNode_showing (h : setting.helpers.get? name = some Helper.showing)
    (params : List Param) :
    renderNode setting (setting.expand budget) (.helperBlock name params named body inverse) scopes =
      renderNodes setting (setting.expand budget) body
        (scopes.push (.of (setting.call scopes name params named true).bodySubject)) := by
  rw [renderNode_helperBlock]
  unfold Setting.runHelper
  rw [h]
  dsimp only [Helper.showing]
  rw [run_bodyWith, Step.bind_assoc]
  exact Step.bind_pure _

/-- With an argument that is the block `with`, or the body alone where the argument has no value. -/
theorem renderNode_showing_param (h : setting.helpers.get? name = some Helper.showing)
    (param : Param) (more : List Param) :
    renderNode setting (setting.expand budget)
        (.helperBlock name (param :: more) named body inverse) scopes =
      renderNode setting (setting.expand budget) (.block .within param body (some body)) scopes := by
  rw [renderNode_showing budget scopes named body inverse h, bodySubject_call, renderNode_block]
  simp only [Setting.runBlock, renderOther]
  cases scopes.eval setting.chain param with
  | none => exact renderNodes_push_subject setting budget scopes body
  | some v => rfl

/-- Without an argument that is the body alone. -/
theorem renderNode_showing_nil (h : setting.helpers.get? name = some Helper.showing) :
    renderNode setting (setting.expand budget) (.helperBlock name [] named body inverse) scopes =
      renderNodes setting (setting.expand budget) body scopes := by
  rw [renderNode_showing budget scopes named body inverse h, bodySubject_call_nil,
    renderNodes_push_subject]

/-- A second body renders one scope further in as it does at hand. -/
theorem renderOther_push_subject :
    renderOther setting (setting.expand budget) inverse (scopes.push (.of scopes.subject)) =
      renderOther setting (setting.expand budget) inverse scopes := by
  cases inverse with
  | none => rfl
  | some nodes => exact renderNodes_push_subject setting budget scopes nodes

/-- A helper that chooses by its first argument is the block `if`. -/
theorem renderNode_choosing (h : setting.helpers.get? name = some Helper.choosing)
    (param : Param) (more : List Param) :
    renderNode setting (setting.expand budget)
        (.helperBlock name (param :: more) named body inverse) scopes =
      renderNode setting (setting.expand budget) (.block .whenTrue param body inverse) scopes := by
  rw [renderNode_helperBlock, renderNode_block]
  unfold Setting.runHelper
  rw [h]
  -- Both sides decide by the truth of one value.
  change Step.bind (Script.run _ _ (if (scopes.evalOrNull setting.chain param).truthy then
      .bodyWith scopes.subject .answerText else .inverseThen .answerText)) _ =
    if (scopes.evalOrNull setting.chain param).truthy then _ else _
  split
  next =>
    rw [run_bodyWith, Step.bind_assoc]
    exact Step.bind_pure _
  next =>
    rw [run_inverseThen, Step.bind_assoc, renderOther_push_subject]
    exact Step.bind_pure _

end

/-- **Helpers make the blocks of the language.** In any scopes, among any other nodes and from any
progress: a helper that answers with its body is the block `with` around its first argument with
that body on both branches, whatever further arguments it has, and the body itself in its place
where it has none; a helper that chooses by the truth of its first argument is the block `if`. Text
or fault and all of the progress are the same. -/
theorem helpers_make_blocks (setting : Setting) (name : String) (budget : Nat) (scopes : Scopes)
    (param : Param) (more : List Param) (named : Table Param) (a b before after : List Node)
    (inverse : Option (List Node)) :
    (setting.helpers.get? name = some Helper.showing →
      setting.expand budget (before ++ .helperBlock name (param :: more) named a inverse :: after)
          scopes =
        setting.expand budget (before ++ .block .within param a (some a) :: after) scopes ∧
      setting.expand budget (before ++ .helperBlock name [] named a inverse :: after) scopes =
        setting.expand budget (before ++ a ++ after) scopes) ∧
    (setting.helpers.get? name = some Helper.choosing →
      setting.expand budget
          (before ++ .helperBlock name (param :: more) named a (some b) :: after) scopes =
        setting.expand budget (before ++ .block .whenTrue param a (some b) :: after) scopes) := by
  refine ⟨fun hshows => ⟨?_, ?_⟩, fun hchooses => ?_⟩
  · rw [List.append_cons before (.block ..)]
    refine expand_splice setting budget scopes (fun budget => ?_) before after
    rw [renderNodes_singleton, renderNode_showing_param budget scopes named a inverse hshows]
  · exact expand_splice setting budget scopes
      (fun budget => renderNode_showing_nil budget scopes named a inverse hshows) before after
  · rw [List.append_cons before (.block ..)]
    refine expand_splice setting budget scopes (fun budget => ?_) before after
    rw [renderNodes_singleton, renderNode_choosing budget scopes named a (some b) hchooses]

/-- A person who is there and one who is not; the body declares an override and calls a helper. -/
theorem helpers_make_blocks_of_person :
    let setting : Setting := ⟨("show", Helper.showing) :: Helper.stock, .default, none, false⟩
    let scopes := Scopes.root (.map [("person", .map [("name", .str "Ada")])])
    let person : Param := .path (.named "person" [])
    let name : List Node := [.override "seen" [], .call "cat" [.path (.named "name" [])] [] true]
    let nobody : List Node := [.text "nobody"]
    setting.helpers.get? "show" = some Helper.showing ∧
      setting.helpers.get? "pick" = some Helper.choosing ∧
      setting.expand 2 ([] ++ .helperBlock "show" [person] [] name none :: nobody) scopes =
        setting.expand 2 ([] ++ .block .within person name (some name) :: nobody) scopes ∧
      setting.expand 2
          ([] ++ .helperBlock "pick" [.path (.named "none" []), person] [] name (some nobody) :: [])
          scopes =
        setting.expand 2 ([] ++ .block .whenTrue (.path (.named "none" [])) name (some nobody) :: [])
          scopes ∧
      (setting.expand 2 ([] ++ .helperBlock "show" [person] [] name none :: nobody) scopes
        ⟨[], 0, .empty⟩).map Prod.fst = some (.ok "Adanobody") := by
  intro setting scopes person name nobody
  have hshows : setting.helpers.get? "show" = some Helper.showing := rfl
  have hchooses : setting.helpers.get? "pick" = some Helper.choosing := rfl
  have hperson := (helpers_make_blocks setting "show" 2 scopes person [] [] name nobody [] nobody
    none).1 hshows
  have hnone := (helpers_make_blocks setting "pick" 2 scopes (.path (.named "none" [])) [person] []
    name nobody [] [] none).2 hchooses
  exact ⟨hshows, hchooses, hperson.1, hnone, by cbv⟩

end Stencil
