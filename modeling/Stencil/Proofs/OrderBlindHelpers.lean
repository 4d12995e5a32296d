import Stencil.Helper.Stock
import Stencil.Proofs.Rearranged
import Mathlib

/-!
# Helpers that do not see the order of entries

A helper is given values, and it gives values: as subjects of its bodies, and as its answer. It
does not see the order of entries if two calls that are the same up to this order
(`Call.Rearranged`) lead to the same requests with the same values, again up to the order of
entries (`Script.Rearranged`). What its bodies were rendered to is text, and text is the same on
both sides.

> `Helper.stock_orderBlind`: none of the stock helpers sees the order of entries.

It takes no more than that they look at values through what cannot tell the order: the text of a
value, its truth, and its entries in ascending order of their keys.
-/

namespace Stencil

/-! ## Values out of values -/

namespace Value

theorem rearranged_of_items {items others : List Value}
    (h : List.Forall₂ Rearranged items others) :
    Rearranged (.list items) (.list others) := by
  refine .list h.length_eq ?_
  induction h with
  | nil =>
    intro i v w hv
    cases hv
  | cons hhead _ ih =>
    intro i v w hv hw
    cases i with
    | zero =>
      cases hv
      cases hw
      exact hhead
    | succ i => exact ih i v w hv hw

theorem rearranged_of_table {entries others : Table Value}
    (h : Table.Rearranged Rearranged entries others) :
    Rearranged (.map entries) (.map others) := by
  refine .map h.left h.right (fun key => isSome_eq_of_rel (h.get? key)) ?_
  intro key v w hv hw
  have hrel := h.get? key
  rw [hv, hw] at hrel
  cases hrel with
  | some hrel => exact hrel

theorem Rearranged.tag {v w : Value} (h : v.Rearranged w) : v.tag = w.tag := by
  cases h <;> rfl

theorem Rearranged.tagged {v w : Value} (h : v.Rearranged w) : v.tagged = w.tagged := by
  unfold Value.tagged
  rw [h.tag, h.display]

end Value

/-! ## Calls -/

/-- Two calls that are the same up to the order of entries and of named arguments. -/
structure Call.Rearranged (c d : Call) : Prop where
  name : c.name = d.name
  params : List.Forall₂ Value.Rearranged c.params d.params
  named : Table.Rearranged Value.Rearranged c.named d.named
  isBlock : c.isBlock = d.isBlock
  context : c.context.Rearranged d.context
  lookup : ∀ path, Option.Rel Value.Rearranged (c.lookup path) (d.lookup path)

namespace Call.Rearranged

variable {c d : Call} (h : c.Rearranged d)

include h

theorem first : c.first.Rearranged d.first := by
  have hparams := h.params
  unfold Call.first
  generalize c.params = ps at hparams ⊢
  generalize d.params = qs at hparams ⊢
  cases hparams with
  | nil => exact .refl _
  | cons hvalue _ => exact hvalue

theorem bodySubject : c.bodySubject.Rearranged d.bodySubject := by
  unfold Call.bodySubject
  rw [h.first.isNull]
  split
  next => exact h.context
  next => exact h.first

/-- Whatever text is made of single arguments, the arguments give the same texts. -/
theorem map_params {f : Value → String} (hf : ∀ v w : Value, v.Rearranged w → f v = f w) :
    c.params.map f = d.params.map f :=
  map_eq_of_forall₂ (h.params.imp hf)

end Call.Rearranged

/-! ## Scripts -/

/-- Two scripts that make the same requests and give the same answer, up to the order of
entries. -/
inductive Script.Rearranged : Script → Script → Prop where
  | fail (e : Fault) : Rearranged (.done (.error e)) (.done (.error e))
  | answer {v w : Value} (h : v.Rearranged w) : Rearranged (.done (.ok v)) (.done (.ok w))
  | body {v w : Value} {resume resume' : Except Fault String → Script} (h : v.Rearranged w)
      (hresume : ∀ r, Rearranged (resume r) (resume' r)) :
      Rearranged (.body v resume) (.body w resume')
  | inverse {resume resume' : Except Fault String → Script}
      (hresume : ∀ r, Rearranged (resume r) (resume' r)) :
      Rearranged (.inverse resume) (.inverse resume')

theorem Script.rearranged_refl (s : Script) : s.Rearranged s := by
  induction s with
  | done result =>
    cases result with
    | ok v => exact .answer (.refl v)
    | error e => exact .fail e
  | body subject resume ih => exact .body (.refl subject) ih
  | inverse resume ih => exact .inverse ih

/-- A helper that does not see the order of entries. -/
def Helper.OrderBlind (h : Helper) : Prop :=
  ∀ c d, c.Rearranged d → (h c).Rearranged (h d)

/-! ## The stock helpers -/

namespace Helper

theorem describe_rearranged {c d : Call} (h : c.Rearranged d) : describe c = describe d := by
  have hnamed : c.named.sorted.map (fun entry => entry.1 ++ "=" ++ entry.2.tagged) =
      d.named.sorted.map fun entry => entry.1 ++ "=" ++ entry.2.tagged := by
    refine map_eq_of_forall₂ (h.named.sorted.imp fun e f hentry => ?_)
    rw [hentry.1, hentry.2.tagged]
  unfold describe
  rw [h.name, h.map_params fun v w hvalue => hvalue.tagged, hnamed]

theorem repetitions_rearranged {v w : Value} (h : v.Rearranged w) :
    repetitions v = repetitions w := by
  cases h <;> rfl

/-- A helper that answers with a text which cannot tell the order of entries. -/
theorem answerText_orderBlind {f : Call → String} (hf : ∀ c d, c.Rearranged d → f c = f d) :
    OrderBlind fun c => .answerText (f c) := by
  intro c d h
  show (Script.answerText (f c)).Rearranged (.answerText (f d))
  rw [hf c d h]
  exact Script.rearranged_refl _

/-- A helper that answers with a value of its call. -/
theorem answer_orderBlind {f : Call → Value}
    (hf : ∀ c d, c.Rearranged d → (f c).Rearranged (f d)) :
    OrderBlind fun c => .answer (f c) :=
  fun c d h => .answer (hf c d h)

/-- A helper that has its body rendered and goes on with the text. -/
theorem bodyWith_orderBlind {f : Call → Value} {next : String → Script}
    (hf : ∀ c d, c.Rearranged d → (f c).Rearranged (f d)) :
    OrderBlind fun c => .bodyWith (f c) next :=
  fun c d h => .body (hf c d h) fun r => Script.rearranged_refl (.withText next r)

theorem first_rearranged (c d : Call) (h : c.Rearranged d) : c.first.Rearranged d.first := h.first

theorem bodySubject_rearranged (c d : Call) (h : c.Rearranged d) :
    c.bodySubject.Rearranged d.bodySubject := h.bodySubject

theorem fail_orderBlind : OrderBlind fun c => .done (.error (.helper c.first.display)) := by
  intro c d h
  dsimp only
  rw [h.first.display]
  exact .fail _

theorem times_orderBlind :
    OrderBlind fun c => .bodyForEach .answerText "" (counters (repetitions c.first)) := by
  intro c d h
  dsimp only
  rw [repetitions_rearranged h.first]
  exact Script.rearranged_refl _

theorem pick_orderBlind :
    OrderBlind fun c =>
      if c.first.truthy then .bodyWith c.context .answerText else .inverseThen .answerText := by
  intro c d h
  dsimp only
  rw [h.first.truthy]
  split
  next => exact .body h.context fun r => Script.rearranged_refl (.withText .answerText r)
  next => exact Script.rearranged_refl _

theorem look_rearranged (c d : Call) (h : c.Rearranged d) :
    ((c.lookup c.first.display).getD .null).Rearranged ((d.lookup d.first.display).getD .null) := by
  rw [h.first.display]
  exact Value.rearranged_getD (h.lookup _) _

theorem hashval_rearranged (c d : Call) (h : c.Rearranged d) :
    ((c.named.get? c.first.display).getD (.str "none")).Rearranged
      ((d.named.get? d.first.display).getD (.str "none")) := by
  rw [h.first.display]
  exact Value.rearranged_getD (h.named.get? _) _

theorem count_rearranged (c d : Call) (h : c.Rearranged d) :
    (Value.u64 (UInt64.ofNat c.params.length)).Rearranged
      (.u64 (UInt64.ofNat d.params.length)) := by
  rw [h.params.length_eq]
  exact .refl _

theorem isBlock_rearranged (c d : Call) (h : c.Rearranged d) :
    (Value.bool c.isBlock).Rearranged (.bool d.isBlock) := by
  rw [h.isBlock]
  exact .refl _

/-- None of the stock helpers sees the order of entries. -/
theorem stock_orderBlind : ∀ entry ∈ stock, OrderBlind entry.2 := by
  simp only [stock, List.forall_mem_cons]
  refine ⟨?args, ?list, ?map, ?count, ?fail, ?look, ?ctx, ?hashval, ?isblock, ?bold, ?twice,
    ?otherwise, ?both, ?given, ?times, ?pick, ?safe, ?nil, ?id, ?cat, ?none⟩
  case args => exact answerText_orderBlind fun c d h => describe_rearranged h
  case list => exact answer_orderBlind fun c d h => Value.rearranged_of_items h.params
  case map => exact answer_orderBlind fun c d h => Value.rearranged_of_table h.named
  case count => exact answer_orderBlind count_rearranged
  case fail => exact fail_orderBlind
  case look => exact answer_orderBlind look_rearranged
  case ctx => exact answer_orderBlind fun c d h => h.context
  case hashval => exact answer_orderBlind hashval_rearranged
  case isblock => exact answer_orderBlind isBlock_rearranged
  case bold | twice | both => exact bodyWith_orderBlind bodySubject_rearranged
  case given => exact bodyWith_orderBlind first_rearranged
  case otherwise | nil => exact fun c d h => Script.rearranged_refl _
  case times => exact times_orderBlind
  case pick => exact pick_orderBlind
  case safe => exact fun c d h => .body h.bodySubject fun r => Script.rearranged_refl _
  case id => exact answer_orderBlind first_rearranged
  case cat =>
    exact answerText_orderBlind fun c d h => by rw [h.map_params fun v w hvalue => hvalue.display]
  case none => exact List.forall_mem_nil _

end Helper

end Stencil
