import Stencil.Render

/-!
# Reasoning about steps

A step of a render takes the progress so far and gives no result, or a result or fault together
with the progress after it. Two kinds of statement about steps are used everywhere:

> `Step.Keeps I Q s`: from progress with `I` the step ends in progress with `I`, in success and in
> failure, and where it succeeds its result has `Q`.
> `Step.Extends R s t`: from progress related by `R`, if the first step ends then so does the
> second, with the same result or fault and with progress related by `R`.

Each way of building a step has one rule for either kind, so that a proof about rendering never
looks inside a step. Two steps that extend each other agree (`Step.Agree`): both end, alike, or
neither does.
-/

namespace Stencil

variable {α β γ : Type}

namespace Step

/-! ## Steps in a row -/

/-- Goes on with the result or the fault of a step. -/
def seq (s : Step α) (f : Except Fault α → Step β) : Step β := fun p =>
  match s p with
  | none => none
  | some (r, q) => f r q

/-- Goes on with a result and passes a fault on. -/
def onResult (f : α → Step β) : Except Fault α → Step β
  | .ok x => f x
  | .error e => fail e

theorem bind_eq_seq (s : Step α) (f : α → Step β) : bind s f = seq s (onResult f) := by
  funext p
  unfold bind seq
  generalize s p = outcome
  obtain _ | ⟨_ | _, _⟩ := outcome
  all_goals rfl

theorem pure_bind (x : α) (f : α → Step β) : bind (pure x) f = f x := rfl

theorem bind_pure (s : Step α) : bind s pure = s := by
  funext p
  unfold bind
  generalize s p = outcome
  obtain _ | ⟨_ | _, _⟩ := outcome
  all_goals rfl

theorem seq_done (s : Step α) : seq s (fun r p => some (r, p)) = s := by
  funext p
  unfold seq
  generalize s p = outcome
  obtain _ | ⟨_, _⟩ := outcome
  all_goals rfl

theorem bind_assoc (s : Step α) (f : α → Step β) (g : β → Step γ) :
    bind (bind s f) g = bind s fun x => bind (f x) g := by
  funext p
  unfold bind
  generalize s p = outcome
  obtain _ | ⟨_ | _, _⟩ := outcome
  all_goals rfl

theorem seq_bind (s : Step α) (f : Except Fault α → Step β) (g : β → Step γ) :
    bind (seq s f) g = seq s fun r => bind (f r) g := by
  funext p
  unfold bind seq
  generalize s p = outcome
  obtain _ | ⟨_, _⟩ := outcome
  all_goals rfl

/-- A helper that has a body rendered goes on with the text or the fault of it. -/
theorem run_body (subject : Value) (resume : Except Fault String → Script)
    (body : Value → Step String) (inverse : Step String) :
    (Script.body subject resume).run body inverse =
      seq (body subject) fun r => (resume r).run body inverse := by
  funext p
  simp only [Script.run, seq]
  generalize body subject p = outcome
  obtain _ | ⟨_, _⟩ := outcome
  all_goals rfl

theorem run_inverse (resume : Except Fault String → Script) (body : Value → Step String)
    (inverse : Step String) :
    (Script.inverse resume).run body inverse =
      seq inverse fun r => (resume r).run body inverse := by
  funext p
  simp only [Script.run, seq]
  generalize inverse p = outcome
  obtain _ | ⟨_, _⟩ := outcome
  all_goals rfl

/-- The step keeps the invariant, also when it fails, and its results have the property. -/
def Keeps (I : Progress → Prop) (Q : α → Prop) (s : Step α) : Prop :=
  ∀ p, I p → ∀ r p', s p = some (r, p') → I p' ∧ ∀ x, r = .ok x → Q x

/-- Two steps end alike. -/
inductive Alike (R : Progress → Progress → Prop) :
    Option (Except Fault α × Progress) → Option (Except Fault α × Progress) → Prop where
  | endless : Alike R none none
  | ended {r : Except Fault α} {p q : Progress} (h : R p q) : Alike R (some (r, p)) (some (r, q))

/-- From related progress the two steps end alike. -/
def Agree (R : Progress → Progress → Prop) (s t : Step α) : Prop :=
  ∀ p q, R p q → Alike R (s p) (t q)

/-- From related progress the second step ends as the first one does, if the first one ends. -/
def Extends (R : Progress → Progress → Prop) (s t : Step α) : Prop :=
  ∀ p q, R p q → ∀ r p', s p = some (r, p') → ∃ q', t q = some (r, q') ∧ R p' q'

/-! ## What a step keeps -/

section Keeps

variable {I : Progress → Prop} {Q : α → Prop} {P : β → Prop}

theorem keeps_done {r : Except Fault α} (h : ∀ x, r = .ok x → Q x) :
    Keeps I Q fun p => some (r, p) := by
  intro p hp r' p' hr
  cases hr
  exact ⟨hp, h⟩

theorem keeps_pure {x : α} (hx : Q x) : Keeps I Q (pure x) := by
  refine keeps_done fun y hy => ?_
  cases hy
  exact hx

theorem keeps_fail (e : Fault) : Keeps I Q (fail e) := keeps_done fun _ hy => by cases hy

/-- The second step may go on with a fault as with a result, so the invariant has to hold after
either. -/
theorem keeps_seq {s : Step α} {f : Except Fault α → Step β} (hs : Keeps I Q s)
    (hf : ∀ r, (∀ x, r = .ok x → Q x) → Keeps I P (f r)) : Keeps I P (seq s f) := by
  intro p hp r p' h
  unfold seq at h
  split at h
  next => cases h
  next r₁ p₁ hsp =>
    obtain ⟨hp₁, hr₁⟩ := hs p hp _ _ hsp
    exact hf r₁ hr₁ p₁ hp₁ r p' h

theorem keeps_bind {s : Step α} {f : α → Step β} (hs : Keeps I Q s)
    (hf : ∀ x, Q x → Keeps I P (f x)) : Keeps I P (bind s f) := by
  rw [bind_eq_seq]
  refine keeps_seq hs fun r hr => ?_
  cases r with
  | ok x => exact hf x (hr x rfl)
  | error e => exact keeps_fail e

end Keeps

/-! ## Where one step extends another -/

section Extends

variable {R : Progress → Progress → Prop}

theorem extends_done (r : Except Fault α) :
    Extends R (fun p => some (r, p)) fun p => some (r, p) := by
  intro p q hpq r' p' h
  cases h
  exact ⟨q, rfl, hpq⟩

theorem extends_pure (x : α) : Extends R (pure x) (pure x) := extends_done (.ok x)

theorem extends_seq {s t : Step α} {f g : Except Fault α → Step β} (hst : Extends R s t)
    (hfg : ∀ r, Extends R (f r) (g r)) : Extends R (seq s f) (seq t g) := by
  intro p q hpq r' p' h
  unfold seq at h ⊢
  split at h
  next => cases h
  next r p₁ hsp =>
    obtain ⟨q₁, htq, hpq₁⟩ := hst p q hpq r p₁ hsp
    rw [htq]
    exact hfg r p₁ q₁ hpq₁ r' p' h

theorem extends_bind {s t : Step α} {f g : α → Step β} (hst : Extends R s t)
    (hfg : ∀ x, Extends R (f x) (g x)) : Extends R (bind s f) (bind t g) := by
  rw [bind_eq_seq, bind_eq_seq]
  refine extends_seq hst fun r => ?_
  cases r with
  | ok x => exact hfg x
  | error e => exact extends_done (.error e)

/-- Steps that extend each other agree. -/
theorem agree_of_extends {s t : Step α} (hst : Extends R s t) (hts : Extends (flip R) t s) :
    Agree R s t := by
  intro p q hpq
  cases hs : s p with
  | some ended =>
    obtain ⟨q', htq, hpq'⟩ := hst p q hpq ended.1 ended.2 hs
    rw [htq]
    exact .ended hpq'
  | none =>
    cases ht : t q with
    | none => exact .endless
    | some ended =>
      obtain ⟨p', hsp, -⟩ := hts q p hpq ended.1 ended.2 ht
      rw [hs] at hsp
      cases hsp

end Extends

/-! ## Where two steps agree -/

section Agree

variable {R : Progress → Progress → Prop}

theorem agree_done (r : Except Fault α) :
    Agree R (fun p => some (r, p)) fun p => some (r, p) := fun _ _ hpq => .ended hpq

theorem agree_pure (x : α) : Agree R (pure x) (pure x) := agree_done (.ok x)

theorem agree_seq {s t : Step α} {f g : Except Fault α → Step β} (hst : Agree R s t)
    (hfg : ∀ r, Agree R (f r) (g r)) : Agree R (seq s f) (seq t g) := by
  intro p q hpq
  have hends := hst p q hpq
  unfold seq
  generalize s p = x at hends ⊢
  generalize t q = y at hends ⊢
  cases hends with
  | endless => exact .endless
  | ended hpq' => exact hfg _ _ _ hpq'

theorem agree_bind {s t : Step α} {f g : α → Step β} (hst : Agree R s t)
    (hfg : ∀ x, Agree R (f x) (g x)) : Agree R (bind s f) (bind t g) := by
  rw [bind_eq_seq, bind_eq_seq]
  refine agree_seq hst fun r => ?_
  cases r with
  | ok x => exact hfg x
  | error e => exact agree_done (.error e)

end Agree

end Step

end Stencil
