import Stencil.Proofs.Tours

/-!
# Ledgers: what the visits of a render account for

Some parts of the progress of a render change at certain visits alone, and in a way that the visit
tells. A `Ledger` says what such a part is and what a visit does to it. If what a visit does is
right for each node taken by itself (`Ledger.Lawful`), it is right for whole renders: at every node
that is come to, the part is what the visits before it make of the part at the start.

> `tour_balanced`: a lawful ledger is balanced in every render, at each visit and at the end, whether
> it ends with a result or with a fault.

The tour of a body that a helper has rendered counts like any other. Nothing is taken back when
its text is thrown away or its fault is swallowed.

One part is left out of this: the number of open includes goes down again where no node is come to.
What it is, is told by the includes around a visit instead (`Stands`), and this is shown for every
ledger along with the rest.
-/

namespace Stencil

/-- The open includes of a progress are those around a place, and `base` more from before. -/
structure Stands (base : Nat) (within : List String) (p : Progress) : Prop where
  count : p.openIncludes = base + within.length
  limit : within ≠ [] → p.openIncludes ≤ Fault.includeLimit

/-- A part of the progress, and what visits do to it. -/
structure Ledger (σ : Type) where
  part : Progress → σ
  /-- The part after a visit, given the part before it. -/
  book : σ → Visit → σ

namespace Ledger

variable {σ : Type} (L : Ledger σ)

/-- The part after visits in order. -/
def after (x : σ) (vs : List Visit) : σ := vs.foldl L.book x

/-- At each visit the part is what the visits before it have made of it, and the open includes are
those around the visit. -/
def Faithful (base : Nat) : σ → List Visit → Prop
  | _, [] => True
  | x, v :: vs =>
    L.part v.progress = x ∧ Stands base v.within v.progress ∧ Faithful base (L.book x v) vs

variable {L} {base : Nat} {x : σ}

theorem faithful_append {vs ws : List Visit} :
    L.Faithful base x (vs ++ ws) ↔ L.Faithful base x vs ∧ L.Faithful base (L.after x vs) ws := by
  induction vs generalizing x with
  | nil => exact (and_iff_right trivial).symm
  | cons v vs ih =>
    change _ ∧ _ ∧ L.Faithful base (L.book x v) (vs ++ ws) ↔
      (_ ∧ _ ∧ L.Faithful base (L.book x v) vs) ∧ _
    rw [ih, and_assoc, and_assoc]
    exact Iff.rfl

theorem Faithful.at_visit {before after : List Visit} {v : Visit}
    (h : L.Faithful base x (before ++ v :: after)) :
    L.part v.progress = L.after x before ∧ Stands base v.within v.progress := by
  obtain ⟨-, hpart, hstands, -⟩ := faithful_append.1 h
  exact ⟨hpart, hstands⟩

theorem after_cons (x : σ) (v : Visit) (vs : List Visit) :
    L.after x (v :: vs) = L.after (L.book x v) vs := rfl

theorem after_append (x : σ) (vs ws : List Visit) :
    L.after x (vs ++ ws) = L.after (L.after x vs) ws := List.foldl_append

/-- What is booked at a visit is what the node does to the part by itself. -/
structure Lawful (L : Ledger σ) (setting : Setting) : Prop where
  quiet : ∀ {within n scopes p}, n.changesProgress = false →
    L.book (L.part p) ⟨within, n, scopes, p⟩ = L.part p
  override : ∀ within name body scopes p,
    L.book (L.part p) ⟨within, .override name body, scopes, p⟩ =
      L.part { p with overrides := p.overrides.insert name body }
  refused : ∀ within name context scopes p, Fault.includeLimit ≤ p.openIncludes →
    L.book (L.part p) ⟨within, .inclusion name context, scopes, p⟩ = L.part p
  asking : ∀ within name context scopes p, p.openIncludes < Fault.includeLimit →
    L.book (L.part p) ⟨within, .inclusion name context, scopes, p⟩ = L.part (p.asking setting name)
  opened : ∀ p count, L.part (p.withOpen count) = L.part p

end Ledger

namespace Tour

variable {α β σ : Type} {L : Ledger σ} {base : Nat} {within : List String}

/-- The visits of a tour are faithful to a ledger, and at its end the part is what the visits have
made of it and the open includes are the same as before. -/
structure Balanced (L : Ledger σ) (base : Nat) (within : List String) (t : Tour α) : Prop where
  visits : ∀ p, Stands base within p → L.Faithful base (L.part p) (t.visits p)
  ends : ∀ p, Stands base within p → ∀ r q, t.step p = some (r, q) →
    Stands base within q ∧ L.part q = L.after (L.part p) (t.visits p)

theorem balanced_still (r : Except Fault α) :
    Balanced L base within (still fun p => some (r, p)) where
  visits _ _ := trivial
  ends p hp r' q h := by
    cases h
    exact ⟨hp, rfl⟩

theorem balanced_seq {t : Tour α} {f : Except Fault α → Tour β} (ht : Balanced L base within t)
    (hf : ∀ r, Balanced L base within (f r)) : Balanced L base within (seq t f) where
  visits p hp := by
    cases hstep : t.step p with
    | none =>
      rw [seq_visits_of_endless hstep]
      exact ht.visits p hp
    | some ended =>
      obtain ⟨r, q⟩ := ended
      obtain ⟨hq, hpart⟩ := ht.ends p hp r q hstep
      rw [seq_visits_of_ended hstep, Ledger.faithful_append, ← hpart]
      exact ⟨ht.visits p hp, (hf r).visits q hq⟩
  ends p hp r' q' h := by
    change Step.seq t.step (fun r => (f r).step) p = _ at h
    unfold Step.seq at h
    cases hstep : t.step p with
    | none =>
      rw [hstep] at h
      cases h
    | some ended =>
      obtain ⟨r, q⟩ := ended
      rw [hstep] at h
      obtain ⟨hq, hpart⟩ := ht.ends p hp r q hstep
      obtain ⟨hq', hpart'⟩ := (hf r).ends q hq r' q' h
      rw [seq_visits_of_ended hstep, Ledger.after_append, ← hpart]
      exact ⟨hq', hpart'⟩

theorem balanced_choose {f : Progress → Tour α} (h : ∀ p, Balanced L base within (f p)) :
    Balanced L base within (choose f) where
  visits p := (h p).visits p
  ends p := (h p).ends p

/-- A plan is balanced if the tours of its bodies are. -/
theorem balanced_plan {body other : Scopes → Tour String}
    (hbody : ∀ s, Balanced L base within (body s)) (hother : ∀ s, Balanced L base within (other s))
    (plan : Plan) : Balanced L base within (plan.tour body other) := by
  induction plan with
  | done result => exact balanced_still result
  | body scopes resume ih => exact balanced_seq (hbody scopes) ih
  | other scopes resume ih => exact balanced_seq (hother scopes) ih

/-- A visit at which nothing changes keeps the balance. -/
theorem balanced_visiting {n : Node} {scopes : Scopes} {t : Tour α}
    (hn : ∀ p, L.book (L.part p) ⟨within, n, scopes, p⟩ = L.part p)
    (ht : Balanced L base within t) : Balanced L base within (visiting within n scopes t) where
  visits p hp := by
    refine ⟨rfl, hp, ?_⟩
    rw [hn]
    exact ht.visits p hp
  ends p hp r q h := by
    change _ ∧ _ = L.after (L.book _ _) (t.visits p)
    rw [hn]
    exact ht.ends p hp r q h

end Tour

open Tour (Balanced)

section

variable {σ : Type} {L : Ledger σ} {setting : Setting} {guide : Guide} {base : Nat}
  {within : List String}

/-- While the nodes of an include are rendered, one more include is open, and it is closed again
whether they end with a text or with a fault. -/
theorem balanced_inclusion (hL : L.Lawful setting) (name : String)
    (hguide : ∀ nodes scopes, Balanced L base (name :: within) (guide nodes scopes (name :: within)))
    (context : Option Param) (scopes : Scopes) :
    Balanced L base within (.visiting within (.inclusion name context) scopes
      (setting.tourInclude guide name context scopes within)) := by
  have hinner : ∀ p, Stands base within p → p.openIncludes < Fault.includeLimit →
      Stands base (name :: within)
        ((p.asking setting name).withOpen (p.openIncludes + 1)) := by
    intro p hp hlimit
    refine ⟨?_, fun _ => hlimit⟩
    change p.openIncludes + 1 = base + (within.length + 1)
    rw [hp.count, Nat.add_assoc]
  constructor
  · intro p hp
    refine ⟨rfl, hp, ?_⟩
    cases p.includeWay setting name with
    | refused hlimit =>
      rw [tourInclude_visits_refused guide context scopes within hlimit]
      trivial
    | missing _ hanswer =>
      rw [tourInclude_visits_missing guide context scopes within hanswer]
      trivial
    | @found hlimit nodes hanswer =>
      rw [tourInclude_visits_found guide context scopes within hlimit hanswer,
        hL.asking _ _ _ _ _ hlimit, ← hL.opened]
      exact (hguide nodes _).visits _ (hinner p hp hlimit)
  · intro p hp r q h
    change _ ∧ L.part q =
      L.after (L.book (L.part p) _) ((setting.tourInclude guide name context scopes within).visits p)
    change (setting.tourInclude guide name context scopes within).step p = _ at h
    rw [tourInclude_step] at h
    cases p.includeWay setting name with
    | refused hlimit =>
      rw [runInclude_refused _ context scopes hlimit] at h
      cases h
      rw [hL.refused _ _ _ _ _ hlimit, tourInclude_visits_refused guide context scopes within hlimit]
      exact ⟨hp, rfl⟩
    | missing hlimit hanswer =>
      rw [runInclude_missing _ context scopes hlimit hanswer] at h
      cases h
      rw [hL.asking _ _ _ _ _ hlimit, tourInclude_visits_missing guide context scopes within hanswer]
      exact ⟨⟨hp.count, hp.limit⟩, rfl⟩
    | @found hlimit nodes hanswer =>
      rw [runInclude_found _ context scopes hlimit hanswer] at h
      rw [hL.asking _ _ _ _ _ hlimit,
        tourInclude_visits_found guide context scopes within hlimit hanswer]
      unfold Step.seq at h
      split at h
      next => cases h
      next r₁ q₁ hstep =>
        cases h
        -- Closing the include sets the open includes back to what they were, whatever `q₁` has.
        obtain ⟨-, hends⟩ := (hguide nodes _).ends _ (hinner p hp hlimit) _ _ hstep
        rw [hL.opened] at hends ⊢
        exact ⟨⟨hp.count, hp.limit⟩, hends⟩

theorem balanced_override (hL : L.Lawful setting) (name : String) (body : List Node)
    (scopes : Scopes) :
    Balanced L base within (Tour.visiting within (.override name body) scopes
      (tourNode setting guide (.override name body) scopes within)) where
  visits p hp := ⟨rfl, hp, trivial⟩
  ends p hp r q h := by
    change some _ = _ at h
    cases h
    exact ⟨⟨hp.count, hp.limit⟩, (hL.override ..).symm⟩

theorem balanced_rules (hL : L.Lawful setting) (guide : Guide) (base : Nat) :
    Tour.Rules setting guide fun _ within => Balanced L base within where
  done := Tour.balanced_still
  seq := Tour.balanced_seq
  choose := Tour.balanced_choose
  visiting hn := Tour.balanced_visiting fun _ => hL.quiet hn
  block _ _ _ _ hbody hother :=
    Tour.balanced_visiting (fun _ => hL.quiet rfl) (Tour.balanced_plan hbody hother _)
  helper _ _ _ _ _ hbody hother := Tour.balanced_plan hbody hother _
  inclusion name context hguide :=
    balanced_inclusion hL name (fun nodes inner => hguide nodes inner _) context _
  override name body := balanced_override hL name body _

/-- A lawful ledger is balanced in every render. -/
theorem tour_balanced (hL : L.Lawful setting) (base budget : Nat) (nodes : List Node)
    (scopes : Scopes) (within : List String) :
    Balanced L base within (setting.tour budget nodes scopes within) := by
  refine tour_of_rules (P := fun _ within => Balanced L base within)
    (fun budget => balanced_rules hL _ base) (fun _ _ => ?_) budget nodes scopes within
  exact ⟨fun _ _ => trivial, fun _ _ _ _ h => by cases h⟩

end

end Stencil
