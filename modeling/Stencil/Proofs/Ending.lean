import Mathlib
import Stencil.Proofs.RenderRules
import Stencil.Proofs.Tours

/-!
# Renders end

An include goes on with nodes that have nothing to do with those at hand, and templates may include
each other, or themselves, in loops and in the bodies of helpers that swallow faults. What bounds
this is the limit of open includes: an include that is not refused has one more include open around
its nodes, until they are done. Everything else goes on with a part of the nodes at hand. So what
decreases is a pair, of which the first part counts for more: how many includes may still be opened,
and the size of the nodes (`Below`).

An override does not fit in. It brings nodes from somewhere else to a region without opening an
include, and two regions may lead to each other for ever. Where no override is come to, though, this
cannot happen:

> `renders_end`: if no text that a render can reach holds an override, the render ends, and every
> node that it comes to is below the nodes that it began with.

`Tour.Ends` is what is shown of tours, put together as they are: from progress in which so many
includes are open a tour ends, in such progress again, and its visits are below a bound.
-/

namespace Stencil

variable {α β : Type}

/-! ## What a render can reach -/

/-- No override stands in the nodes, at any depth. -/
def Node.Plain (nodes : List Node) : Prop := ∀ name body, ¬ (Node.override name body).Occurs nodes

/-- The texts that a render can reach from some progress: the nodes at hand, and the nodes of every
template that it opens, on whatever budget. -/
inductive Setting.Reaches (setting : Setting) (nodes : List Node) (scopes : Scopes) (p : Progress) :
    List Node → Prop where
  | start : Reaches setting nodes scopes p nodes
  | opened {budget v name context found} (hv : v ∈ setting.visits budget nodes scopes p)
      (hn : v.node = .inclusion name context)
      (hlimit : v.progress.openIncludes < Fault.includeLimit)
      (hanswer : p.shelf.answer setting.source name = .ok found) :
      Reaches setting nodes scopes p found

/-- The template that a visit opens, if any, is free of overrides. -/
def Visit.OpensPlain (setting : Setting) (shelf : Shelf) (v : Visit) : Prop :=
  ∀ name context found, v.node = .inclusion name context →
    v.progress.openIncludes < Fault.includeLimit →
    shelf.answer setting.source name = .ok found → Node.Plain found

/-! ## What decreases -/

/-- The visit comes to a node with fewer includes left to open, or with as many left and to a node
of a smaller size. -/
def Below (depth size : Nat) (v : Visit) : Prop :=
  Prod.Lex (· < ·) (· < ·) (Fault.includeLimit - v.progress.openIncludes, sizeOf v.node)
    (Fault.includeLimit - depth, size)

theorem Below.mono {depth size size' : Nat} {v : Visit} (h : Below depth size v)
    (hle : size ≤ size') : Below depth size' v := by
  unfold Below at *
  rw [Prod.lex_def] at h ⊢
  exact h.imp_right fun h => ⟨h.1, Nat.lt_of_lt_of_le h.2 hle⟩

/-- What is below the nodes of an include that was opened is below all nodes outside it. -/
theorem Below.outside {depth size size' : Nat} {v : Visit} (h : Below (depth + 1) size v)
    (hlimit : depth < Fault.includeLimit) : Below depth size' v := by
  unfold Below at *
  rw [Prod.lex_def] at h ⊢
  dsimp only at h ⊢
  omega

theorem Node.sizeOf_lt_of_mem_bodies {n : Node} {body : List Node} (h : body ∈ n.bodies) :
    sizeOf body < sizeOf n := by
  cases n with
  | text | lookup | call | inclusion => cases h
  | region name other | override name other =>
    obtain rfl := List.mem_singleton.1 h
    simp
  | block k param other inverse | helperBlock name params named other inverse =>
    rcases List.mem_cons.1 h with rfl | h
    · simp
      omega
    · cases inverse with
      | none => cases h
      | some second =>
        obtain rfl := List.mem_singleton.1 h
        simp
        omega

/-! ## Tours that end -/

namespace Tour

/-- From some progress the tour ends in progress with `I`, and its visits have `B`, provided that
each of them has `C`. -/
def EndsFrom (C B : Visit → Prop) (I : Progress → Prop) (t : Tour α) (p : Progress) : Prop :=
  (∀ v ∈ t.visits p, C v) → (∃ r q, t.step p = some (r, q) ∧ I q) ∧ ∀ v ∈ t.visits p, B v

/-- From all progress with `I` the tour ends in progress with `I`. -/
def Ends (C B : Visit → Prop) (I : Progress → Prop) (t : Tour α) : Prop :=
  ∀ p, I p → EndsFrom C B I t p

variable {C B B' : Visit → Prop} {I : Progress → Prop}

theorem Ends.mono {t : Tour α} (h : Ends C B I t) (hB : ∀ v, B v → B' v) : Ends C B' I t :=
  fun p hp hC => ⟨(h p hp hC).1, fun v hv => hB v ((h p hp hC).2 v hv)⟩

theorem ends_still (r : Except Fault α) : Ends C B I (still fun p => some (r, p)) :=
  fun p hp _ => ⟨⟨r, p, rfl, hp⟩, fun _ hv => by cases hv⟩

theorem ends_seq {t : Tour α} {f : Except Fault α → Tour β} (h : Ends C B I t)
    (hnext : ∀ r, Ends C B I (f r)) : Ends C B I (seq t f) := by
  intro p hp hC
  have hfirst : ∀ v ∈ t.visits p, C v := by
    intro v hv
    exact hC v (List.mem_append_left _ hv)
  obtain ⟨⟨r, q, hstep, hq⟩, hbelow⟩ := h p hp hfirst
  rw [seq_visits_of_ended hstep] at hC ⊢
  obtain ⟨⟨r', q', hstep', hq'⟩, hbelow'⟩ :=
    hnext r q hq fun v hv => hC v (List.mem_append_right _ hv)
  refine ⟨⟨r', q', ?_, hq'⟩, fun v hv => ?_⟩
  · change Step.seq t.step (fun r => (f r).step) p = _
    simp only [Step.seq, hstep, hstep']
  · rcases List.mem_append.1 hv with hv | hv
    · exact hbelow v hv
    · exact hbelow' v hv

theorem ends_bind {t : Tour α} {f : α → Tour β} (h : Ends C B I t)
    (hnext : ∀ x, Ends C B I (f x)) : Ends C B I (bind t f) := by
  refine ends_seq h fun r => ?_
  cases r with
  | ok x => exact hnext x
  | error e => exact ends_still (.error e)

theorem ends_plan {body other : Scopes → Tour String} (hbody : ∀ s, Ends C B I (body s))
    (hother : ∀ s, Ends C B I (other s)) (plan : Plan) : Ends C B I (plan.tour body other) := by
  induction plan with
  | done result => exact ends_still result
  | body scopes resume ih => exact ends_seq (hbody scopes) ih
  | other scopes resume ih => exact ends_seq (hother scopes) ih

theorem ends_of_visit {within : List String} {n : Node} {scopes : Scopes} {t : Tour α}
    (hB : ∀ p, I p → B ⟨within, n, scopes, p⟩)
    (h : ∀ p, I p → C ⟨within, n, scopes, p⟩ → EndsFrom C B I t p) :
    Ends C B I (visiting within n scopes t) := by
  intro p hp hC
  obtain ⟨hends, hbelow⟩ := h p hp (hC _ (List.mem_cons_self ..)) fun v hv =>
    hC v (List.mem_cons_of_mem _ hv)
  refine ⟨hends, fun v hv => ?_⟩
  rcases List.mem_cons.1 hv with rfl | hv
  · exact hB p hp
  · exact hbelow v hv

end Tour

open Tour (Ends EndsFrom)

/-- Progress with a number of includes open, without overrides, and with a shelf that answers as
another one does. -/
structure Clear (setting : Setting) (shelf : Shelf) (depth : Nat) (p : Progress) : Prop where
  overrides : p.overrides = []
  openIncludes : p.openIncludes = depth
  answers : ∀ name, p.shelf.answer setting.source name = shelf.answer setting.source name

/-- From progress without overrides the tour ends, as many includes open as before, and what it
visits is below nodes of a size; provided that no template that it opens holds an override. -/
abbrev Descends (setting : Setting) (shelf : Shelf) (depth size : Nat) (t : Tour String) : Prop :=
  Ends (Visit.OpensPlain setting shelf) (Below depth size) (Clear setting shelf depth) t

section

variable {setting : Setting} {shelf : Shelf} {guide : Guide} {depth : Nat}

theorem Clear.asking {p : Progress} (h : Clear setting shelf depth p) (name : String) :
    Clear setting shelf depth (p.asking setting name) :=
  { h with answers := fun other => (Shelf.answer_load other).trans (h.answers other) }

theorem Clear.withOpen {p : Progress} (h : Clear setting shelf depth p) (other : Nat) :
    Clear setting shelf other (p.withOpen other) :=
  { h with openIncludes := rfl }

/-- An include ends if the nodes of its template do, one level further in. -/
theorem tourInclude_endsFrom {size : Nat} {name : String} {within : List String}
    (hguide : depth < Fault.includeLimit → ∀ found, Node.Plain found → ∀ inner,
      Descends setting shelf (depth + 1) (sizeOf found) (guide found inner (name :: within)))
    {context : Option Param} {scopes : Scopes} {p : Progress} (hp : Clear setting shelf depth p)
    (hvisit : Visit.OpensPlain setting shelf ⟨within, .inclusion name context, scopes, p⟩) :
    EndsFrom (Visit.OpensPlain setting shelf) (Below depth size) (Clear setting shelf depth)
      (setting.tourInclude guide name context scopes within) p := by
  intro hC
  rw [tourInclude_step]
  cases p.includeWay setting name with
  | refused hlimit =>
    rw [runInclude_refused _ _ _ hlimit, tourInclude_visits_refused _ _ _ _ hlimit]
    exact ⟨⟨_, _, rfl, hp⟩, fun _ hv => by cases hv⟩
  | missing hlimit hanswer =>
    rw [runInclude_missing _ _ _ hlimit hanswer, tourInclude_visits_missing _ _ _ _ hanswer]
    exact ⟨⟨_, _, rfl, hp.asking name⟩, fun _ hv => by cases hv⟩
  | @found hlimit found hanswer =>
    have hplain := hvisit name context found rfl hlimit ((hp.answers name).symm.trans hanswer)
    rw [tourInclude_visits_found _ _ _ _ hlimit hanswer] at hC ⊢
    rw [runInclude_found _ _ _ hlimit hanswer]
    rw [hp.openIncludes] at hlimit hC ⊢
    obtain ⟨⟨r, q, hstep, hq⟩, hbelow⟩ :=
      hguide hlimit found hplain _ _ ((hp.asking name).withOpen (depth + 1)) hC
    refine ⟨⟨r, q.withOpen depth, ?_, hq.withOpen depth⟩, fun v hv => ?_⟩
    · simp only [Step.seq, hstep]
    · exact (hbelow v hv).outside hlimit

/-- A region that no override stands for ends if its own nodes do. -/
theorem tourRegion_endsFrom {size : Nat} {name : String} {body : List Node} {scopes : Scopes}
    {within : List String} {p : Progress} (hp : Clear setting shelf depth p)
    (hbody : Descends setting shelf depth size (tourNodes setting guide body scopes within)) :
    EndsFrom (Visit.OpensPlain setting shelf) (Below depth size) (Clear setting shelf depth)
      (tourNode setting guide (.region name body) scopes within) p := by
  have hown : p.overrides.get? name = none := by
    rw [hp.overrides]
    rfl
  have hends := hbody p hp
  unfold EndsFrom at hends ⊢
  rw [tourNode]
  simp only [Tour.choose, hown]
  exact hends

/-- One level of the recursion: nodes without overrides end if those of the templates that they
open do. -/
theorem tourNodes_descends
    (hguide : depth < Fault.includeLimit → ∀ found, Node.Plain found → ∀ inner within,
      Descends setting shelf (depth + 1) (sizeOf found) (guide found inner within))
    (nodes : List Node) (hnodes : Node.Plain nodes) :
    ∀ scopes within,
      Descends setting shelf depth (sizeOf nodes) (tourNodes setting guide nodes scopes within) := by
  induction nodes using Node.induction with
  | nil =>
    intro scopes within
    rw [tourNodes]
    exact Tour.ends_still (.ok "")
  | cons n rest ihbody ihrest =>
    intro scopes within
    -- The rest and the bodies are smaller; what an include opens need not be, but is one deeper.
    have hrest : Descends setting shelf depth (sizeOf (n :: rest))
        (tourNodes setting guide rest scopes within) := by
      refine (ihrest (fun name body h => hnodes name body h.tail) scopes within).mono
        fun v hv => hv.mono ?_
      simp
    have hbody : ∀ body ∈ n.bodies, ∀ inner, Descends setting shelf depth (sizeOf (n :: rest))
        (tourNodes setting guide body inner within) := by
      intro body hmem inner
      have hplain : Node.Plain body := fun name other h => hnodes name other (h.inBody hmem)
      have hsize := Node.sizeOf_lt_of_mem_bodies hmem
      refine (ihbody body hmem hplain inner within).mono fun v hv => hv.mono ?_
      simp
      omega
    have hother : ∀ (body : List Node) (inverse : Option (List Node)),
        (∀ ns ∈ body :: inverse.toList, ns ∈ n.bodies) → ∀ inner,
          Descends setting shelf depth (sizeOf (n :: rest))
            (tourOther setting guide inverse inner within) := by
      intro body inverse hmem inner
      cases inverse with
      | none => exact Tour.ends_still (.ok "")
      | some other => exact hbody other (hmem other (by simp)) inner
    have hnode : ∀ p, Clear setting shelf depth p →
        Visit.OpensPlain setting shelf ⟨within, n, scopes, p⟩ →
        EndsFrom (Visit.OpensPlain setting shelf) (Below depth (sizeOf (n :: rest)))
          (Clear setting shelf depth) (tourNode setting guide n scopes within) p := by
      intro p hp hvisit
      cases n with
      | text s =>
        rw [tourNode]
        exact Tour.ends_still (.ok s) p hp
      | lookup path escape =>
        rw [tourNode]
        exact Tour.ends_still (.ok _) p hp
      | block k param body inverse =>
        rw [tourNode_block]
        refine Tour.ends_plan (hbody body (by simp [Node.bodies])) ?_ _ p hp
        exact hother body inverse (by simp [Node.bodies])
      | helperBlock name params named body inverse =>
        rw [tourNode_helperBlock]
        refine Tour.ends_plan (hbody body (by simp [Node.bodies])) ?_ _ p hp
        exact hother body inverse (by simp [Node.bodies])
      | call name params named escape =>
        rw [tourNode]
        refine Tour.ends_plan (fun _ => ?_) (fun _ => ?_) _ p hp
        · exact Tour.ends_still (.ok "")
        · exact Tour.ends_still (.ok "")
      | inclusion name context =>
        rw [tourNode]
        exact tourInclude_endsFrom (fun hlimit found hplain inner =>
          hguide hlimit found hplain inner _) hp hvisit
      | region name body => exact tourRegion_endsFrom hp (hbody body (by simp [Node.bodies]) scopes)
      | override name body => exact absurd .head (hnodes name body)
    rw [tourNodes]
    refine Tour.ends_bind (Tour.ends_of_visit (fun p hp => ?_) hnode) fun s =>
      Tour.ends_bind hrest fun t => Tour.ends_still (.ok (s ++ t))
    unfold Below
    rw [hp.openIncludes]
    refine .right _ ?_
    simp
    omega

/-- All levels of the recursion: one for the nodes at hand, and as many as includes may still be
opened. -/
theorem tour_descends {levels : Nat} (hlevels : Fault.includeLimit ≤ depth + levels)
    {nodes : List Node} (hnodes : Node.Plain nodes) (scopes : Scopes) (within : List String) :
    Descends setting shelf depth (sizeOf nodes)
      (setting.tour (levels + 1) nodes scopes within) := by
  induction levels generalizing depth nodes scopes within with
  | zero =>
    refine tourNodes_descends (fun hlimit => ?_) nodes hnodes scopes within
    exact absurd hlevels (Nat.not_le.2 hlimit)
  | succ levels ih =>
    refine tourNodes_descends (fun _ found hfound inner within => ?_) nodes hnodes scopes within
    exact ih (by omega) hfound inner within

/-- A budget above the number of includes that may still be opened is enough. -/
theorem expand_ends {budget : Nat} {nodes : List Node} {scopes : Scopes} {p : Progress}
    (hp : p.overrides = []) (h : ∀ text, setting.Reaches nodes scopes p text → Node.Plain text)
    (hbudget : Fault.includeLimit - p.openIncludes < budget) :
    (∃ r q, setting.expand budget nodes scopes p = some (r, q)) ∧
      ∀ v ∈ setting.visits budget nodes scopes p, Below p.openIncludes (sizeOf nodes) v := by
  obtain ⟨levels, rfl⟩ : ∃ levels, budget = levels + 1 := ⟨budget - 1, by omega⟩
  have hlevels : Fault.includeLimit ≤ p.openIncludes + levels := by omega
  have hclear : Clear setting p.shelf p.openIncludes p := ⟨hp, rfl, fun _ => rfl⟩
  obtain ⟨⟨r, q, hstep, -⟩, hbelow⟩ :=
    tour_descends hlevels (h nodes .start) scopes [] p hclear
      fun v hv name context found hn hlimit hanswer => h found (.opened hv hn hlimit hanswer)
  rw [tour_step] at hstep
  exact ⟨⟨r, q, hstep⟩, hbelow⟩

end

/-- **Renders end.** If no text that a render can reach holds an override, it has a result: a text
or a fault. More generally, so have nodes that are rendered from any progress without overrides, and
it is the same on every budget above the number of includes that may still be opened; every node
that is come to has fewer includes left to open, or as many left and a smaller size than the
nodes at the start. -/
theorem renders_end (setting : Setting) (nodes : List Node) (scopes : Scopes) :
    (∀ shelf, (∀ text, setting.Reaches nodes scopes (.start shelf) text → Node.Plain text) →
      ∃ r shelf', setting.render nodes scopes shelf = some (r, shelf')) ∧
    ∀ p, p.overrides = [] → (∀ text, setting.Reaches nodes scopes p text → Node.Plain text) →
      ∃ r q, ∀ budget, Fault.includeLimit - p.openIncludes < budget →
        setting.expand budget nodes scopes p = some (r, q) ∧
        ∀ v ∈ setting.visits budget nodes scopes p,
          Prod.Lex (· < ·) (· < ·)
            (Fault.includeLimit - v.progress.openIncludes, sizeOf v.node)
            (Fault.includeLimit - p.openIncludes, sizeOf nodes) := by
  constructor
  · intro shelf h
    have hbudget : Fault.includeLimit - (Progress.start shelf).openIncludes < expansionBudget := by
      change Fault.includeLimit - 0 < expansionBudget
      decide
    obtain ⟨⟨r, q, hend⟩, -⟩ := expand_ends rfl h hbudget
    exact ⟨r, q.shelf, by rw [render_eq, hend]; rfl⟩
  · intro p hp h
    obtain ⟨⟨r, q, hend⟩, -⟩ := expand_ends hp h (Nat.lt_succ_self _)
    refine ⟨r, q, fun budget hbudget => ⟨expand_mono hbudget hend, ?_⟩⟩
    exact (expand_ends hp h hbudget).2

/-- Two templates that include each other, one of them twice and in a loop, the other one in a
region and in the body of a helper that swallows every fault; and a source in which every name is
one of them. -/
theorem renders_end_of_mutual_includes :
    let quiet : Helper := fun _ => .body .null fun _ => .answerText ""
    let one := "\x7b\x7b#each this\x7d\x7d" ++ "\x7b\x7b> two\x7d\x7d\x7b\x7b> two\x7d\x7d" ++
      "\x7b\x7b/each\x7d\x7d"
    let two := "\x7b\x7b#block 'b'\x7d\x7d\x7b\x7b#quiet\x7d\x7d" ++ "\x7b\x7b> one\x7d\x7d" ++
      "\x7b\x7b/quiet\x7d\x7d\x7b\x7b/block\x7d\x7d"
    let read : Reader := fun name => .ok (if name = "one" then one else two)
    let setting : Setting := ⟨[("quiet", quiet)], .default, some read, true⟩
    let nodes : List Node := [.inclusion "one" none]
    let scopes := Scopes.root (.list [.list [.str "a", .str "b"], .str "c"])
    (∀ text, setting.Reaches nodes scopes (.start .empty) text → Node.Plain text) ∧
      ∃ r shelf, setting.render nodes scopes .empty = some (r, shelf) := by
  intro quiet one two read setting nodes scopes
  have hone : parse one = .ok
      [.block .each (.path (.this [])) [.inclusion "two" none, .inclusion "two" none] none] := by
    cbv
  have htwo : parse two =
      .ok [.region "b" [.helperBlock "quiet" [] [] [.inclusion "one" none] none]] := by
    cbv
  have hplain : ∀ text, setting.Reaches nodes scopes (.start .empty) text → Node.Plain text := by
    intro text h
    cases h with
    | start => simp [Node.Plain, nodes, Node.bodies]
    | @opened _ _ name _ _ _ _ _ hanswer =>
      change (Except.ok (if name = "one" then _ else _) >>= parse) = _ at hanswer
      change parse (if name = "one" then _ else _) = _ at hanswer
      split at hanswer
      next =>
        rw [hone] at hanswer
        cases hanswer
        simp [Node.Plain, Node.bodies]
      next =>
        rw [htwo] at hanswer
        cases hanswer
        simp [Node.Plain, Node.bodies]
  exact ⟨hplain, (renders_end setting nodes scopes).1 .empty hplain⟩

end Stencil
