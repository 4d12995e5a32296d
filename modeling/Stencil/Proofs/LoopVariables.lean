import Mathlib
import Stencil.Proofs.Loops

/-!
# What the loop variables say inside of loops

The scopes of a render are its own business: blocks, includes, overrides and helpers open them on
the way, and templates see only what can be looked up there. Of everything that opens a scope, only
loops bind variables. So the variables at a place are those of the innermost loop around it, which
`Tour`s can tell apart from the scopes: a place is in a turn of a loop if it is visited while the
body is rendered for this turn (`TurnOf`).

> `visits_covered`: a place is in a turn of a loop that was opened since the start, or else all
> scopes opened since the start bind nothing.
> `loop_variables_of_innermost`: inside of loops, the loop variables are those of the innermost
> turn; but a loop over a list has no keys, and so the key there is what it is around the loop.
-/

namespace Stencil

/-! ## Scopes that bind nothing -/

/-- Scopes that stand inside others and bind nothing of their own. -/
def Scopes.Bare (start s : Scopes) : Prop :=
  ∃ opened, s.toList = opened ++ start.toList ∧ ∀ f ∈ opened, f.bound = []

namespace Scopes.Bare

variable {start s t : Scopes}

theorem refl (s : Scopes) : Bare s s := ⟨[], rfl, by simp⟩

theorem push_of (h : Bare start s) (subject : Value) : Bare start (s.push (.of subject)) := by
  obtain ⟨opened, hs, hopened⟩ := h
  refine ⟨.of subject :: opened, congrArg (_ :: ·) hs, fun f hf => ?_⟩
  rcases List.mem_cons.1 hf with rfl | hf
  · rfl
  · exact hopened f hf

theorem trans (h : Bare start s) (hs : Bare s t) : Bare start t := by
  obtain ⟨opened, heq, hopened⟩ := h
  obtain ⟨opened', heq', hopened'⟩ := hs
  refine ⟨opened' ++ opened, by rw [heq', heq, List.append_assoc], fun f hf => ?_⟩
  rcases List.mem_append.1 hf with hf | hf
  · exact hopened' f hf
  · exact hopened f hf

/-- Through scopes that bind nothing, variables are seen as they are. -/
theorem lookup_bound (h : Bare start s) (chain : Chain) (name : String) :
    s.lookup chain (.bound name) = start.lookup chain (.bound name) := by
  obtain ⟨opened, hs, hopened⟩ := h
  have hnone : (opened.findSome? fun f => Table.get? f.bound name) = none :=
    List.findSome?_eq_none_iff.2 fun f hf => by rw [hopened f hf]; rfl
  rw [Scopes.lookup_bound, Scopes.lookup_bound, hs, List.findSome?_append, hnone, Option.none_or]

/-- An include opens a scope only for a subject of its own. -/
theorem scopesWithin (setting : Setting) (context : Option Param) (s : Scopes) :
    Bare s (setting.scopesWithin context s) := by
  cases context with
  | none => exact refl s
  | some param => exact (refl s).push_of _

end Scopes.Bare

open Scopes (Bare)

/-! ## Turns among visits -/

/-- Among the visits of a render, `inside` are those made in one turn of the loop visited at `w`:
the turn at an index among `count` items, with a key if the loop goes over a map. The turns before
it have ended with a text, and it begins with the progress that they have left. -/
inductive TurnOf (setting : Setting) (visits : List Visit) (w : Visit) (index count : Nat)
    (key : Option String) (inside : List Visit) : Prop where
  | intro (budget : Nat) (done rest : List Scope) (before after : List Visit) {param : Param}
      {body : List Node} {inverse : Option (List Node)} {item : Value} {turn : Scope}
      {texts : List String} {q : Progress} {earlier : List Visit}
      (hnode : w.node = .block .each param body inverse)
      (hcount : (loopItems (w.scopes.eval setting.chain param)).length = count)
      (hitem : (loopItems (w.scopes.eval setting.chain param))[index]? = some (item, key))
      (hturns : iterations (w.scopes.eval setting.chain param) = done ++ turn :: rest)
      (hindex : done.length = index)
      (hdone : Tour.Turns (fun inner => setting.tour (budget + 1) body inner w.within)
        (done.map w.scopes.push) w.progress texts earlier q)
      (hinside : (setting.tour (budget + 1) body (w.scopes.push turn) w.within).visits q = inside)
      (hvisits : visits = before ++ w :: earlier ++ inside ++ after)

/-- The visit is in no turn of a loop that is among the visits. -/
def OutOfLoops (setting : Setting) (visits : List Visit) (v : Visit) : Prop :=
  ∀ w index count key inside, TurnOf setting visits w index count key inside → v ∉ inside

section

variable {setting : Setting} {visits : List Visit} {w v : Visit} {index count : Nat}
  {key : Option String} {inside : List Visit}

/-- A turn among visits is one among more visits. -/
theorem TurnOf.mono (h : TurnOf setting visits w index count key inside) (pre post : List Visit) :
    TurnOf setting (pre ++ visits ++ post) w index count key inside := by
  cases h with
  | intro budget done rest before after hnode hcount hitem hturns hindex hdone hinside hvisits =>
    refine .intro budget done rest (pre ++ before) (after ++ post) hnode hcount hitem hturns hindex
      hdone hinside ?_
    rw [hvisits]
    simp only [List.append_assoc, List.cons_append]

/-- The visits of a turn are some of the visits, and not all. -/
theorem TurnOf.split (h : TurnOf setting visits w index count key inside) :
    ∃ pre post, visits = pre ++ inside ++ post ∧ inside.length < visits.length := by
  cases h with
  | intro budget done rest before after hnode hcount hitem hturns hindex hdone hinside hvisits =>
    refine ⟨_, after, hvisits, ?_⟩
    rw [hvisits]
    simp only [List.length_append, List.length_cons]
    omega

/-- A visit is in no loop, or there is an innermost one. -/
theorem outOfLoops_or_innermost (setting : Setting) (v : Visit) (visits : List Visit) :
    OutOfLoops setting visits v ∨ ∃ w index count key inside,
      TurnOf setting visits w index count key inside ∧ v ∈ inside ∧
        OutOfLoops setting inside v := by
  induction hn : visits.length using Nat.strongRecOn generalizing visits with
  | _ n ih =>
    by_cases hout : OutOfLoops setting visits v
    · exact .inl hout
    · -- In a turn, go on with the visits of that turn, which are fewer.
      simp only [OutOfLoops, not_forall, not_not] at hout
      obtain ⟨w, index, count, key, inside, hturn, hv⟩ := hout
      obtain ⟨pre, post, rfl, hlt⟩ := hturn.split
      rcases ih _ (hn ▸ hlt) inside rfl with hinside |
        ⟨w', index', count', key', inside', hturn', hv', hinside'⟩
      · exact .inr ⟨w, index, count, key, inside, hturn, hv, hinside⟩
      · exact .inr ⟨w', index', count', key', inside', hturn'.mono pre post, hv', hinside'⟩

end

/-! ## Every place is covered -/

/-- Each of the visits is in a turn of a loop among them, or else its scopes are bare inside those
at the start. -/
def Covered (setting : Setting) (start : Scopes) (visits : List Visit) : Prop :=
  ∀ v ∈ visits, Bare start v.scopes ∨ ∃ w index count key inside,
    TurnOf setting visits w index count key inside ∧ v ∈ inside

namespace Covered

variable {setting : Setting} {start s : Scopes} {vs ws : List Visit}

theorem nil : Covered setting start [] := by simp [Covered]

theorem append (hvs : Covered setting start vs) (hws : Covered setting start ws) :
    Covered setting start (vs ++ ws) := by
  intro v hv
  rcases List.mem_append.1 hv with hv | hv
  · refine (hvs v hv).imp_right fun ⟨w, index, count, key, inside, hturn, hv⟩ => ?_
    exact ⟨w, index, count, key, inside, by simpa using hturn.mono [] ws, hv⟩
  · refine (hws v hv).imp_right fun ⟨w, index, count, key, inside, hturn, hv⟩ => ?_
    exact ⟨w, index, count, key, inside, by simpa using hturn.mono vs [], hv⟩

theorem singleton {v : Visit} (h : Bare start v.scopes) : Covered setting start [v] := by
  intro w hw
  rw [List.mem_singleton.1 hw]
  exact .inl h

theorem of_bare (h : Bare start s) (hvs : Covered setting s vs) : Covered setting start vs :=
  fun v hv => (hvs v hv).imp_left h.trans

end Covered

namespace Tour

variable {α β : Type} {setting : Setting} {start : Scopes}

/-- The visits of a tour are covered, whatever the progress before it is. -/
def Covers (setting : Setting) (start : Scopes) (t : Tour α) : Prop :=
  ∀ p, Covered setting start (t.visits p)

theorem covers_still (s : Step α) : Covers setting start (still s) := fun _ => .nil

theorem covers_seq {t : Tour α} {f : Except Fault α → Tour β} (ht : Covers setting start t)
    (hf : ∀ r, Covers setting start (f r)) : Covers setting start (seq t f) := by
  intro p
  cases hstep : t.step p with
  | none =>
    rw [seq_visits_of_endless hstep]
    exact ht p
  | some ended =>
    obtain ⟨r, q⟩ := ended
    rw [seq_visits_of_ended hstep]
    exact (ht p).append (hf r q)

theorem covers_choose {f : Progress → Tour α} (h : ∀ p, Covers setting start (f p)) :
    Covers setting start (choose f) := fun p => h p p

theorem covers_visiting (within : List String) (n : Node) {t : Tour α}
    (ht : Covers setting start t) : Covers setting start (visiting within n start t) :=
  fun p => Covered.append (.singleton (.refl start)) (ht p)

end Tour

open Tour (Covers)

/-! ### Plans -/

/-- All scopes in which a plan has bodies rendered have a property. -/
inductive Plan.In (P : Scopes → Prop) : Plan → Prop where
  | done (result : Except Fault String) : In P (.done result)
  | body {scopes : Scopes} {resume : Except Fault String → Plan} (hscopes : P scopes)
      (hresume : ∀ r, In P (resume r)) : In P (.body scopes resume)
  | other {scopes : Scopes} {resume : Except Fault String → Plan} (hscopes : P scopes)
      (hresume : ∀ r, In P (resume r)) : In P (.other scopes resume)

namespace Plan

variable {P : Scopes → Prop}

theorem in_row {finish : String → Plan} {inner : List Scopes} (hinner : ∀ s ∈ inner, P s)
    (hfinish : ∀ t, In P (finish t)) : In P (row finish inner) := by
  induction inner generalizing finish with
  | nil => exact hfinish ""
  | cons scopes rest ih =>
    obtain ⟨hscopes, hrest⟩ := List.forall_mem_cons.1 hinner
    refine .body hscopes fun r => ?_
    cases r with
    | ok s => exact ih hrest fun t => hfinish (s ++ t)
    | error e => exact .done _

/-- A helper opens bare scopes for its bodies. -/
theorem in_ofScript (scopes : Scopes) (escape : Bool) (script : Script) :
    In (Bare scopes) (ofScript scopes escape script) := by
  induction script with
  | done result => exact .done _
  | body subject resume ih => exact .body ((Bare.refl scopes).push_of subject) ih
  | inverse resume ih => exact .other ((Bare.refl scopes).push_of _) ih

theorem in_helperPlan (setting : Setting) (name : String) (params : List Param)
    (named : Table Param) (isBlock escape : Bool) (scopes : Scopes) :
    In (Bare scopes) (setting.helperPlan name params named isBlock escape scopes) := by
  unfold Setting.helperPlan
  cases setting.helpers.get? name with
  | none => exact .done _
  | some helper => exact in_ofScript ..

/-- A block that is no loop opens bare scopes, and so does a loop that takes no turn. -/
theorem in_blockPlan {setting : Setting} {k : Keyword} {param : Param} {scopes : Scopes}
    (h : k = .each → iterations (scopes.eval setting.chain param) = []) :
    In (Bare scopes) (setting.blockPlan k param scopes) := by
  have hinner : ∀ s ∈ setting.innerScopes k param scopes, Bare scopes s := by
    have hpush : ∀ subject, Bare scopes (scopes.push (.of subject)) := (Bare.refl scopes).push_of
    unfold Setting.innerScopes
    cases k with
    | whenTrue =>
      dsimp only
      split
      · simpa using hpush _
      · simp
    | whenFalse =>
      dsimp only
      split
      · simp
      · simpa using hpush _
    | within =>
      dsimp only
      cases scopes.eval setting.chain param with
      | none => simp
      | some v => simpa using hpush v
    | each => simp [h rfl]
  unfold Setting.blockPlan
  split
  · exact .other (.refl scopes) fun r => .done r
  · exact in_row hinner fun t => .done _

/-- A plan that has its bodies rendered in bare scopes covers what their tours cover. -/
theorem covers_tour {setting : Setting} {start : Scopes} {body other : Scopes → Tour String}
    (hbody : ∀ s, Covers setting s (body s)) (hother : ∀ s, Covers setting s (other s))
    {plan : Plan} (h : In (Bare start) plan) : Covers setting start (plan.tour body other) := by
  induction h with
  | done result => exact Tour.covers_still _
  | body hscopes hresume ih => exact Tour.covers_seq (fun p => .of_bare hscopes (hbody _ p)) ih
  | other hscopes hresume ih => exact Tour.covers_seq (fun p => .of_bare hscopes (hother _ p)) ih

end Plan

/-! ### Nodes -/

section

variable {setting : Setting}

/-- A loop covers what it visits: it is visited in a turn. -/
theorem covers_each {budget : Nat} {param : Param} (body : List Node)
    (inverse : Option (List Node)) (other : Scopes → Tour String) {scopes : Scopes}
    (within : List String) (h : iterations (scopes.eval setting.chain param) ≠ []) :
    Covers setting scopes (.visiting within (.block .each param body inverse) scopes
      ((setting.blockPlan .each param scopes).tour
        (fun inner => setting.tour (budget + 1) body inner within) other)) := by
  intro p v hv
  rcases List.mem_cons.1 hv with rfl | hv
  · exact .inl (.refl scopes)
  · rw [blockPlan_each setting scopes param h] at hv
    obtain ⟨done, inner, rest, texts, earlier, q, after, hinner, hdone, hv, hvisits⟩ :=
      (Plan.tour_row other _ p).inTurn hv
    -- The row of turns is split at this one, and so are the scopes that the loop goes through.
    obtain ⟨done, rest', hturns, rfl, hrest⟩ := List.map_eq_append_iff.1 hinner
    obtain ⟨turn, rest, rfl, rfl, rfl⟩ := List.map_eq_cons_iff.1 hrest
    have hareTurns := iterations_turns (scopes.eval setting.chain param)
    have hlt : done.length < (loopItems (scopes.eval setting.chain param)).length := by
      rw [← hareTurns.1, hturns, List.length_append, List.length_cons]
      omega
    obtain ⟨⟨item, key⟩, hitem⟩ :
        ∃ e, (loopItems (scopes.eval setting.chain param))[done.length]? = some e :=
      ⟨_, List.getElem?_eq_getElem hlt⟩
    refine .inr ⟨⟨within, .block .each param body inverse, scopes, p⟩, done.length,
      (loopItems (scopes.eval setting.chain param)).length, key, _, ?_, hv⟩
    refine .intro budget done rest [] after rfl rfl hitem hturns rfl hdone rfl ?_
    rw [blockPlan_each setting scopes param h]
    exact congrArg (_ :: ·) hvisits

/-- An include covers what the nodes of its template cover. -/
theorem covers_tourInclude {guide : Guide} (name : String)
    (hguide : ∀ nodes scopes within, Covers setting scopes (guide nodes scopes within))
    (context : Option Param) (scopes : Scopes) (within : List String) :
    Covers setting scopes (setting.tourInclude guide name context scopes within) := by
  intro p
  cases p.includeWay setting name with
  | refused hlimit =>
    rw [tourInclude_visits_refused guide context scopes within hlimit]
    exact .nil
  | missing _ hanswer =>
    rw [tourInclude_visits_missing guide context scopes within hanswer]
    exact .nil
  | @found hlimit nodes hanswer =>
    rw [tourInclude_visits_found guide context scopes within hlimit hanswer]
    exact .of_bare (.scopesWithin setting context scopes) (hguide nodes _ _ _)

theorem covers_rules (setting : Setting) (budget : Nat) :
    Tour.Rules setting (setting.tour budget) fun scopes _ => Covers setting scopes where
  done _ := Tour.covers_still _
  seq := Tour.covers_seq
  choose := Tour.covers_choose
  visiting _ := Tour.covers_visiting _ _
  block {scopes within other} k param body inverse hbody hother := by
    -- Only a loop that takes a turn opens a scope that binds something.
    by_cases h : k = .each → iterations (scopes.eval setting.chain param) = []
    · exact Tour.covers_visiting _ _ (Plan.covers_tour hbody hother (Plan.in_blockPlan h))
    · obtain ⟨rfl, hturns⟩ := Classical.not_imp.1 h
      exact covers_each body inverse other within hturns
  helper _ _ _ _ _ hbody hother := Plan.covers_tour hbody hother (Plan.in_helperPlan ..)
  inclusion name context hguide :=
    Tour.covers_visiting _ _ (covers_tourInclude name hguide context _ _)
  override _ _ := Tour.covers_visiting _ _ (Tour.covers_still _)

/-- Every place that a render comes to is in a turn of a loop, or else all scopes opened since the
start bind nothing. -/
theorem visits_covered (setting : Setting) (budget : Nat) (nodes : List Node) (scopes : Scopes)
    (within : List String) : Covers setting scopes (setting.tour budget nodes scopes within) :=
  tour_of_rules (P := fun scopes _ => Covers setting scopes) (covers_rules setting)
    (fun _ _ => Tour.covers_still _) budget nodes scopes within

/-- Out of all loops that were opened since the start, variables are what they were there. -/
theorem lookup_bound_of_outOfLoops {budget : Nat} {nodes : List Node} {start : Scopes}
    {within : List String} {p : Progress} {v : Visit}
    (hv : v ∈ (setting.tour budget nodes start within).visits p)
    (hout : OutOfLoops setting ((setting.tour budget nodes start within).visits p) v)
    (name : String) :
    v.scopes.lookup setting.chain (.bound name) = start.lookup setting.chain (.bound name) := by
  rcases visits_covered setting budget nodes start within p v hv with hbare |
    ⟨w, index, count, key, inside, hturn, hinside⟩
  · exact hbare.lookup_bound setting.chain name
  · exact absurd hinside (hout w index count key inside hturn)

end

/-- What a turn does not bind is what it is around the loop, and the loop variables are those of the
turn, wherever no other loop is opened inside of it. -/
theorem TurnOf.lookup_bound {setting : Setting} {visits : List Visit} {w v : Visit}
    {index count : Nat} {key : Option String} {inside : List Visit}
    (h : TurnOf setting visits w index count key inside) (hv : v ∈ inside)
    (hout : OutOfLoops setting inside v) :
    (∀ name value, (name, value) ∈ loopVariables index count key →
      v.scopes.lookup setting.chain (.bound name) = value) ∧
    ∀ name, name ∉ (loopVariables index count key).keys →
      v.scopes.lookup setting.chain (.bound name) =
        w.scopes.lookup setting.chain (.bound name) := by
  cases h with
  | @intro budget done rest before after param body inverse item turn texts q earlier hnode hcount
      hitem hturns hindex hdone hinside hvisits =>
    subst hinside hindex
    have hturn : turn.IsTurn item (loopVariables done.length count key) := by
      rw [← hcount]
      refine (iterations_turns _).2 done.length turn item key ?_ hitem
      rw [hturns, List.getElem?_append_right (Nat.le_refl _), Nat.sub_self, List.getElem?_cons_zero]
    have hbody := fun name => lookup_bound_of_outOfLoops hv hout name
    refine ⟨fun name value hmem => ?_, fun name hname => ?_⟩
    · rw [hbody, hturn.shows _ _ _ _ hmem]
    · rw [hbody, hturn.passes _ _ _ hname]

/-- **Inside of loops, the loop variables are those of the innermost turn.** A place that a render
comes to is in no loop opened since the start, or there is an innermost turn around it. In no loop,
variables are what they are at the start. In a turn, and in no other inside of it, the loop
variables tell the item of this turn, whatever the loops further out have bound; and what is no loop
variable of this loop is what it is around the loop. A loop over a list has no keys: there the key
is that of a loop further out, if one has keys. -/
theorem loop_variables_of_innermost (setting : Setting) (budget : Nat) (nodes : List Node)
    (start : Scopes) (p : Progress) :
    let visits := setting.visits budget nodes start p
    (∀ v ∈ visits, OutOfLoops setting visits v ∨ ∃ w index count key inside,
      TurnOf setting visits w index count key inside ∧ v ∈ inside ∧
        OutOfLoops setting inside v) ∧
    (∀ v ∈ visits, OutOfLoops setting visits v → ∀ name,
      v.scopes.lookup setting.chain (.bound name) = start.lookup setting.chain (.bound name)) ∧
    ∀ w index count key inside, TurnOf setting visits w index count key inside →
      ∀ v ∈ inside, OutOfLoops setting inside v →
        (∀ name value, (name, value) ∈ loopVariables index count key →
          v.scopes.lookup setting.chain (.bound name) = value) ∧
        ∀ name, name ∉ (loopVariables index count key).keys →
          v.scopes.lookup setting.chain (.bound name) =
            w.scopes.lookup setting.chain (.bound name) := by
  intro visits
  refine ⟨fun v _ => outOfLoops_or_innermost setting v visits,
    fun v hv hout name => lookup_bound_of_outOfLoops hv hout name, ?_⟩
  intro w index count key inside hturn v hv hout
  exact hturn.lookup_bound hv hout

/-- A list in a map: the index is that of the item in the list, and the key is that of the entry. -/
theorem loop_variables_of_innermost_of_list_in_map :
    let setting : Setting := ⟨[], .default, none, false⟩
    let start := Scopes.root (.map [("m", .map [("k", .list [.str "a"])])])
    let shown : Node := .lookup (.bound "index") true
    let inner : Node := .block .each (.path (.this [])) [shown] none
    let outer : Node := .block .each (.path (.named "m" [])) [inner] none
    let visits := setting.visits 1 [outer] start (.start .empty)
    ∃ u w v, visits = [u, w, v] ∧ v.node = shown ∧ TurnOf setting visits w 0 1 none [v] ∧
      OutOfLoops setting [v] v ∧
      v.scopes.lookup setting.chain (.bound "index") = some (.u64 0) ∧
      v.scopes.lookup setting.chain (.bound "key") =
        w.scopes.lookup setting.chain (.bound "key") := by
  intro setting start shown inner outer visits
  obtain ⟨-, -, hlaw⟩ := loop_variables_of_innermost setting 1 [outer] start (.start .empty)
  obtain ⟨u, w, v, hvisits, hv, hturn⟩ : ∃ u w v, visits = [u, w, v] ∧ v.node = shown ∧
      TurnOf setting visits w 0 1 none [v] := by
    refine ⟨_, _, _, rfl, rfl, ?_⟩
    exact .intro 0 [] [] [_] [] rfl rfl rfl rfl rfl (.nil _) rfl rfl
  have hout : OutOfLoops setting [v] v := by
    intro w' index count key inside hinside hmem
    obtain ⟨-, -, -, hlt⟩ := hinside.split
    rw [List.length_singleton, Nat.lt_one_iff] at hlt
    rw [List.length_eq_zero_iff.1 hlt] at hmem
    cases hmem
  obtain ⟨hshows, hpasses⟩ := hlaw w 0 1 none [v] hturn v (List.mem_singleton.2 rfl) hout
  exact ⟨u, w, v, hvisits, hv, hturn, hout,
    hshows "index" (some (.u64 0)) (by simp [loopVariables]), hpasses "key" (by decide)⟩

/-- The key of a map shows through a loop over a list, though the loop has no keys. -/
theorem list_in_map_shows_outer_key :
    let setting : Setting := ⟨[], .default, none, false⟩
    let model : Value := .map [("m", .map [("k", .list [.i64 1])])]
    let list : Node := .block .each (.path (.this [])) [.lookup (.bound "key") true] none
    let nodes : List Node := [.block .each (.path (.named "m" [])) [list] none]
    let text := "\x7b\x7b#each m\x7d\x7d\x7b\x7b#each this\x7d\x7d\x7b\x7b@key\x7d\x7d" ++
      "\x7b\x7b/each\x7d\x7d\x7b\x7b/each\x7d\x7d"
    parse text = .ok nodes ∧
      (setting.expand 1 nodes (.root model) (.start .empty)).map Prod.fst = some (.ok "k") := by
  intro setting model list nodes text
  exact ⟨by cbv, by cbv⟩

end Stencil
