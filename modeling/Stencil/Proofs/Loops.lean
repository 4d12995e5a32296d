import Mathlib
import Stencil.Proofs.LookUps
import Stencil.Proofs.Rearranged
import Stencil.Proofs.Tours

/-!
# Loops

A loop has its body rendered once for every item. Two things are to be said of it. The first is
about the scopes of the turns: inside each of them the loop variables tell at which item the loop
is, whatever is bound further out, and nothing else is hidden (`Scope.IsTurn`, `iterations_turns`).
The second is about the order: a turn begins where the one before it has ended, with the overrides
declared until then, and after a turn that has no text no other is begun (`Tour.Row`). The relation
`Tour.Turns` says what turns in a row come to without speaking of the loop that takes them.

> `each_takes_turns`: over a list that is not empty a loop takes one turn for each item, in order;
> over a map that is not empty, one for each entry, in ascending order of the keys; and over
> anything else it shows its second body in the scopes at hand.
-/

namespace Stencil

/-! ## Turns in a row -/

namespace Tour

section

variable {β : Type} (f : β → Tour String)

/-- Turns that all end with a text, each from the progress that the one before it has left. Told
are the texts, the visits, and the progress at the end. -/
inductive Turns : List β → Progress → List String → List Visit → Progress → Prop where
  | nil (p : Progress) : Turns [] p [] [] p
  | cons {x : β} {rest : List β} {p q r : Progress} {s : String} {texts : List String}
      {visits : List Visit} (hturn : (f x).step p = some (.ok s, q))
      (hrest : Turns rest q texts visits r) :
      Turns (x :: rest) p (s :: texts) ((f x).visits p ++ visits) r

/-- The tour ends with a fault, or has no result at all. -/
def Breaks (t : Tour String) (p : Progress) : Prop := ∀ s q, t.step p ≠ some (.ok s, q)

/-- What a row of turns visits and ends with: the texts of all turns in a row, or else whatever
the first turn without a text ends with. No turn behind that one is begun. -/
inductive Row (xs : List β) (p : Progress) :
    List Visit → Option (Except Fault String × Progress) → Prop where
  | all {texts : List String} {visits : List Visit} {q : Progress}
      (hturns : Turns f xs p texts visits q) : Row xs p visits (some (.ok (String.join texts), q))
  | broken {done rest : List β} {x : β} {texts : List String} {visits : List Visit} {q : Progress}
      (hxs : xs = done ++ x :: rest) (hdone : Turns f done p texts visits q)
      (hbreaks : (f x).Breaks q) : Row xs p (visits ++ (f x).visits q) ((f x).step q)

variable {f}

/-- Either all turns end with a text, or there is a first one that does not. -/
theorem turns_or_breaks (xs : List β) (p : Progress) :
    (∃ texts visits q, Turns f xs p texts visits q) ∨
      ∃ done x rest texts visits q, xs = done ++ x :: rest ∧ Turns f done p texts visits q ∧
        (f x).Breaks q := by
  induction xs generalizing p with
  | nil => exact .inl ⟨[], [], p, .nil p⟩
  | cons x rest ih =>
    by_cases hx : (f x).Breaks p
    · exact .inr ⟨[], x, rest, [], [], p, rfl, .nil p, hx⟩
    · simp only [Breaks, not_forall, not_not] at hx
      obtain ⟨s, q, hturn⟩ := hx
      rcases ih q with ⟨texts, visits, r, hrest⟩ |
        ⟨done, y, after, texts, visits, r, rfl, hdone, hy⟩
      · exact .inl ⟨_, _, r, .cons hturn hrest⟩
      · exact .inr ⟨x :: done, y, after, _, _, r, rfl, .cons hturn hdone, hy⟩

/-- The visit is made in one of the turns, after those before it have ended with a text. -/
def InTurn (f : β → Tour String) (xs : List β) (p : Progress) (visits : List Visit)
    (v : Visit) : Prop :=
  ∃ done x rest texts earlier q after, xs = done ++ x :: rest ∧
    Turns f done p texts earlier q ∧ v ∈ (f x).visits q ∧
      visits = earlier ++ (f x).visits q ++ after

theorem Turns.inTurn {xs : List β} {p r : Progress} {texts : List String} {visits : List Visit}
    (h : Turns f xs p texts visits r) {v : Visit} (hv : v ∈ visits) : InTurn f xs p visits v := by
  induction h with
  | nil p => cases hv
  | @cons x rest p q r s texts visits hturn hrest ih =>
    rcases List.mem_append.1 hv with hv | hv
    · exact ⟨[], x, rest, [], [], p, visits, rfl, .nil p, hv, rfl⟩
    · obtain ⟨done, y, after, _, _, q', later, rfl, hdone, hy, rfl⟩ := ih hv
      refine ⟨x :: done, y, after, _, _, q', later, rfl, .cons hturn hdone, hy, ?_⟩
      simp only [List.append_assoc]

/-- Whatever a row of turns comes to, it comes to in one of them. -/
theorem Row.inTurn {xs : List β} {p : Progress} {visits : List Visit}
    {ends : Option (Except Fault String × Progress)} (h : Row f xs p visits ends) {v : Visit}
    (hv : v ∈ visits) : InTurn f xs p visits v := by
  cases h with
  | all hturns => exact hturns.inTurn hv
  | @broken done rest x texts earlier q hxs hdone hbreaks =>
    rcases List.mem_append.1 hv with hv | hv
    · obtain ⟨done', y, rest', texts', earlier', q', after, rfl, hdone', hy, rfl⟩ :=
        hdone.inTurn hv
      refine ⟨done', y, rest' ++ x :: rest, texts', earlier', q', after ++ (f x).visits q, ?_,
        hdone', hy, ?_⟩
      · rw [hxs, List.append_assoc, List.cons_append]
      · rw [List.append_assoc]
    · exact ⟨done, x, rest, texts, earlier, q, [], hxs, hdone, hv, (List.append_nil _).symm⟩

/-- After a turn that breaks off nothing goes on with a text. -/
theorem seq_of_breaks {t : Tour String} {g : Except Fault String → Tour String} {p : Progress}
    (h : t.Breaks p) (hg : ∀ e, g (.error e) = still fun q => some (.error e, q)) :
    (seq t g).step p = t.step p ∧ (seq t g).visits p = t.visits p := by
  cases hstep : t.step p with
  | none =>
    refine ⟨?_, seq_visits_of_endless hstep⟩
    simp only [seq, Step.seq, hstep]
  | some ended =>
    obtain ⟨r, q⟩ := ended
    cases r with
    | ok s => exact absurd hstep (h s q)
    | error e =>
      rw [seq_visits_of_ended hstep, hg]
      simp only [seq, Step.seq, hstep, hg, still, List.append_nil, and_self]

end

end Tour

open Tour (Turns Row)

section

variable {body : Scopes → Tour String} (other : Scopes → Tour String)

/-- A plan for bodies in a row has come, after the first of them, to a plan for the others. -/
theorem Plan.tour_row_of_turns {done : List Scopes} {p q : Progress} {texts : List String}
    {visits : List Visit} (h : Turns body done p texts visits q) :
    ∀ (rest : List Scopes) (finish : String → Plan),
      let after := (row (fun t => finish (String.join texts ++ t)) rest).tour body other
      ((row finish (done ++ rest)).tour body other).step p = after.step q ∧
        ((row finish (done ++ rest)).tour body other).visits p = visits ++ after.visits q := by
  -- By induction on the turns taken: the text of each goes over into `finish`.
  induction h with
  | nil p =>
    intro rest finish
    simp only [String.join_nil, String.empty_append, List.nil_append, and_self]
  | cons hturn hrest ih =>
    intro rest finish
    obtain ⟨hstep, hvisits⟩ := ih rest fun t => finish (_ ++ t)
    simp only [String.join_cons, String.append_assoc]
    constructor
    · rw [← hstep]
      simp only [List.cons_append, row, tour, Tour.seq, Step.seq, hturn]
      rfl
    · rw [List.append_assoc, ← hvisits]
      simp only [List.cons_append, row, tour, Tour.seq_visits_of_ended hturn]
      rfl

/-- The tour of a plan for bodies in a row is a row of turns. -/
theorem Plan.tour_row (inner : List Scopes) (p : Progress) :
    let t := (row (fun s => .done (.ok s)) inner).tour body other
    Row body inner p (t.visits p) (t.step p) := by
  intro t
  rcases Tour.turns_or_breaks (f := body) inner p with ⟨texts, visits, q, hturns⟩ |
    ⟨done, x, rest, texts, visits, q, rfl, hdone, hbreaks⟩
  · obtain ⟨hstep, hvisits⟩ :=
      tour_row_of_turns other hturns [] fun s => .done (.ok s)
    rw [List.append_nil] at hstep hvisits
    have hvisits' : t.visits p = visits := hvisits.trans (List.append_nil visits)
    have hstep' : t.step p = some (.ok (String.join texts), q) := by
      rw [← String.append_empty (s := String.join texts)]
      exact hstep
    rw [hstep', hvisits']
    exact .all hturns
  · obtain ⟨hstep, hvisits⟩ :=
      tour_row_of_turns other hdone (x :: rest) fun s => .done (.ok s)
    obtain ⟨hbrokenStep, hbrokenVisits⟩ :=
      Tour.seq_of_breaks (g := fun r => (onText (fun s => row (fun t =>
        .done (.ok (String.join texts ++ (s ++ t)))) rest) r).tour body other) hbreaks fun e => rfl
    have hstep' : t.step p = (body x).step q := hstep.trans hbrokenStep
    have hvisits' : t.visits p = visits ++ (body x).visits q :=
      hvisits.trans (congrArg (visits ++ ·) hbrokenVisits)
    rw [hstep', hvisits']
    exact .broken rfl hdone hbreaks

end

/-! ## The scope of a turn -/

/-- What the loop variables are at an index among `count` items, `none` for those that are absent
there. In a map each item has a key. The numbers have 64 bits, enough for the items of any list. -/
def loopVariables (index count : Nat) (key : Option String) : Table (Option Value) :=
  [("index", some (.u64 (.ofNat index))), ("index_1", some (.u64 (.ofNat (index + 1)))),
    ("first", if index = 0 then some (.str "first") else none),
    ("last", if index + 1 = count then some (.str "last") else none),
    ("odd", if index % 2 = 1 then some (.str "odd") else none),
    ("even", if index % 2 = 0 then some (.str "even") else none)] ++
  (key.map fun k => ("key", some (.str k))).toList

/-- In the scope of a turn the item is the subject, the loop variables are as they should be,
whatever the scopes around the loop bind, and all other variables are what they are around it. -/
structure Scope.IsTurn (turn : Scope) (item : Value) (loopVars : Table (Option Value)) : Prop where
  subject : turn.subject = item
  shows : ∀ (scopes : Scopes) chain name value, (name, value) ∈ loopVars →
    (scopes.push turn).lookup chain (.bound name) = value
  passes : ∀ (scopes : Scopes) chain name, name ∉ loopVars.keys →
    (scopes.push turn).lookup chain (.bound name) = scopes.lookup chain (.bound name)

/-- The scopes are those of the turns over items, in order; the items of a map have keys. -/
def AreTurns (turns : List Scope) (items : List (Value × Option String)) : Prop :=
  turns.length = items.length ∧
    ∀ (index : Nat) (turn : Scope) item key, turns[index]? = some turn →
      items[index]? = some (item, key) → turn.IsTurn item (loopVariables index items.length key)

/-- What a loop over a value goes through. -/
def loopItems : Option Value → List (Value × Option String)
  | some (.list items) => items.map fun item => (item, none)
  | some (.map entries) => (Table.sorted entries).map fun entry => (entry.2, some entry.1)
  | _ => []

theorem Scopes.lookup_push_bound (scopes : Scopes) (turn : Scope) (chain : Chain) (name : String) :
    (scopes.push turn).lookup chain (.bound name) =
      match Table.get? turn.bound name with
      | some v => v.nonNull
      | none => scopes.lookup chain (.bound name) := rfl

/-- A scope is that of a turn if it binds each loop variable once, the absent ones to null, and
nothing else. -/
theorem Scope.isTurn_of_bindings {turn : Scope} {loopVars : Table (Option Value)}
    (h : Table.mapValues Value.nonNull turn.bindings = loopVars) (hnodup : loopVars.keys.Nodup) :
    turn.IsTurn turn.subject loopVars := by
  have hkeys : loopVars.keys = (Table.keys turn.bound).reverse := by
    rw [← h, Table.keys_mapValues, bindings, Table.keys, List.map_reverse]
    rfl
  refine ⟨rfl, fun scopes chain name value hmem => ?_, fun scopes chain name hname => ?_⟩
  · obtain ⟨⟨other, v⟩, hv, heq⟩ := List.mem_map.1 (h ▸ hmem)
    obtain ⟨rfl, rfl⟩ := Prod.mk.inj heq
    have hbound : Table.get? turn.bound other = some v := by
      rw [hkeys, List.nodup_reverse] at hnodup
      exact Table.get?_of_mem hnodup (List.mem_reverse.1 hv)
    rw [Scopes.lookup_push_bound, hbound]
  · rw [hkeys, List.mem_reverse, ← Table.get?_eq_none_iff] at hname
    rw [Scopes.lookup_push_bound, hname]

theorem nonNull_marker (on : Bool) (text : String) :
    (marker on text).nonNull = if on = true then some (.str text) else none := by
  cases on <;> rfl

theorem bindings_iteration (item : Value) (index count : Nat) :
    Table.mapValues Value.nonNull (iteration item index count).bindings =
      loopVariables index count none := by
  have hindex : ∀ n, (Value.u64 n).nonNull = some (.u64 n) := fun _ => rfl
  simp only [iteration, Scope.bindings_bind, Scope.bindings_of, Table.mapValues, nonNull_marker,
    loopVariables, hindex, beq_iff_eq, List.map_append, List.map_cons, List.map_nil]
  rfl

theorem nodup_keys_loopVariables (index count : Nat) (key : Option String) :
    (loopVariables index count key).keys.Nodup := by
  cases key with
  | none => exact (by decide : ["index", "index_1", "first", "last", "odd", "even"].Nodup)
  | some k => exact (by decide : ["index", "index_1", "first", "last", "odd", "even", "key"].Nodup)

theorem iteration_isTurn (item : Value) (index count : Nat) :
    (iteration item index count).IsTurn item (loopVariables index count none) :=
  Scope.isTurn_of_bindings (bindings_iteration item index count) (nodup_keys_loopVariables ..)

theorem iteration_bind_isTurn (item : Value) (index count : Nat) (key : String) :
    ((iteration item index count).bind "key" (.str key)).IsTurn item
      (loopVariables index count (some key)) := by
  refine Scope.isTurn_of_bindings ?_ (nodup_keys_loopVariables ..)
  rw [Scope.bindings_bind, Table.mapValues, List.map_append]
  exact congrArg (· ++ _) (bindings_iteration item index count)

theorem itemScopes_eq (count index : Nat) (items : List Value) :
    itemScopes count index items =
      items.mapIdx fun i item => iteration item (index + i) count := by
  induction items generalizing index with
  | nil => rfl
  | cons item rest ih =>
    rw [itemScopes, ih, List.mapIdx_cons]
    simp only [Nat.add_zero, Nat.add_assoc, Nat.add_comm 1]

theorem entryScopes_eq (count index : Nat) (entries : Table Value) :
    entryScopes count index entries = entries.mapIdx fun i entry =>
      (iteration entry.2 (index + i) count).bind "key" (.str entry.1) := by
  induction entries generalizing index with
  | nil => rfl
  | cons entry rest ih =>
    rw [entryScopes, ih, List.mapIdx_cons]
    simp only [Nat.add_zero, Nat.add_assoc, Nat.add_comm 1]

theorem areTurns_mapIdx {α : Type} (xs : List α) (item : α → Value × Option String)
    {scope : Nat → α → Scope}
    (h : ∀ i x, (scope i x).IsTurn (item x).1 (loopVariables i xs.length (item x).2)) :
    AreTurns (xs.mapIdx scope) (xs.map item) := by
  refine ⟨by simp, fun index turn v key hturn hitem => ?_⟩
  simp only [List.getElem?_mapIdx, List.getElem?_map, Option.map_eq_some_iff] at hturn hitem
  obtain ⟨x, hx, rfl⟩ := hturn
  obtain ⟨y, hy, heq⟩ := hitem
  obtain rfl := Option.some.inj (hx.symm.trans hy)
  have hturn := h index x
  rw [heq] at hturn
  rwa [List.length_map]

/-- A loop goes through the scopes of the turns over its items. -/
theorem iterations_turns (value : Option Value) :
    AreTurns (iterations value) (loopItems value) := by
  have hnone : AreTurns [] [] := ⟨rfl, fun index turn item key hturn => by cases hturn⟩
  cases value with
  | none => exact hnone
  | some v =>
    cases v with
    | list items =>
      simp only [iterations, loopItems, itemScopes_eq, Nat.zero_add]
      exact areTurns_mapIdx items _ fun i item => iteration_isTurn item i items.length
    | map entries =>
      simp only [iterations, loopItems, entryScopes_eq, Nat.zero_add]
      rw [← (Table.perm_sorted entries).length_eq]
      exact areTurns_mapIdx (Table.sorted entries) _ fun i entry =>
        iteration_bind_isTurn entry.2 i (Table.sorted entries).length entry.1
    | _ => exact hnone

/-! ## Loops and their turns -/

/-- The visit to the node with which a render begins. -/
def Visit.first (n : Node) (scopes : Scopes) (p : Progress) : Visit := ⟨[], n, scopes, p⟩

section

variable (setting : Setting) (budget : Nat) (scopes : Scopes) (p : Progress)

/-- A render of one node is the tour of that node, after the visit to it. -/
theorem tour_singleton (n : Node) :
    let t := tourNode setting (setting.tour budget) n scopes []
    setting.expand (budget + 1) [n] scopes p = t.step p ∧
      setting.visits (budget + 1) [n] scopes p = .first n scopes p :: t.visits p := by
  intro t
  have hnodes : setting.tour (budget + 1) [n] scopes [] =
      .bind (.visiting [] n scopes t) fun s =>
        .bind (.still (Step.pure "")) fun u => .still (Step.pure (s ++ u)) := by
    change tourNodes .. = _
    rw [tourNodes, tourNodes]
  constructor
  · rw [← tour_step setting (budget + 1) [n] scopes [], hnodes]
    simp only [Tour.bind_step, Tour.still, Step.pure_bind, String.append_empty, Tour.visiting]
    exact congrFun (Step.bind_pure t.step) p
  · rw [Setting.visits, hnodes, Tour.bind, Tour.seq_visits_of_still]
    · rfl
    · intro r q
      cases r with
      | ok s => rfl
      | error e => rfl

variable (k : Keyword) (param : Param) (body : List Node) (inverse : Option (List Node))

/-- A block of the language visits and ends with what its plan says. -/
theorem tour_block :
    let plan := (setting.blockPlan k param scopes).tour
      (fun inner => setting.tour (budget + 1) body inner [])
      fun inner => setting.tour (budget + 1) (inverse.getD []) inner []
    setting.expand (budget + 1) [.block k param body inverse] scopes p = plan.step p ∧
      setting.visits (budget + 1) [.block k param body inverse] scopes p =
        .first (.block k param body inverse) scopes p :: plan.visits p := by
  intro plan
  have hother : (fun inner => tourOther setting (setting.tour budget) inverse inner []) =
      fun inner => setting.tour (budget + 1) (inverse.getD []) inner [] := by
    funext inner
    change tourOther .. = tourNodes ..
    cases inverse with
    | none => exact (tourNodes.eq_1 ..).symm
    | some nodes => rfl
  have hplan : tourNode setting (setting.tour budget) (.block k param body inverse) scopes [] =
      plan := by
    rw [tourNode_block, hother]
    rfl
  rw [← hplan]
  exact tour_singleton ..

theorem innerScopes_each :
    setting.innerScopes .each param scopes =
      (iterations (scopes.eval setting.chain param)).map scopes.push := rfl

/-- The plan of a loop that has a turn to take. -/
theorem blockPlan_each (h : iterations (scopes.eval setting.chain param) ≠ []) :
    setting.blockPlan .each param scopes =
      .row (fun s => .done (.ok s))
        ((iterations (scopes.eval setting.chain param)).map scopes.push) := by
  rw [Setting.blockPlan, innerScopes_each]
  cases hturns : iterations (scopes.eval setting.chain param) with
  | nil => exact absurd hturns h
  | cons turn rest => rfl

/-- A loop that has a turn to take takes its turns in a row. -/
theorem each_row (h : iterations (scopes.eval setting.chain param) ≠ []) :
    ∃ inside, setting.visits (budget + 1) [.block .each param body inverse] scopes p =
        .first (.block .each param body inverse) scopes p :: inside ∧
      Row (fun inner => setting.tour (budget + 1) body inner [])
        ((iterations (scopes.eval setting.chain param)).map scopes.push) p inside
        (setting.expand (budget + 1) [.block .each param body inverse] scopes p) := by
  obtain ⟨hends, hvisits⟩ := tour_block setting budget scopes p .each param body inverse
  rw [blockPlan_each setting scopes param h] at hends hvisits
  refine ⟨_, hvisits, ?_⟩
  rw [hends]
  exact Plan.tour_row _ _ p

/-- A loop without a turn shows its second body where it stands. -/
theorem each_other (h : iterations (scopes.eval setting.chain param) = []) :
    setting.expand (budget + 1) [.block .each param body inverse] scopes p =
        setting.expand (budget + 1) (inverse.getD []) scopes p ∧
      setting.visits (budget + 1) [.block .each param body inverse] scopes p =
        .first (.block .each param body inverse) scopes p ::
          setting.visits (budget + 1) (inverse.getD []) scopes p := by
  have hplan : setting.blockPlan .each param scopes = .other scopes .done := by
    rw [Setting.blockPlan, innerScopes_each, h]
    rfl
  obtain ⟨hends, hvisits⟩ := tour_block setting budget scopes p .each param body inverse
  rw [hplan] at hends hvisits
  rw [hends, hvisits]
  constructor
  · rw [Plan.tour_step, ← tour_step setting (budget + 1) (inverse.getD []) scopes []]
    exact congrFun (Step.seq_done _) p
  · refine congrArg (_ :: ·) ?_
    rw [Setting.visits, Plan.tour]
    exact Tour.seq_visits_of_still fun _ _ => rfl

end

theorem iterations_ne_nil {value : Option Value} (h : loopItems value ≠ []) :
    iterations value ≠ [] := by
  intro hnil
  have hlength := (iterations_turns value).1
  rw [hnil] at hlength
  exact h (List.length_eq_zero_iff.1 hlength.symm)

theorem iterations_eq_nil {value : Option Value}
    (hlist : ∀ items, value = some (.list items) → items = [])
    (hmap : ∀ entries, value = some (.map entries) → entries = []) : iterations value = [] := by
  cases value with
  | none => rfl
  | some v =>
    cases v with
    | list items =>
      rw [hlist items rfl]
      rfl
    | map entries =>
      rw [hmap entries rfl]
      rfl
    | _ => rfl

/-- **A loop takes a turn for each item, in order.** Over a list that is not empty there is one turn
for each item, and over a map that is not empty, one for each entry, in ascending order of the keys.
In the scope of a turn the item is the subject and the loop variables tell which item it is. The
texts of the turns in a row are the text of the loop, and each turn begins with the progress that
the one before it has left; but the first turn that fails ends the loop with its fault, and no other
is begun. Over anything else the loop shows its second body, in the scopes at hand. -/
theorem each_takes_turns (setting : Setting) (budget : Nat) (param : Param) (body : List Node)
    (inverse : Option (List Node)) (scopes : Scopes) (p : Progress) :
    let value := scopes.eval setting.chain param
    let each : Node := .block .each param body inverse
    let ends := setting.expand (budget + 1) [each] scopes p
    let visits := setting.visits (budget + 1) [each] scopes p
    let turn := fun inner => setting.tour (budget + 1) body inner []
    let takes (turns : List Scope) : Prop := ∃ inside, visits = .first each scopes p :: inside ∧
      Row turn (turns.map scopes.push) p inside ends
    (∀ inner, (turn inner).step = setting.expand (budget + 1) body inner) ∧
    (∀ items, value = some (.list items) → items ≠ [] → ∃ turns,
      AreTurns turns (items.map fun item => (item, none)) ∧ takes turns) ∧
    (∀ entries, value = some (.map entries) → entries ≠ [] → (Table.keys entries).Nodup →
      ∃ (ascending : List (String × Value)) (turns : List Scope),
        ascending.Perm entries ∧ ascending.Pairwise (fun e f => e.1 < f.1) ∧
        AreTurns turns (ascending.map fun e => (e.2, some e.1)) ∧ takes turns) ∧
    ((∀ items, value = some (.list items) → items = []) →
      (∀ entries, value = some (.map entries) → entries = []) →
      ends = setting.expand (budget + 1) (inverse.getD []) scopes p ∧
        visits =
          .first each scopes p :: setting.visits (budget + 1) (inverse.getD []) scopes p) := by
  intro value each ends visits turn takes
  have hturns := iterations_turns value
  have htakes : loopItems value ≠ [] → takes (iterations value) := fun h =>
    each_row setting budget scopes p param body inverse (iterations_ne_nil h)
  refine ⟨fun inner => tour_step setting (budget + 1) body inner [], fun items hvalue hne => ?_,
    fun entries hvalue hne hnodup => ?_, fun hlist hmap => ?_⟩
  · have hitems : loopItems value = items.map fun item => (item, none) := by rw [hvalue]; rfl
    rw [hitems] at hturns htakes
    exact ⟨iterations value, hturns, htakes (by simpa using hne)⟩
  · have hitems : loopItems value =
        (Table.sorted entries).map fun e => (e.2, some e.1) := by rw [hvalue]; rfl
    have hperm := Table.perm_sorted entries
    rw [hitems] at hturns htakes
    refine ⟨Table.sorted entries, iterations value, hperm, Table.pairwise_sorted hnodup, hturns,
      htakes fun hnil => hne ?_⟩
    rw [List.map_eq_nil_iff] at hnil
    rw [hnil] at hperm
    exact hperm.symm.eq_nil
  · exact each_other setting budget scopes p param body inverse (iterations_eq_nil hlist hmap)

/-- A list of two items, whose first turn declares an override that the second shows; a map whose
keys did not arrive in order; and nothing at all. -/
theorem each_takes_turns_of_list_and_map :
    let setting : Setting := ⟨[], .default, none, false⟩
    let items : List Value := [.str "a", .str "b"]
    let entries : Table Value := [("z", .str "1"), ("y", .str "2")]
    let scopes := Scopes.root (.map [("xs", .list items), ("m", .map entries)])
    let body : List Node := [.lookup (.bound "index_1") true, .region "r" [.lookup (.this []) true],
      .lookup (.bound "key") true, .override "r" [.lookup (.bound "last") true]]
    let each (name : String) : Node :=
      .block .each (.path (.named name [])) body (some [.text "none"])
    let p : Progress := .start .empty
    let takes (name : String) (turns : List Scope) : Prop := ∃ inside,
      setting.visits 2 [each name] scopes p = .first (each name) scopes p :: inside ∧
        Row (fun inner => setting.tour 2 body inner []) (turns.map scopes.push) p inside
          (setting.expand 2 [each name] scopes p)
    items ≠ [] ∧ (∃ turns, AreTurns turns (items.map fun item => (item, none)) ∧ takes "xs" turns) ∧
      entries ≠ [] ∧ (∃ (ascending : List (String × Value)) (turns : List Scope),
        ascending.Perm entries ∧ ascending.Pairwise (fun e f => e.1 < f.1) ∧
        AreTurns turns (ascending.map fun e => (e.2, some e.1)) ∧ takes "m" turns) ∧
      setting.expand 2 [each "other"] scopes p = setting.expand 2 [.text "none"] scopes p ∧
      (["xs", "m", "other"].map fun name => (setting.expand 2 [each name] scopes p).map Prod.fst) =
        [some (.ok "1a2last"), some (.ok "12y2lastz"), some (.ok "none")] := by
  intro setting items entries scopes body each p takes
  have hlaw (name : String) := each_takes_turns setting 1 (.path (.named name [])) body
    (some [.text "none"]) scopes p
  have hitems : items ≠ [] := List.cons_ne_nil _ _
  have hentries : entries ≠ [] := List.cons_ne_nil _ _
  refine ⟨hitems, (hlaw "xs").2.1 items (by cbv) hitems, hentries,
    (hlaw "m").2.2.1 entries (by cbv) hentries (by decide), ?_, by cbv⟩
  have habsent : scopes.eval setting.chain (.path (.named "other" [])) = none := by cbv
  exact ((hlaw "other").2.2.2 (fun _ h => by rw [habsent] at h; cases h)
    fun _ h => by rw [habsent] at h; cases h).1

end Stencil
