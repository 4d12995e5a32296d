import Stencil.Proofs.Ledgers

/-!
# The account of the overrides

Two parts of the progress of a render are hidden from the templates: the overrides declared so far
and the number of open includes. Both are accounted for by the visits. The overrides are what the
visited overrides leave behind, written one over another in the order of the visits (`declared`),
which is a ledger; and the number of open includes is that of the includes around the visited node
(`Stands`).

> `tour_accounts`: every render accounts for both by its visits, at each of them and at its end.
-/

namespace Stencil

/-! ## Overrides declared by visits -/

/-- The body that a visit declares under a name. -/
def Visit.overriding (name : String) (v : Visit) : Option (List Node) :=
  match v.node with
  | .override other body => if other = name then some body else none
  | _ => none

/-- The body of the most recent override of a name among visits. -/
def lastOverride (name : String) (vs : List Visit) : Option (List Node) :=
  vs.reverse.findSome? (Visit.overriding name)

/-- The overrides after a visit: only the visit to an override changes them. -/
def Visit.declare (os : Table (List Node)) (v : Visit) : Table (List Node) :=
  match v.node with
  | .override name body => os.insert name body
  | _ => os

/-- The overrides after visits in order. -/
def declared (os : Table (List Node)) (vs : List Visit) : Table (List Node) :=
  vs.foldl Visit.declare os

theorem get?_declare (os : Table (List Node)) (v : Visit) (name : String) :
    (v.declare os).get? name = (v.overriding name).or (os.get? name) := by
  unfold Visit.declare Visit.overriding
  cases v.node with
  | override other body =>
    dsimp only
    rw [Table.get?_insert]
    split
    next => rfl
    next => rfl
  | _ => rfl

theorem lastOverride_cons (name : String) (v : Visit) (vs : List Visit) :
    lastOverride name (v :: vs) = (lastOverride name vs).or (v.overriding name) := by
  unfold lastOverride
  rw [List.reverse_cons, List.findSome?_append, List.findSome?_singleton]

theorem lastOverride_append (name : String) (vs ws : List Visit) :
    lastOverride name (vs ++ ws) = (lastOverride name ws).or (lastOverride name vs) := by
  unfold lastOverride
  rw [List.reverse_append, List.findSome?_append]

/-- What stands under a name after visits is the body of its most recent override. -/
theorem get?_declared (os : Table (List Node)) (vs : List Visit) (name : String) :
    (declared os vs).get? name = (lastOverride name vs).or (os.get? name) := by
  induction vs generalizing os with
  | nil => rfl
  | cons v vs ih =>
    change (declared (v.declare os) vs).get? name = _
    rw [ih, get?_declare, lastOverride_cons, Option.or_assoc]

/-! ## The ledger -/

/-- The overrides, which change where an override is visited. -/
def Ledger.overrides : Ledger (Table (List Node)) := ⟨Progress.overrides, Visit.declare⟩

theorem Ledger.overrides_lawful (setting : Setting) : Ledger.overrides.Lawful setting where
  quiet {_ n _ _} hn := by
    cases n with
    | override name body => cases hn
    | _ => rfl
  override _ _ _ _ _ := rfl
  refused _ _ _ _ _ _ := rfl
  asking _ _ _ _ _ _ := rfl
  opened _ _ := rfl

/-- At each visit the overrides are those that the visits before it leave behind, and the open
includes are those around it. -/
def Faithful (base : Nat) (os : Table (List Node)) (vs : List Visit) : Prop :=
  Ledger.overrides.Faithful base os vs

theorem Faithful.at_visit {base : Nat} {os : Table (List Node)} {before after : List Visit}
    {v : Visit} (h : Faithful base os (before ++ v :: after)) :
    v.progress.overrides = declared os before ∧ Stands base v.within v.progress :=
  Ledger.Faithful.at_visit h

/-- The visits of a tour are faithful, and at its end the overrides are those that the visits leave
behind and the open includes are the same as before. -/
structure Tour.Accounts {α : Type} (base : Nat) (within : List String) (t : Tour α) : Prop where
  visits : ∀ p, Stands base within p → Faithful base p.overrides (t.visits p)
  ends : ∀ p, Stands base within p → ∀ r q, t.step p = some (r, q) →
    Stands base within q ∧ q.overrides = declared p.overrides (t.visits p)

/-- Every render accounts for its progress by its visits. -/
theorem tour_accounts (setting : Setting) (base budget : Nat) (nodes : List Node) (scopes : Scopes)
    (within : List String) :
    Tour.Accounts base within (setting.tour budget nodes scopes within) := by
  obtain ⟨hvisits, hends⟩ :=
    tour_balanced (Ledger.overrides_lawful setting) base budget nodes scopes within
  exact ⟨hvisits, hends⟩

end Stencil
