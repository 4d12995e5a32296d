import Mathlib
import Stencil.Proofs.Accounts

/-!
# What a region shows

The overrides of a render are hidden from its templates: includes, loops and the bodies that
helpers render all write to the same table. By the account that visits give of it
(`tour_accounts`), this table is at each moment what the overrides visited so far leave behind, one
written over another. So there is a law of regions that does not mention the table:

> `regions_show_last_override`: a region shows the body of the override of its name that was
> visited last before it, and its own body if there was none.

Nothing else takes part in it: not the text of the bodies in which the overrides stand, and not
whether rendering them ended with a fault.
-/

namespace Stencil

section

variable (setting : Setting) (budget : Nat)

/-- A region renders the override of its name, if there is one, in its own scopes. -/
theorem expand_region (name : String) (body : List Node) (scopes : Scopes) (p : Progress) :
    setting.expand (budget + 1) [.region name body] scopes p =
      match p.overrides.get? name with
      | some replacement => setting.expand budget replacement scopes p
      | none => setting.expand (budget + 1) body scopes p := by
  change renderNodes setting (setting.expand budget) [.region name body] scopes p = _
  rw [renderNodes_singleton, renderNode]
  rfl

/-- An override has no text, and it changes what stands under its own name alone. -/
theorem expand_override (name : String) (body : List Node) (scopes : Scopes) (p : Progress) :
    setting.expand (budget + 1) [.override name body] scopes p =
      some (.ok "", { p with overrides := p.overrides.insert name body }) := by
  change renderNodes setting (setting.expand budget) [.override name body] scopes p = _
  rw [renderNodes_singleton, renderNode]

end

/-- At the visits of a render from the start, the overrides are those visited before. -/
theorem overrides_at_visit {setting : Setting} {budget : Nat} {nodes : List Node} {scopes : Scopes}
    {shelf : Shelf} {before after : List Visit} {v : Visit}
    (h : setting.visits budget nodes scopes (.start shelf) = before ++ v :: after) (name : String) :
    v.progress.overrides.get? name = lastOverride name before := by
  have hfaithful := (tour_accounts setting 0 budget nodes scopes []).visits (.start shelf)
    ⟨rfl, fun h => absurd rfl h⟩
  change Faithful 0 [] (setting.visits budget nodes scopes (.start shelf)) at hfaithful
  rw [h] at hfaithful
  rw [hfaithful.at_visit.1, get?_declared]
  exact Option.or_none

/-- **A region shows the last override.** In every render from the start, a region that is come to
renders, in its own scopes, the body of the last override of its name among the visits before it,
and its own body if there is none; and an override that is come to renders nothing and changes no
other name's override. What is declared stays declared, at every later visit and at the end. -/
theorem regions_show_last_override (setting : Setting) (budget : Nat) (nodes : List Node)
    (scopes : Scopes) (shelf : Shelf) :
    let visits := setting.visits budget nodes scopes (.start shelf)
    (∀ before v after, visits = before ++ v :: after →
      (∀ name, v.progress.overrides.get? name = lastOverride name before) ∧
      (∀ name body, v.node = .region name body → ∀ k,
        setting.expand (k + 1) [v.node] v.scopes v.progress =
          match lastOverride name before with
          | some replacement => setting.expand k replacement v.scopes v.progress
          | none => setting.expand (k + 1) body v.scopes v.progress) ∧
      ∀ name body, v.node = .override name body → ∃ q,
        (∀ k, setting.expand (k + 1) [v.node] v.scopes v.progress = some (.ok "", q)) ∧
          q.overrides.get? name = some body ∧
          ∀ other, other ≠ name → q.overrides.get? other = v.progress.overrides.get? other) ∧
    (∀ before v between w after, visits = before ++ v :: between ++ w :: after → ∀ name,
      (v.progress.overrides.get? name).isSome → (w.progress.overrides.get? name).isSome) ∧
    (∀ r q, setting.expand budget nodes scopes (.start shelf) = some (r, q) →
      ∀ name, q.overrides.get? name = lastOverride name visits) ∧
    setting.render nodes scopes shelf =
      (setting.expand expansionBudget nodes scopes (.start shelf)).map fun (r, p) =>
        (r, p.shelf) := by
  intro visits
  have hvisit : ∀ {before v after}, visits = before ++ v :: after → ∀ name,
      v.progress.overrides.get? name = lastOverride name before :=
    fun h name => overrides_at_visit h name
  refine ⟨fun before v after h => ⟨hvisit h, fun name body hn k => ?_, fun name body hn => ?_⟩,
    fun before v between w after h name hv => ?_, fun r q hend name => ?_,
    render_eq setting nodes scopes shelf⟩
  · rw [hn, expand_region, hvisit h]
  · refine ⟨{ v.progress with overrides := v.progress.overrides.insert name body },
      fun k => by rw [hn, expand_override], ?_, fun other hother => ?_⟩
    · rw [Table.get?_insert, if_pos rfl]
    · rw [Table.get?_insert, if_neg (Ne.symm hother)]
  · -- What `w` sees is what `v` sees, or something declared since.
    have hv' := hvisit (h.trans (List.append_assoc before (v :: between) (w :: after))) name
    rw [hv'] at hv
    rw [hvisit h, lastOverride_append, Option.isSome_or, hv, Bool.or_true]
  · have hends := (tour_accounts setting 0 budget nodes scopes []).ends (.start shelf)
      ⟨rfl, fun h => absurd rfl h⟩ r q ((congrFun (tour_step ..) _).trans hend)
    rw [hends.2, get?_declared]
    exact Option.or_none

/-- A body that fails after it has declared an override, and a helper that keeps silent about it. -/
theorem regions_show_last_override_of_failed_body :
    let quiet : Helper := fun _ => .body .null fun _ => .answerText ""
    let setting : Setting := ⟨[("quiet", quiet)], .default, none, false⟩
    let replacement : List Node := [.text "new"]
    let failing : List Node := [.override "main" replacement, .call "unknown" [] [] true]
    let region : Node := .region "main" [.text "old"]
    let nodes : List Node := [.helperBlock "quiet" [] [] failing none, region]
    let scopes := Scopes.root .null
    (setting.expand 2 nodes scopes (.start .empty)).map Prod.fst = some (.ok "new") ∧
      ∃ before v after, setting.visits 2 nodes scopes (.start .empty) = before ++ v :: after ∧
        v.node = region ∧ lastOverride "main" before = some replacement ∧
        ∀ k, setting.expand (k + 1) [region] v.scopes v.progress =
          setting.expand k replacement v.scopes v.progress := by
  intro quiet setting replacement failing region nodes scopes
  have hlaw := (regions_show_last_override setting 2 nodes scopes .empty).1
  -- The visits are the block, the override, the call, the region, and the text of the override.
  obtain ⟨block, override, call, v, after, hvisits, hv, hlast⟩ :
      ∃ a b c v after, setting.visits 2 nodes scopes (.start .empty) = [a, b, c] ++ v :: after ∧
        v.node = region ∧ lastOverride "main" [a, b, c] = some replacement :=
    ⟨_, _, _, _, _, rfl, rfl, rfl⟩
  refine ⟨by cbv, [block, override, call], v, after, hvisits, hv, hlast, fun k => ?_⟩
  have hregion := (hlaw _ v after hvisits).2.1 "main" [.text "old"] hv k
  rw [hlast, hv] at hregion
  exact hregion

end Stencil
