import Mathlib
import Stencil.Proofs.Accounts

/-!
# Counting open includes

An include is refused when too many are open already. The number of open includes is kept in the
progress of a render, is raised for the nodes of an included template, and has to be right again
after them even if they fail, for a helper may swallow the fault and go on. By the account that
visits give of the progress (`tour_accounts`) it is right at every node that a render comes to.

> `openIncludes_exact`: rendering gives the number back as it was, it is always the number of
> includes around the node at hand, and an include is refused exactly if that is the limit.

That a body fails is all that a helper is told of it; what the body had printed before is gone.
-/

namespace Stencil

variable {setting : Setting} {expand : Expand} {scopes : Scopes} {p : Progress}

/-- Rendering leaves as many includes open as there were, also when it fails. -/
theorem expand_openIncludes {budget : Nat} {nodes : List Node} {r : Except Fault String}
    {q : Progress} (h : setting.expand budget nodes scopes p = some (r, q)) :
    q.openIncludes = p.openIncludes := by
  have hstands : Stands p.openIncludes [] p := ⟨rfl, fun h => absurd rfl h⟩
  have hends := (tour_accounts setting p.openIncludes budget nodes scopes []).ends p hstands r q
    ((congrFun (tour_step ..) p).trans h)
  exact hends.1.count

/-- At each visit of a render from the start, the includes around the node are those that are
counted, and there are not more than the limit. -/
theorem openIncludes_at_visit {budget : Nat} {nodes : List Node} {shelf : Shelf} {v : Visit}
    (h : v ∈ setting.visits budget nodes scopes (.start shelf)) :
    v.progress.openIncludes = v.within.length ∧ v.within.length ≤ Fault.includeLimit := by
  have hfaithful := (tour_accounts setting 0 budget nodes scopes []).visits (.start shelf)
    ⟨rfl, fun h => absurd rfl h⟩
  change Faithful 0 [] (setting.visits budget nodes scopes (.start shelf)) at hfaithful
  obtain ⟨before, after, hsplit⟩ := List.append_of_mem h
  rw [hsplit] at hfaithful
  have hstands := hfaithful.at_visit.2
  have hcount : v.progress.openIncludes = v.within.length :=
    hstands.count.trans (Nat.zero_add _)
  refine ⟨hcount, ?_⟩
  cases hwithin : v.within with
  | nil => exact Nat.zero_le _
  | cons name rest =>
    rw [← hwithin, ← hcount]
    exact hstands.limit (by simp [hwithin])

/-- An include fails with this fault whatever its template may be, and leaves everything as it was,
exactly if it is come to at the limit; below the limit the source is asked, or there is none. -/
theorem refuses_iff (name : String) (context : Option Param) :
    (∀ expand, renderNode setting expand (.inclusion name context) scopes p =
        some (.error (.tooDeep name), p)) ↔ Fault.includeLimit ≤ p.openIncludes := by
  constructor
  · intro h
    -- In particular with no budget for the nodes of the template, which then have no result.
    have hnone := h (setting.expand 0)
    rw [renderNode_inclusion] at hnone
    refine Nat.le_of_not_lt fun hlimit => ?_
    cases hanswer : p.shelf.answer setting.source name with
    | ok nodes =>
      rw [runInclude_found _ context scopes hlimit hanswer] at hnone
      cases hnone
    | error e =>
      rw [runInclude_missing _ context scopes hlimit hanswer] at hnone
      obtain ⟨hfault, hsame⟩ := Prod.ext_iff.1 (Option.some.inj hnone)
      rcases Shelf.asked_of_missing setting.keeps hanswer with he | hasked
      · rw [he] at hfault
        cases hfault
      · -- The name was added to the names asked for, so the progress is not as it was.
        have hlength := congrArg (fun p : Progress => p.shelf.asked.length) hsame
        change (Shelf.load _ _ _ _).2.asked.length = _ at hlength
        rw [hasked, List.length_append] at hlength
        exact Nat.succ_ne_self _ hlength
  · intro hlimit expand
    rw [renderNode_inclusion]
    exact runInclude_refused expand context scopes hlimit

theorem tooDeep_message (name : String) :
    (Fault.tooDeep name).message =
      "Render Error: partial '" ++ name ++ "' nested more than 64 levels deep" := by
  have hhead : FaultKind.render.title ++ ": partial '" = "Render Error: partial '" := by decide
  have htail : "' nested more than " ++ (toString Fault.includeLimit ++ " levels deep") =
      "' nested more than 64 levels deep" := by decide
  rw [Fault.message, hhead, String.append_assoc, String.append_assoc, htail]

/-! ## Bodies that fail -/

/-- The text of a block that a helper fills is what is printed for its answer. -/
theorem text_of_helperBlock {name : String} {params : List Param} {named : Table Param}
    {body : List Node} {inverse : Option (List Node)} {s : String} {q : Progress}
    (h : renderNode setting expand (.helperBlock name params named body inverse) scopes p =
      some (.ok s, q)) :
    ∃ v, s = emit v false ∧
      setting.runHelper scopes name params named true
        (fun subject => renderNodes setting expand body (scopes.push (.of subject)))
        (renderOther setting expand inverse (scopes.push (.of scopes.subject))) p =
          some (.ok v, q) := by
  rw [renderNode_helperBlock] at h
  unfold Step.bind at h
  split at h
  next => cases h
  next => cases h
  next v q' hrun =>
    cases h
    exact ⟨v, rfl, hrun⟩

/-- Of a body that fails, a helper is told the fault alone, not what its first nodes printed. -/
theorem run_body_of_failed {front rest : List Node} {subject : Value}
    {resume : Except Fault String → Script} {inverse : Step String} {s : String} {p₁ : Progress}
    {e : Fault} {q : Progress}
    (hfront : renderNodes setting expand front (scopes.push (.of subject)) p = some (.ok s, p₁))
    (hrest : renderNodes setting expand rest (scopes.push (.of subject)) p₁ = some (.error e, q)) :
    (Script.body subject resume).run
        (fun v => renderNodes setting expand (front ++ rest) (scopes.push (.of v))) inverse p =
      (resume (.error e)).run
        (fun v => renderNodes setting expand (front ++ rest) (scopes.push (.of v))) inverse q := by
  have hfailed : renderNodes setting expand (front ++ rest) (scopes.push (.of subject)) p =
      some (.error e, q) := by
    rw [renderNodes_append]
    simp only [Step.bind, hfront, hrest]
  rw [Step.run_body]
  simp only [Step.seq, hfailed]

/-- **Open includes are counted exactly.** Rendering any nodes from any progress leaves the number
of open includes as it was, whether it ends with a text or a fault. In a render from the start the
number is, at every node that is come to, that of the includes around the node, which is never more
than 64; and an include is refused, before the source is asked, exactly if 64 are open around it.
Whatever a body had printed before it failed, a helper is told the fault alone, and what its block
prints is its answer. -/
theorem openIncludes_exact (setting : Setting) :
    (∀ budget nodes scopes p r q, setting.expand budget nodes scopes p = some (r, q) →
      q.openIncludes = p.openIncludes) ∧
    (∀ budget nodes scopes shelf, ∀ v ∈ setting.visits budget nodes scopes (.start shelf),
      v.progress.openIncludes = v.within.length ∧ v.within.length ≤ 64 ∧
      ∀ name context, v.node = .inclusion name context →
        ((∀ expand, renderNode setting expand v.node v.scopes v.progress =
          some (.error (.tooDeep name), v.progress)) ↔ v.within.length = 64)) ∧
    (∀ name, (Fault.tooDeep name).message =
      "Render Error: partial '" ++ name ++ "' nested more than 64 levels deep") ∧
    (∀ expand name params named body inverse p s q, ∀ scopes : Scopes,
      renderNode setting expand (.helperBlock name params named body inverse) scopes p =
        some (.ok s, q) →
      ∃ v, s = emit v false ∧
        setting.runHelper scopes name params named true
          (fun subject => renderNodes setting expand body (scopes.push (.of subject)))
          (renderOther setting expand inverse (scopes.push (.of scopes.subject))) p =
            some (.ok v, q)) ∧
    ∀ expand front rest subject resume inverse p s p₁ e q, ∀ scopes : Scopes,
      renderNodes setting expand front (scopes.push (.of subject)) p = some (.ok s, p₁) →
      renderNodes setting expand rest (scopes.push (.of subject)) p₁ = some (.error e, q) →
      let body := fun v => renderNodes setting expand (front ++ rest) (scopes.push (.of v))
      (Script.body subject resume).run body inverse p =
        (resume (.error e)).run body inverse q := by
  refine ⟨fun _ _ _ _ _ _ h => expand_openIncludes h, fun budget nodes scopes shelf v hv => ?_,
    tooDeep_message, fun _ _ _ _ _ _ _ _ _ _ h => text_of_helperBlock h,
    fun _ _ _ _ _ _ _ _ _ _ _ _ hfront hrest => run_body_of_failed hfront hrest⟩
  obtain ⟨hcount, hlimit⟩ := openIncludes_at_visit hv
  refine ⟨hcount, hlimit, fun name context hn => ?_⟩
  rw [hn, refuses_iff, hcount]
  exact ⟨fun h => Nat.le_antisymm hlimit h, fun h => h ▸ Nat.le_refl _⟩

set_option maxRecDepth 20000 in
/-- A template that includes itself is refused inside of 64 others; and two includes below the limit,
a helper that swallows the fault is told of it alone, and the include after it is not refused. -/
theorem openIncludes_exact_of_failed_body :
    let resume : Except Fault String → Script := fun _ => .answerText ""
    let quiet : Helper := fun _ => .body .null resume
    let read : Reader := fun name => .ok (if name = "again" then "\x7b\x7b> again\x7d\x7d" else "leaf")
    let setting : Setting := ⟨[("quiet", quiet)], .default, some read, true⟩
    let again : Node := .inclusion "again" none
    let p : Progress := ⟨[], 62, .empty⟩
    let body := fun v => renderNodes setting (setting.expand 3) ([.text "lost"] ++ [again])
      ((Scopes.root .null).push (.of v))
    (∃ v ∈ setting.visits 66 [again] (.root .null) (.start .empty), v.node = again ∧
      v.within.length = 64 ∧ ∀ expand, renderNode setting expand v.node v.scopes v.progress =
        some (.error (.tooDeep "again"), v.progress)) ∧
      (∃ q, (Script.body .null resume).run body (Step.pure "") p =
        (resume (.error (.tooDeep "again"))).run body (Step.pure "") q) ∧
      ∃ q, setting.expand 4 [.helperBlock "quiet" [] [] [.text "lost", again] none,
        .inclusion "leaf" none] (.root .null) p = some (.ok "leaf", q) ∧ q.openIncludes = 62 := by
  intro resume quiet read setting again p body
  obtain ⟨hkeeps, hvisits, -, -, hbody⟩ := openIncludes_exact setting
  refine ⟨?_, ?_, ?_⟩
  · have hlast : (setting.visits 66 [again] (.root .null) (.start .empty)).getLast?.map
        (fun v => (v.node, v.within.length)) = some (again, 64) := by cbv
    obtain ⟨v, hv, hvalues⟩ := Option.map_eq_some_iff.1 hlast
    obtain ⟨hnode, hwithin⟩ := Prod.mk.inj hvalues
    have hmem := List.mem_of_getLast? hv
    obtain ⟨-, -, hrefused⟩ := hvisits _ _ _ _ v hmem
    exact ⟨v, hmem, hnode, hwithin, (hrefused "again" none hnode).2 hwithin⟩
  · have hfront : renderNodes setting (setting.expand 3) [.text "lost"]
        ((Scopes.root .null).push (.of .null)) p = some (.ok "lost", p) := by cbv
    have hfault : (renderNodes setting (setting.expand 3) [again]
        ((Scopes.root .null).push (.of .null)) p).map Prod.fst =
          some (.error (.tooDeep "again")) := by cbv
    obtain ⟨⟨r, q⟩, hrest, rfl⟩ := Option.map_eq_some_iff.1 hfault
    exact ⟨q, hbody _ _ _ _ _ _ _ _ _ _ _ _ hfront hrest⟩
  · have htext : (setting.expand 4 [.helperBlock "quiet" [] [] [.text "lost", again] none,
        .inclusion "leaf" none] (.root .null) p).map Prod.fst = some (.ok "leaf") := by cbv
    obtain ⟨⟨r, q⟩, hend, rfl⟩ := Option.map_eq_some_iff.1 htext
    exact ⟨q, hend, hkeeps _ _ _ _ _ _ hend⟩

end Stencil
