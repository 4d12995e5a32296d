import Stencil.Proofs.LikeNodes

/-!
# Tags in another place

A tag is read from its own characters alone, wherever it stands; only whether it takes its line
along depends on the text around it, and of this text only on the line.

> `cut_of_text`: whatever text follows, the same tag is cut out.
> `PlacedTag.Fits.move`: a tag that fits in one place fits in any other where its line begins and
> ends alike (`SameStart`, `SameEnd`).
> `Laid.rebase`: so a text is laid out in the same pieces behind any text with which its first
> line begins alike.
-/

namespace Stencil

open Text

/-! ## Cutting a tag out -/

/-- Whether a text begins with a mark is decided by as many characters as the mark has. -/
theorem isPrefixOf_append_congr {mark front : List Char} (h : mark.length ≤ front.length)
    (a b : List Char) : mark.isPrefixOf (front ++ a) = mark.isPrefixOf (front ++ b) := by
  have hfront : ∀ more, mark <+: front ++ more ↔ mark <+: front := by
    intro more
    constructor
    · intro hmark
      exact List.prefix_of_prefix_length_le hmark (List.prefix_append front more) h
    · intro hmark
      exact hmark.trans (List.prefix_append front more)
  rw [Bool.eq_iff_iff, List.isPrefixOf_iff_prefix, List.isPrefixOf_iff_prefix, hfront, hfront]

theorem cutBefore_of_eq {mark content after : List Char} (hmark : mark ≠ [])
    (h : cutBefore mark (content ++ mark ++ after) = some (content, after)) (any : List Char) :
    cutBefore mark (content ++ mark ++ any) = some (content, any) := by
  induction content with
  | nil =>
    obtain ⟨c, rest, rfl⟩ := List.exists_cons_of_ne_nil hmark
    have hprefix : (c :: rest).isPrefixOf (c :: (rest ++ any)) = true :=
      List.isPrefixOf_iff_prefix.2 (List.prefix_append (c :: rest) any)
    show cutBefore (c :: rest) (c :: (rest ++ any)) = _
    rw [cutBefore, if_pos hprefix, ← List.cons_append, List.drop_left]
  | cons c content ih =>
    have hlength : mark.length ≤ (c :: content ++ mark).length := by
      simp only [List.length_append]
      omega
    have hcongr := isPrefixOf_append_congr hlength after any
    rw [List.cons_append, List.cons_append, cutBefore] at h ⊢
    rw [List.cons_append, List.cons_append, List.cons_append] at hcongr
    rw [← hcongr]
    split at h
    next => simp at h
    next hnot =>
      obtain ⟨⟨content', after'⟩, hrest, heq⟩ := Option.map_eq_some_iff.1 h
      simp only [Prod.mk.injEq, List.cons.injEq, true_and] at heq
      obtain ⟨rfl, rfl⟩ := heq
      rw [if_neg hnot, ih hrest]
      rfl

theorem cutAt_of_eq {closing content after : List Char} {state : Quoting} (hclosing : closing ≠ [])
    (h : cutAt closing state (content ++ closing ++ after) = some (content, after))
    (any : List Char) :
    cutAt closing state (content ++ closing ++ any) = some (content, any) := by
  induction content generalizing state with
  | nil =>
    obtain ⟨c, rest, rfl⟩ := List.exists_cons_of_ne_nil hclosing
    have hprefix : (c :: rest).isPrefixOf (c :: (rest ++ any)) = true :=
      List.isPrefixOf_iff_prefix.2 (List.prefix_append (c :: rest) any)
    have hstate : state = .outside := by
      change cutAt (c :: rest) state (c :: (rest ++ after)) = _ at h
      rw [cutAt] at h
      split at h
      next hboth => exact hboth.1
      next => simp at h
    show cutAt (c :: rest) state (c :: (rest ++ any)) = _
    rw [cutAt, if_pos ⟨hstate, hprefix⟩, ← List.cons_append, List.drop_left]
  | cons c content ih =>
    have hlength : closing.length ≤ (c :: content ++ closing).length := by
      simp only [List.length_append]
      omega
    -- The closing mark itself lies in front of `after`, so what comes there does not decide
    -- whether it begins here.
    have hcongr := isPrefixOf_append_congr hlength after any
    rw [List.cons_append, List.cons_append, cutAt] at h ⊢
    rw [List.cons_append, List.cons_append, List.cons_append] at hcongr
    rw [← hcongr]
    split at h
    next => simp at h
    next hnot =>
      obtain ⟨⟨content', after'⟩, hrest, heq⟩ := Option.map_eq_some_iff.1 h
      simp only [Prod.mk.injEq, List.cons.injEq, true_and] at heq
      obtain ⟨rfl, rfl⟩ := heq
      rw [if_neg hnot, ih hrest]
      rfl

/-- The characters of a tag behind its first two braces. -/
def Cut.inner (c : Cut) : List Char := c.form.opening ++ c.content ++ c.form.closing

theorem Cut.text_eq (c : Cut) : c.text = '\x7b' :: '\x7b' :: c.inner := rfl

theorem cut_inner {cs : List Char} {c : Cut} (h : cut cs = .ok c) : cs = c.inner ++ c.after := by
  have htext := cut_eq h
  rw [Cut.text_eq] at htext
  exact List.cons.inj (List.cons.inj htext).2 |>.2

theorem closing_ne_nil (form : TagForm) : form.closing ≠ [] := by
  cases form <;> exact List.cons_ne_nil _ _

/-- A cut of a form is where the end of this form was found. -/
theorem found_eq_ok {found : Option (List Char × List Char)} {form form' : TagForm}
    {content after : List Char} {e : SyntaxCause} :
    (match found with
      | some (content, after) => Except.ok (Cut.mk form' content after)
      | none => .error e) = .ok ⟨form, content, after⟩ ↔
      form = form' ∧ found = some (content, after) := by
  cases found with
  | none => simp
  | some ends =>
    obtain ⟨content', after'⟩ := ends
    simp only [Except.ok.injEq, Cut.mk.injEq, Option.some.injEq, Prod.mk.injEq]
    exact and_congr_left fun _ => eq_comm

/-- Which comment begins behind the exclamation mark. -/
def noteForm (rest : List Char) : TagForm :=
  if ['-', '-'].isPrefixOf rest then .longNote else .note

theorem cut_note {rest content after : List Char} {form : TagForm} :
    cut ('!' :: rest) = .ok ⟨form, content, after⟩ ↔
      form = noteForm rest ∧ cutBefore form.closing rest = some (content, after) := by
  refine found_eq_ok.trans (and_congr_right ?_)
  rintro rfl
  rfl

theorem cut_raw {rest content after : List Char} {form : TagForm} :
    cut ('\x7b' :: rest) = .ok ⟨form, content, after⟩ ↔
      form = .raw ∧ cutAt TagForm.raw.closing .outside rest = some (content, after) :=
  found_eq_ok

/-- A tag that does not begin like a comment or a raw tag is a plain one. -/
theorem cut_plain {c : Char} {rest content after : List Char} {form : TagForm} (hnote : c ≠ '!')
    (hraw : c ≠ '\x7b') :
    cut (c :: rest) = .ok ⟨form, content, after⟩ ↔
      form = .plain ∧ cutAt TagForm.plain.closing .outside (c :: rest) = some (content, after) := by
  unfold cut
  split
  next heq => exact absurd (List.cons.inj heq).1 hnote
  next heq => exact absurd (List.cons.inj heq).1 hraw
  next => exact found_eq_ok

theorem noteForm_ne (rest : List Char) : noteForm rest ≠ .raw ∧ noteForm rest ≠ .plain := by
  unfold noteForm
  split <;> decide

/-- **A tag is cut out in the same way whatever text follows it.** -/
theorem cut_of_text {cs : List Char} {c : Cut} (h : cut cs = .ok c) (any : List Char) :
    cut (c.inner ++ any) = .ok { c with after := any } := by
  have hcs := cut_inner h
  subst hcs
  obtain ⟨form, content, after⟩ := c
  have htwo : ['-', '-'].length ≤ (content ++ form.closing).length := by
    have hclosing : 2 ≤ form.closing.length := by cases form <;> decide
    simp only [List.length_append, List.length_cons, List.length_nil]
    omega
  have hdashes : noteForm (content ++ form.closing ++ after) =
      noteForm (content ++ form.closing ++ any) := by
    unfold noteForm
    rw [isPrefixOf_append_congr htwo after any]
  cases form with
  | note | longNote =>
    obtain ⟨hform, hfound⟩ := cut_note.1 h
    exact cut_note.2 ⟨hform.trans hdashes, cutBefore_of_eq (closing_ne_nil _) hfound any⟩
  | raw =>
    obtain ⟨-, hfound⟩ := cut_raw.1 h
    exact cut_raw.2 ⟨rfl, cutAt_of_eq (closing_ne_nil _) hfound any⟩
  | plain =>
    -- The first character decides; it is the first one of the content or of the closing braces.
    obtain ⟨d, rest, hd⟩ : ∃ d rest, content ++ TagForm.plain.closing = d :: rest := by
      cases content with
      | nil => exact ⟨_, _, rfl⟩
      | cons d content => exact ⟨d, _, rfl⟩
    have hinner : ∀ more, (Cut.mk .plain content after).inner ++ more = d :: (rest ++ more) := by
      intro more
      rw [← List.cons_append, ← hd]
      rfl
    rw [hinner] at h
    have hnote : d ≠ '!' := by
      rintro rfl
      exact absurd (cut_note.1 h).1.symm (noteForm_ne _).2
    have hraw : d ≠ '\x7b' := by
      rintro rfl
      cases (cut_raw.1 h).1
    obtain ⟨-, hfound⟩ := (cut_plain hnote hraw).1 h
    rw [← List.cons_append, ← hd] at hfound
    have hfound' := cutAt_of_eq (closing_ne_nil _) hfound any
    rw [hd, List.cons_append] at hfound'
    rw [hinner]
    exact (cut_plain hnote hraw).2 ⟨rfl, hfound'⟩

/-! ## The line of a tag -/

/-- Seen from a place, its line begins alike behind two texts (both in reverse): with the same
blanks, or behind both with something else. -/
structure SameStart (before before' : List Char) : Prop where
  blank : (lineStart before).all (fun c => c == ' ' || c == '\t') =
    (lineStart before').all (fun c => c == ' ' || c == '\t')
  start : (lineStart before).all (fun c => c == ' ' || c == '\t') = true →
    lineStart before = lineStart before'

/-- A line goes on alike in two texts: with the same blanks, or with something else in both. -/
structure SameEnd (after after' : List Char) : Prop where
  blank : (splitLine after).1.all isBlank = (splitLine after').1.all isBlank
  line : (splitLine after).1.all isBlank = true → (splitLine after).1 = (splitLine after').1

theorem SameStart.refl (before : List Char) : SameStart before before := ⟨rfl, fun _ => rfl⟩

theorem SameEnd.refl (after : List Char) : SameEnd after after := ⟨rfl, fun _ => rfl⟩

theorem SameStart.cons {before before' : List Char} (h : SameStart before before') (c : Char) :
    SameStart (c :: before) (c :: before') := by
  by_cases hc : c = '\n'
  · have hnil : ∀ b, lineStart (c :: b) = [] := fun b => by simp [lineStart, hc]
    exact ⟨by rw [hnil, hnil], fun _ => by rw [hnil, hnil]⟩
  · have hcons : ∀ b, lineStart (c :: b) = c :: lineStart b := fun b => by simp [lineStart, hc]
    constructor
    · rw [hcons, hcons, List.all_cons, List.all_cons, h.blank]
    · rw [hcons, hcons, List.all_cons, Bool.and_eq_true]
      intro hblank
      rw [h.start hblank.2]

theorem SameStart.append {before before' : List Char} (h : SameStart before before')
    (front : List Char) : SameStart (front ++ before) (front ++ before') := by
  induction front with
  | nil => exact h
  | cons c front ih => exact ih.cons c

theorem SameEnd.cons {after after' : List Char} (h : SameEnd after after') (c : Char) :
    SameEnd (c :: after) (c :: after') := by
  by_cases hc : c = '\n'
  · have hone : ∀ a, (splitLine (c :: a)).1 = [c] := fun a => by simp [splitLine, hc]
    exact ⟨by rw [hone, hone], fun _ => by rw [hone, hone]⟩
  · have hcons : ∀ a, (splitLine (c :: a)).1 = c :: (splitLine a).1 := fun a => by
      simp [splitLine, hc]
    constructor
    · rw [hcons, hcons, List.all_cons, List.all_cons, h.blank]
    · rw [hcons, hcons, List.all_cons, Bool.and_eq_true]
      intro hblank
      rw [h.line hblank.2]

theorem SameEnd.append {after after' : List Char} (h : SameEnd after after') (front : List Char) :
    SameEnd (front ++ after) (front ++ after') := by
  induction front with
  | nil => exact h
  | cons c front ih => exact ih.cons c

/-- A brace in its line keeps a tag from having the line to itself, whatever stands beyond. -/
theorem sameStart_brace (b b' : List Char) : SameStart ('\x7d' :: b) ('\x7d' :: b') := by
  have hcons : ∀ b, lineStart ('\x7d' :: b) = '\x7d' :: lineStart b := fun b => by simp [lineStart]
  have hblank : ∀ b, (lineStart ('\x7d' :: b)).all (fun c => c == ' ' || c == '\t') = false :=
    fun b => by rw [hcons, List.all_cons]; rfl
  refine ⟨by rw [hblank, hblank], fun hall => ?_⟩
  rw [hblank] at hall
  cases hall

theorem sameEnd_brace (a a' : List Char) : SameEnd ('\x7b' :: a) ('\x7b' :: a') := by
  have hcons : ∀ a, (splitLine ('\x7b' :: a)).1 = '\x7b' :: (splitLine a).1 := fun a => by
    simp [splitLine]
  have hblank : ∀ a, ((splitLine ('\x7b' :: a)).1).all isBlank = false := fun a => by
    rw [hcons, List.all_cons]
    rfl
  refine ⟨by rw [hblank, hblank], fun hall => ?_⟩
  rw [hblank] at hall
  cases hall

/-! ## Placing a tag -/

/-- **A tag that fits in one place fits in another one** where its line begins and ends alike. -/
theorem PlacedTag.Fits.move {placed : PlacedTag} {before after before' after' : List Char}
    (h : placed.Fits before after)
    (hstart : SameStart placed.before (placed.indent.reverse ++ before'))
    (hend : SameEnd (placed.lineEnd ++ after) (placed.lineEnd ++ after')) :
    PlacedTag.Fits { placed with before := placed.indent.reverse ++ before' } before' after' := by
  -- In both places the tag has its line to itself, or in neither.
  have hline : hasLine (placed.indent.reverse ++ before') (placed.lineEnd ++ after') =
      hasLine placed.before (placed.lineEnd ++ after) := by
    unfold hasLine
    rw [hstart.blank, hend.blank]
  refine { place := rfl, reads := ?_, alone := ?_, shared := ?_ }
  · obtain ⟨inner, c, hinner, hcut, htext, htag⟩ := h.reads
    refine ⟨c.inner ++ (placed.lineEnd ++ after'), _, ?_, cut_of_text hcut _, htext, htag⟩
    show placed.text ++ (placed.lineEnd ++ after') = _
    rw [← htext, Cut.text_eq]
    rfl
  · intro htakes hhas
    rw [hline] at hhas
    obtain ⟨hindent, hlineEnd⟩ := h.alone htakes hhas
    have hblank : (lineStart placed.before).all (fun c => c == ' ' || c == '\t') = true ∧
        (splitLine (placed.lineEnd ++ after)).1.all isBlank = true := by
      unfold hasLine at hhas
      exact Bool.and_eq_true_iff.1 hhas
    exact ⟨hindent.trans (hstart.start hblank.1), hlineEnd.trans (hend.line hblank.2)⟩
  · intro hnot
    refine h.shared fun hboth => hnot ⟨hboth.1, ?_⟩
    show hasLine (placed.indent.reverse ++ before') (placed.lineEnd ++ after') = true
    rw [hline]
    exact hboth.2

theorem startsText_eq_of_forall₂ {same : Table Param → Table Param → Prop} {ps qs : List Piece}
    (h : List.Forall₂ (Piece.Like same) ps qs) : Piece.startsText ps = Piece.startsText qs := by
  cases h with
  | nil => rfl
  | cons hpiece _ => cases hpiece <;> rfl

/-- **A text is laid out in the same pieces** behind any text with which its first line begins
alike. -/
theorem Laid.rebase {before before' rest : List Char} {ps : List Piece} (h : Laid before rest ps)
    (hstart : SameStart before before') :
    ∃ qs, Laid before' rest qs ∧ List.Forall₂ (Piece.Like Eq) ps qs := by
  induction h generalizing before' with
  | done => exact ⟨[], .done, .nil⟩
  | @text before chars rest pieces hne hplain hmax _ ih =>
    obtain ⟨qs, hqs, hlike⟩ := ih (hstart.append chars.reverse)
    rw [startsText_eq_of_forall₂ hlike] at hmax
    exact ⟨_, .text hne hplain hmax hqs, .cons (.text chars) hlike⟩
  | @tag before rest pieces placed hfits _ ih =>
    have hplace : SameStart placed.before (placed.indent.reverse ++ before') := by
      rw [hfits.place]
      exact hstart.append _
    obtain ⟨qs, hqs, hlike⟩ :=
      ih ((hplace.append placed.text.reverse).append placed.lineEnd.reverse)
    have hmoved := Laid.tag (hfits.move hplace (.refl _)) hqs
    exact ⟨_, hmoved, .cons (.tag (Tag.like_eq placed.tag)) hlike⟩

end Stencil
