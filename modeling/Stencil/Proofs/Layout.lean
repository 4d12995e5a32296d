import Stencil.Syntax.Scan

/-!
# The layout of a template text

`scanFrom` walks over a text and remembers the stretch of literal text behind it. Here the same
cutting is said without a walk: `Laid before rest pieces` holds when `rest`, standing behind
`before`, is these pieces one after the other, where

* a stretch of text is as long as it can be, and nowhere in it do two opening braces begin;
* a tag is what `cut` and `Tag.ofContent` read where it begins;
* a tag takes its indentation and the rest of its line exactly when it is of a kind that takes
  lines and has its line to itself, and then it takes all of both.

> `laid_source`: the pieces spell the text; nothing is lost, doubled or moved.
> `scan_eq_iff`: a text scans without a fault into exactly the pieces it is laid out in.

As in `scanFrom`, what stands before a place is kept in reverse.
-/

namespace Stencil

open Text

/-- Nowhere in a stretch of text, which is followed by `after`, do two opening braces begin. -/
def Plain (chars after : List Char) : Prop :=
  ∀ a b, chars = a ++ b → b ≠ [] → ¬ ['\x7b', '\x7b'] <+: b ++ after

/-- How a tag stands between the text before it (in reverse) and the text after it, when
indentation and line end are counted to the tag. -/
structure PlacedTag.Fits (placed : PlacedTag) (before after : List Char) : Prop where
  /-- The place is behind the indentation. -/
  place : placed.before = placed.indent.reverse ++ before
  /-- The tag's own characters are cut out of the text right there and mean the tag. -/
  reads : ∃ inner c, placed.text ++ (placed.lineEnd ++ after) = '\x7b' :: '\x7b' :: inner ∧
    cut inner = .ok c ∧ c.text = placed.text ∧ Tag.ofContent c.form c.content = .ok placed.tag
  /-- A tag with a line to itself takes the line. -/
  alone : placed.tag.takesLine = true → hasLine placed.before (placed.lineEnd ++ after) = true →
    placed.indent.reverse = lineStart placed.before ∧
      placed.lineEnd = (splitLine (placed.lineEnd ++ after)).1
  /-- Any other tag takes nothing but itself. -/
  shared : ¬ (placed.tag.takesLine = true ∧
      hasLine placed.before (placed.lineEnd ++ after) = true) →
    placed.indent = [] ∧ placed.lineEnd = []

/-- Whether a row of pieces begins with text. -/
def Piece.startsText : List Piece → Bool
  | .text _ :: _ => true
  | _ => false

/-- A text behind another one is laid out in these pieces. -/
inductive Laid : List Char → List Char → List Piece → Prop where
  | done {before} : Laid before [] []
  | text {before chars rest pieces} (hne : chars ≠ []) (hplain : Plain chars rest)
      (hmax : Piece.startsText pieces = false) (h : Laid (chars.reverse ++ before) rest pieces) :
      Laid before (chars ++ rest) (.text chars :: pieces)
  | tag {before rest pieces} {placed : PlacedTag} (hfits : placed.Fits before rest)
      (h : Laid (placed.lineEnd.reverse ++ (placed.text.reverse ++ placed.before)) rest pieces) :
      Laid before (placed.indent ++ (placed.text ++ (placed.lineEnd ++ rest)))
        (.tag placed :: pieces)

/-- **Nothing is lost, doubled or moved**: the pieces of a layout spell the text. -/
theorem laid_source {before rest : List Char} {pieces : List Piece}
    (h : Laid before rest pieces) : pieces.flatMap Piece.source = rest := by
  induction h with
  | done => rfl
  | text _ _ _ _ ih => rw [List.flatMap_cons, ih, Piece.source]
  | tag _ _ ih => rw [List.flatMap_cons, ih, Piece.source, List.append_assoc, List.append_assoc]

/-! ## Stretches of text -/

theorem plain_nil (after : List Char) : Plain [] after := by
  intro a b hab hb
  have := List.append_eq_nil_iff.1 hab.symm
  exact absurd this.2 hb

/-- A stretch of text that takes one more character in at its end. -/
theorem plain_snoc {c : Char} {chars rest : List Char} (h : Plain chars (c :: rest))
    (hc : ¬ ['\x7b', '\x7b'] <+: c :: rest) : Plain (chars ++ [c]) rest := by
  intro a b hab hb
  obtain ⟨b, x, rfl⟩ : ∃ b' x, b = b' ++ [x] := by
    rcases List.eq_nil_or_concat b with hnil | ⟨b', x, hb'⟩
    · exact absurd hnil hb
    · exact ⟨b', x, by rw [hb', List.concat_eq_append]⟩
  -- What begins in front of `c` was ruled out before, and at `c` itself it is `hc` that says so.
  rw [← List.append_assoc] at hab
  obtain ⟨hchars, hx⟩ := List.append_inj' hab rfl
  cases hx
  rw [List.append_assoc]
  cases b with
  | nil => exact hc
  | cons y b => exact h a (y :: b) hchars (by simp)

/-- Where a stretch of text ends earlier, the part before is plain as well. -/
theorem plain_of_append {chars more after : List Char} (h : Plain (chars ++ more) after) :
    Plain chars (more ++ after) := by
  intro a b hab hb
  rw [← List.append_assoc]
  exact h a (b ++ more) (by rw [hab, List.append_assoc]) (by simp [hb])

/-- A stretch of text without braces is plain whatever follows. -/
theorem plain_of_notMem {chars : List Char} (h : '\x7b' ∉ chars) (after : List Char) :
    Plain chars after := by
  intro a b hab hb hpre
  cases b with
  | nil => exact hb rfl
  | cons c b =>
    obtain ⟨t, ht⟩ := hpre
    simp only [List.cons_append, List.cons.injEq] at ht
    exact h (by rw [hab, ht.1]; simp)

/-- Blanks and tabs are plain whatever follows. -/
theorem plain_of_blanks {chars : List Char} (after : List Char)
    (h : chars.all (fun c => c == ' ' || c == '\t') = true) : Plain chars after :=
  plain_of_notMem (fun hmem => absurd (List.all_eq_true.1 h _ hmem) (by decide)) after

/-! ## The walk, one step at a time -/

theorem not_braces_iff {c : Char} {rest : List Char} :
    ¬ ['\x7b', '\x7b'] <+: c :: rest ↔ ∀ inner, c = '\x7b' → rest = '\x7b' :: inner → False := by
  constructor
  · intro h inner hc hrest
    exact h ⟨inner, by rw [hc, hrest]; rfl⟩
  · rintro h ⟨inner, hinner⟩
    simp only [List.cons_append, List.nil_append, List.cons.injEq] at hinner
    exact h inner hinner.1.symm hinner.2.symm

theorem scanFrom_nil (before pending : List Char) :
    scanFrom before pending [] = (Scanned.mk [] none).withText pending := by
  rw [scanFrom]

/-- The walk takes a plain stretch of text in. -/
theorem scanFrom_plain {chars rest : List Char} (before pending : List Char)
    (h : Plain chars rest) :
    scanFrom before pending (chars ++ rest)
      = scanFrom (chars.reverse ++ before) (chars.reverse ++ pending) rest := by
  induction chars generalizing before pending with
  | nil => rfl
  | cons c chars ih =>
    have hc : ¬ ['\x7b', '\x7b'] <+: c :: (chars ++ rest) := h [] (c :: chars) rfl (by simp)
    have hchars : Plain chars rest := fun a b hab hb => h (c :: a) b (by rw [hab]; rfl) hb
    rw [List.cons_append, scanFrom.eq_3 _ _ _ _ (not_braces_iff.1 hc), ih _ _ hchars]
    simp

/-- The walk at a tag with a line to itself. -/
theorem scanFrom_alone {before pending inner : List Char} {c : Cut} {tag : Tag}
    (hcut : cut inner = .ok c) (htag : Tag.ofContent c.form c.content = .ok tag)
    (hline : (tag.takesLine && hasLine before c.after) = true) :
    scanFrom before pending ('\x7b' :: '\x7b' :: inner)
      = ((scanFrom ((splitLine c.after).1.reverse ++ (c.text.reverse ++ before)) []
            (splitLine c.after).2).cons
          (.tag ⟨before, (lineStart before).reverse, c.text, (splitLine c.after).1, tag⟩)).withText
            (pending.drop (lineStart before).length) := by
  rw [scanFrom]
  split
  next h => rw [hcut] at h; cases h
  next c' h =>
    rw [hcut] at h
    cases h
    rw [htag]
    simp only [hline, if_true]

/-- The walk at any other tag. -/
theorem scanFrom_shared {before pending inner : List Char} {c : Cut} {tag : Tag}
    (hcut : cut inner = .ok c) (htag : Tag.ofContent c.form c.content = .ok tag)
    (hline : ¬ (tag.takesLine && hasLine before c.after) = true) :
    scanFrom before pending ('\x7b' :: '\x7b' :: inner)
      = ((scanFrom (c.text.reverse ++ before) [] c.after).cons
          (.tag ⟨before, [], c.text, [], tag⟩)).withText pending := by
  rw [scanFrom]
  split
  next h => rw [hcut] at h; cases h
  next c' h =>
    rw [hcut] at h
    cases h
    rw [htag]
    simp only [hline, if_false, Bool.false_eq_true]

/-! ## Layouts scan as they are -/

theorem PlacedTag.Fits.cut {placed : PlacedTag} {before after : List Char}
    (h : placed.Fits before after) :
    ∃ inner c, placed.text ++ (placed.lineEnd ++ after) = '\x7b' :: '\x7b' :: inner ∧
      Stencil.cut inner = .ok c ∧ c.text = placed.text ∧ c.after = placed.lineEnd ++ after ∧
      Tag.ofContent c.form c.content = .ok placed.tag := by
  obtain ⟨inner, c, hinner, hcut, htext, htag⟩ := h.reads
  refine ⟨inner, c, hinner, hcut, htext, ?_, htag⟩
  have heq := cut_eq hcut
  rw [htext, ← hinner] at heq
  exact (List.append_cancel_left heq).symm

theorem PlacedTag.Fits.plain_indent {placed : PlacedTag} {before after : List Char}
    (h : placed.Fits before after) (more : List Char) : Plain placed.indent more := by
  by_cases hline : placed.tag.takesLine = true ∧
      hasLine placed.before (placed.lineEnd ++ after) = true
  · refine plain_of_blanks more ?_
    have hblank := hline.2
    simp only [hasLine, Bool.and_eq_true, ← (h.alone hline.1 hline.2).1] at hblank
    simpa using hblank.1
  · rw [(h.shared hline).1]
    exact plain_nil more

/-- The walk takes a tag that fits. -/
theorem scanFrom_of_fits {placed : PlacedTag} {before after : List Char} (pending : List Char)
    (h : placed.Fits before after) :
    scanFrom before pending (placed.indent ++ (placed.text ++ (placed.lineEnd ++ after)))
      = ((scanFrom (placed.lineEnd.reverse ++ (placed.text.reverse ++ placed.before)) []
          after).cons (.tag placed)).withText pending := by
  obtain ⟨inner, c, hinner, hcut, htext, hafter, htag⟩ := h.cut
  rw [scanFrom_plain before pending (h.plain_indent _), ← h.place, hinner]
  by_cases hline : placed.tag.takesLine = true ∧
      hasLine placed.before (placed.lineEnd ++ after) = true
  · obtain ⟨hindent, hend⟩ := h.alone hline.1 hline.2
    have hsplit := splitLine_eq (placed.lineEnd ++ after)
    rw [← hend] at hsplit
    have hrest := List.append_cancel_left hsplit
    rw [scanFrom_alone hcut htag (by rw [hafter]; simpa using hline), hafter, htext, ← hend,
      ← hrest, ← hindent, List.drop_left, List.reverse_reverse]
  · obtain ⟨hindent, hend⟩ := h.shared hline
    rw [scanFrom_shared hcut htag (by rw [hafter]; simpa using hline), hafter, htext]
    obtain ⟨b, indent, t, lineEnd, tag⟩ := placed
    cases hindent
    cases hend
    rfl

/-- The walk over a layout returns its pieces, and what is pending joins them in front. -/
theorem scanFrom_of_laid {before rest : List Char} {pieces : List Piece}
    (h : Laid before rest pieces) :
    ∀ pending, (Piece.startsText pieces = true → pending = []) →
      scanFrom before pending rest = (Scanned.mk pieces none).withText pending := by
  induction h with
  | done =>
    intro pending _
    exact scanFrom_nil _ pending
  | @text before chars rest pieces hne hplain hmax _ ih =>
    -- No text stands in front of a stretch of text, so nothing is pending here.
    intro pending hpending
    rw [hpending rfl, scanFrom_plain before [] hplain, List.append_nil,
      ih chars.reverse (by simp [hmax])]
    simp [Scanned.withText, hne, Scanned.cons]
  | tag hfits _ ih =>
    intro pending _
    rw [scanFrom_of_fits pending hfits, ih [] (fun _ => rfl)]
    rfl

/-! ## Scans are layouts -/

/-- What has been read before a stretch of literal text never ends inside an indentation: it is
nothing, or it ends in a line break or a brace. At the end of the text it does not matter. -/
def Edge (base rest : List Char) : Prop :=
  rest = [] ∨ ∀ c t, base = c :: t → (c == ' ' || c == '\t') = false

/-- So the indentation of a tag lies within the stretch of text before it. -/
theorem lineStart_within {pending base after : List Char}
    (hbase : ∀ c t, base = c :: t → (c == ' ' || c == '\t') = false)
    (hline : hasLine (pending ++ base) after = true) :
    ∃ more, pending = lineStart (pending ++ base) ++ more := by
  simp only [hasLine, Bool.and_eq_true, List.all_eq_true] at hline
  have hblank := hline.1
  simp only [lineStart, List.takeWhile_append] at hblank ⊢
  split at hblank
  -- Without a line break in `pending`, the line would begin in `base`, which ends in no blank.
  next hall =>
    rw [if_pos hall]
    cases base with
    | nil => exact ⟨[], by simp⟩
    | cons c t =>
      by_cases hc : c = '\n'
      · exact ⟨[], by simp [hc]⟩
      · have := hblank c (by simp [hc])
        rw [hbase c t rfl] at this
        cases this
  next hall =>
    rw [if_neg hall]
    exact ⟨pending.dropWhile (· != '\n'), List.takeWhile_append_dropWhile.symm⟩

theorem splitLine_fst_ends {cs : List Char} (h : (splitLine cs).2 ≠ []) :
    ∃ line, (splitLine cs).1 = line ++ ['\n'] := by
  induction cs with
  | nil => exact absurd rfl h
  | cons c cs ih =>
    by_cases hc : c = '\n'
    · exact ⟨[], by simp [splitLine, hc]⟩
    · simp only [splitLine, hc, if_false] at h ⊢
      obtain ⟨line, hline⟩ := ih h
      exact ⟨c :: line, by simp [hline]⟩

theorem closing_ends (form : TagForm) : ∃ t, form.closing = t ++ ['\x7d'] := by
  cases form with
  | note => exact ⟨['\x7d'], rfl⟩
  | longNote => exact ⟨['-', '-', '\x7d'], rfl⟩
  | raw => exact ⟨['\x7d', '\x7d'], rfl⟩
  | plain => exact ⟨['\x7d'], rfl⟩

/-- A tag ends in a brace. -/
theorem cut_text_ends (c : Cut) : ∃ t, c.text = t ++ ['\x7d'] := by
  obtain ⟨t, ht⟩ := closing_ends c.form
  refine ⟨'\x7b' :: '\x7b' :: (c.form.opening ++ c.content ++ t), ?_⟩
  simp only [Cut.text, ht, List.cons_append, List.append_assoc]

/-- Behind a tag, and behind a line that a tag takes, literal text starts at an edge. -/
theorem edge_of_tag (c : Cut) (before rest : List Char) : Edge (c.text.reverse ++ before) rest := by
  obtain ⟨t, ht⟩ := cut_text_ends c
  refine .inr ?_
  intro x u hx
  rw [ht, List.reverse_append, List.reverse_singleton, List.append_assoc, List.singleton_append,
    List.cons.injEq] at hx
  rw [← hx.1]
  decide

theorem edge_of_line (after before : List Char) :
    Edge ((splitLine after).1.reverse ++ before) (splitLine after).2 := by
  by_cases hrest : (splitLine after).2 = []
  · exact .inl hrest
  · obtain ⟨line, hline⟩ := splitLine_fst_ends hrest
    refine .inr ?_
    intro x u hx
    rw [hline, List.reverse_append, List.reverse_singleton, List.append_assoc,
      List.singleton_append, List.cons.injEq] at hx
    rw [← hx.1]
    decide

/-- A stretch of text before a layout. -/
theorem Laid.withText {base rest : List Char} {s : Scanned} {pending : List Char}
    (hplain : Plain pending.reverse rest) (hmax : Piece.startsText s.pieces = false)
    (h : Laid (pending ++ base) rest s.pieces) :
    Laid base (pending.reverse ++ rest) (s.withText pending).pieces := by
  by_cases hpending : pending = []
  · simpa [Scanned.withText, hpending] using h
  · simp only [Scanned.withText, hpending, if_false, Scanned.cons]
    refine .text (by simpa using hpending) hplain hmax ?_
    rwa [List.reverse_reverse]

theorem withText_fault (pending : List Char) (s : Scanned) :
    (s.withText pending).fault = s.fault := by
  unfold Scanned.withText
  split <;> rfl

/-- What the walk returns without a fault is a layout of the stretch behind it and of the text
before it. -/
theorem laid_of_scanFrom (before pending rest : List Char) :
    ∀ base, before = pending ++ base → Plain pending.reverse rest → Edge base rest →
      (scanFrom before pending rest).fault = none →
      Laid base (pending.reverse ++ rest) (scanFrom before pending rest).pieces := by
  fun_induction scanFrom before pending rest with
  | case1 before pending =>
    intro base hbefore hplain _ _
    exact .withText hplain rfl .done
  | case2 before pending inner cause hcut =>
    intro base _ _ _ hfault
    rw [withText_fault] at hfault
    cases hfault
  | case3 before pending inner c hcut _ cause htag =>
    intro base _ _ _ hfault
    rw [withText_fault] at hfault
    cases hfault
  | case4 before pending inner c hcut _ tag htag behind hline indent line _ ih =>
    intro base hbefore hplain hedge hfault
    rw [withText_fault] at hfault
    -- The indentation is the end of the pending text; `more` is what stays of it.
    have htaken : tag.takesLine = true ∧ hasLine before c.after = true := by simpa using hline
    have hbase := hedge.resolve_left (by simp)
    obtain ⟨more, hmore⟩ := lineStart_within hbase (by rw [← hbefore]; exact htaken.2)
    rw [← hbefore] at hmore
    have hdrop : pending.drop indent.length = more := by rw [hmore, List.drop_left]
    have hrest := ih _ rfl (plain_nil _) (edge_of_line _ _) hfault
    have hfits : PlacedTag.Fits ⟨before, indent.reverse, c.text, line, tag⟩ (more ++ base)
        (splitLine c.after).2 :=
      { place := by rw [hbefore, List.reverse_reverse, ← List.append_assoc, ← hmore]
        reads := ⟨inner, c, by rw [← splitLine_eq, ← cut_eq hcut], hcut, rfl, htag⟩
        alone := fun _ _ => ⟨List.reverse_reverse _, by rw [← splitLine_eq]⟩
        shared := fun h => absurd htaken (by rwa [← splitLine_eq] at h) }
    have htext : pending.reverse ++ '\x7b' :: '\x7b' :: inner
        = more.reverse ++ (indent.reverse ++ (c.text ++ (line ++ (splitLine c.after).2))) := by
      rw [← splitLine_eq, ← cut_eq hcut, hmore, List.reverse_append, List.append_assoc]
    rw [hdrop, htext]
    refine .withText ?_ rfl (.tag hfits hrest)
    rw [← splitLine_eq, ← cut_eq hcut]
    refine plain_of_append ?_
    rwa [← List.reverse_append, ← hmore]
  | case5 before pending inner c hcut _ tag htag behind hline ih =>
    intro base hbefore hplain hedge hfault
    rw [withText_fault] at hfault
    have hrest := ih _ rfl (plain_nil _) (edge_of_tag c before c.after) hfault
    have hfits : PlacedTag.Fits ⟨before, [], c.text, [], tag⟩ (pending ++ base) c.after :=
      { place := hbefore
        reads := ⟨inner, c, (cut_eq hcut).symm, hcut, rfl, htag⟩
        alone := fun htakes hhas => absurd (Bool.and_eq_true_iff.2 ⟨htakes, hhas⟩) hline
        shared := fun _ => ⟨rfl, rfl⟩ }
    refine .withText hplain rfl ?_
    rw [cut_eq hcut]
    exact .tag hfits hrest
  | case6 before pending c rest hbraces ih =>
    intro base hbefore hplain hedge hfault
    -- No tag begins here, so the character joins the pending text, and `base` stays where it is.
    have hedge' : Edge base rest := by
      rcases hedge with hnil | hbase
      · cases hnil
      · exact .inr hbase
    have := ih base (by rw [hbefore]; rfl) ?_ hedge' hfault
    · simpa using this
    · rw [List.reverse_cons]
      exact plain_snoc hplain (not_braces_iff.2 hbraces)

/-- **A text scans without a fault into exactly the pieces it is laid out in.** -/
theorem scan_eq_iff {text : List Char} {pieces : List Piece} :
    scan text = ⟨pieces, none⟩ ↔ Laid [] text pieces := by
  constructor
  · intro h
    have hlaid := laid_of_scanFrom [] [] text [] rfl (plain_nil text)
      (.inr fun _ _ hnil => by cases hnil) (congrArg Scanned.fault h)
    rwa [show scanFrom [] [] text = ⟨pieces, none⟩ from h] at hlaid
  · intro h
    exact scanFrom_of_laid h [] fun _ => rfl

end Stencil
