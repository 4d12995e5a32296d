import Stencil.Proofs.MovedTags

/-!
# The tags of a text

`Layout` says how a text that can be scanned is laid out in pieces. Here it is said which tags any
scan comes to, also one that stops at a fault, and without regard to lines: `Passes before rest
marks before' rest'` holds when a reader who stands in front of `rest` goes on to the place in
front of `rest'` and passes exactly the tags `marks` on the way, each noted with the text before it.
The line that a tag may take along holds no braces, so it makes no difference to a reader who does
not jump over it.

> `scan_passes`: a scan passes the tags among its pieces, and stops at the end of the text or at a
> tag that cannot be read.
> `Passes.goOn`: the way is the same for every reader.
> `Passes.change`: it does not depend on what stands beyond the place where it ends.

As in `scanFrom`, what stands before a place is kept in reverse.
-/

namespace Stencil

open Text

/-- A tag and the text before it, in reverse. -/
abbrev Mark : Type := List Char × Tag

/-- The tag of a piece. -/
def Piece.mark? : Piece → Option Mark
  | text _ => none
  | tag placed => some (placed.before, placed.tag)

/-- The tags among some pieces. -/
def marks (pieces : List Piece) : List Mark := pieces.filterMap Piece.mark?

@[simp]
theorem marks_text (chars : List Char) (pieces : List Piece) :
    marks (.text chars :: pieces) = marks pieces := rfl

@[simp]
theorem marks_tag (placed : PlacedTag) (pieces : List Piece) :
    marks (.tag placed :: pieces) = (placed.before, placed.tag) :: marks pieces := rfl

@[simp]
theorem marks_append (ps qs : List Piece) : marks (ps ++ qs) = marks ps ++ marks qs :=
  List.filterMap_append

@[simp]
theorem marks_withText (pending : List Char) (s : Scanned) :
    marks (s.withText pending).pieces = marks s.pieces := by
  unfold Scanned.withText
  split <;> rfl

/-- The way from one place of a text to another, and the tags that are passed. -/
inductive Passes : List Char → List Char → List Mark → List Char → List Char → Prop where
  | here {before rest} : Passes before rest [] before rest
  | char {before c rest marks before' rest'} (hc : ¬ ['\x7b', '\x7b'] <+: c :: rest)
      (h : Passes (c :: before) rest marks before' rest') :
      Passes before (c :: rest) marks before' rest'
  | tag {before inner marks before' rest'} {c : Cut} {t : Tag} (hcut : cut inner = .ok c)
      (htag : Tag.ofContent c.form c.content = .ok t)
      (h : Passes (c.text.reverse ++ before) c.after marks before' rest') :
      Passes before ('\x7b' :: '\x7b' :: inner) ((before, t) :: marks) before' rest'

/-- No tag can be read in front of a text. -/
inductive Stops : List Char → Option SyntaxCause → Prop where
  | ended : Stops [] none
  | uncut {inner cause} (h : cut inner = .error cause) :
      Stops ('\x7b' :: '\x7b' :: inner) (some cause)
  | unread {inner cause} {c : Cut} (hcut : cut inner = .ok c)
      (h : Tag.ofContent c.form c.content = .error cause) :
      Stops ('\x7b' :: '\x7b' :: inner) (some cause)

theorem Stops.braces {c : Char} {rest : List Char} {cause : Option SyntaxCause}
    (h : Stops (c :: rest) cause) : ['\x7b', '\x7b'] <+: c :: rest := by
  cases h with
  | uncut => exact ⟨_, rfl⟩
  | unread => exact ⟨_, rfl⟩

theorem Stops.unreadable {inner : List Char} {c : Cut} {t : Tag} {cause : Option SyntaxCause}
    (h : Stops ('\x7b' :: '\x7b' :: inner) cause) (hcut : cut inner = .ok c) :
    Tag.ofContent c.form c.content ≠ .ok t := by
  intro htag
  cases h with
  | uncut h => cases h.symm.trans hcut
  | unread hcut' h =>
    cases hcut'.symm.trans hcut
    cases h.symm.trans htag

namespace Passes

variable {before rest before' rest' : List Char} {ms : List Mark}

/-- Both places are places of one text. -/
theorem text_eq (h : Passes before rest ms before' rest') :
    before.reverse ++ rest = before'.reverse ++ rest' := by
  induction h with
  | here => rfl
  | char _ _ ih => rw [← ih, List.reverse_cons, List.append_assoc, List.singleton_append]
  | tag hcut _ _ ih =>
    rw [← ih, cut_eq hcut, List.reverse_append, List.reverse_reverse, List.append_assoc]

theorem plain {chars : List Char} (hplain : Plain chars rest)
    (h : Passes (chars.reverse ++ before) rest ms before' rest') :
    Passes before (chars ++ rest) ms before' rest' := by
  induction chars generalizing before with
  | nil => exact h
  | cons c chars ih =>
    have hc : ¬ ['\x7b', '\x7b'] <+: c :: (chars ++ rest) := hplain [] (c :: chars) rfl (by simp)
    refine .char hc (ih (fun a b hab hb => hplain (c :: a) b (by rw [hab]; rfl) hb) ?_)
    rwa [List.reverse_cons, List.append_assoc] at h

/-- A way that goes on where another one ends. -/
theorem trans (h : Passes before rest ms before' rest') {ms' : List Mark} {last rest'' : List Char}
    (h' : Passes before' rest' ms' last rest'') : Passes before rest (ms ++ ms') last rest'' := by
  induction h with
  | here => exact h'
  | char hc _ ih => exact .char hc (ih h')
  | tag hcut htag _ ih => exact .tag hcut htag (ih h')

/-- The way over a tag and the line that it has to itself. -/
theorem line {inner : List Char} {c : Cut} {t : Tag} (hcut : cut inner = .ok c)
    (htag : Tag.ofContent c.form c.content = .ok t) (hline : hasLine before c.after = true)
    (h : Passes ((splitLine c.after).1.reverse ++ (c.text.reverse ++ before)) (splitLine c.after).2
      ms before' rest') :
    Passes before ('\x7b' :: '\x7b' :: inner) ((before, t) :: ms) before' rest' := by
  refine .tag hcut htag ?_
  -- The line that the tag takes along is blank, so no tag begins in it.
  have hblank : (splitLine c.after).1.all isBlank = true := by
    unfold hasLine at hline
    exact (Bool.and_eq_true_iff.1 hline).2
  have hplain : Plain (splitLine c.after).1 (splitLine c.after).2 :=
    plain_of_notMem (fun hmem => absurd (List.all_eq_true.1 hblank _ hmem) (by decide)) _
  have hway := plain hplain h
  rwa [← splitLine_eq] at hway

/-- **The way is the same for every reader**: who goes on to where no tag can be read comes to the
place, too. -/
theorem goOn (h : Passes before rest ms before' rest') {ms' : List Mark} {last rest'' : List Char}
    {cause : Option SyntaxCause} (h' : Passes before rest ms' last rest'')
    (hstops : Stops rest'' cause) :
    ∃ more, ms' = ms ++ more ∧ Passes before' rest' more last rest'' := by
  induction h generalizing ms' with
  | here => exact ⟨ms', rfl, h'⟩
  | char hc _ ih =>
    cases h' with
    | here => exact absurd hstops.braces hc
    | char _ h' => exact ih h'
    | tag => exact absurd ⟨_, rfl⟩ hc
  | tag hcut htag _ ih =>
    cases h' with
    | here => exact absurd htag (hstops.unreadable hcut)
    | char hc => exact absurd ⟨_, rfl⟩ hc
    | tag hcut' htag' h' =>
      cases hcut.symm.trans hcut'
      cases htag.symm.trans htag'
      obtain ⟨more, rfl, hmore⟩ := ih h'
      exact ⟨more, rfl, hmore⟩

/-- Where no tag can be read, there is no way on. -/
theorem eq_of_stops (h : Passes before rest ms before' rest') {cause : Option SyntaxCause}
    (hstops : Stops rest cause) : ms = [] ∧ before' = before ∧ rest' = rest := by
  cases h with
  | here => exact ⟨rfl, rfl, rfl⟩
  | char hc => exact absurd hstops.braces hc
  | tag hcut htag => exact absurd htag (hstops.unreadable hcut)

/-- The part of a way up to one of its tags. -/
theorem split {front more : List Mark} {b : List Char} {t : Tag}
    (h : Passes before rest (front ++ (b, t) :: more) before' rest') :
    ∃ inner c, Passes before rest front b ('\x7b' :: '\x7b' :: inner) ∧ cut inner = .ok c ∧
      Tag.ofContent c.form c.content = .ok t ∧
      Passes (c.text.reverse ++ b) c.after more before' rest' := by
  generalize hall : front ++ (b, t) :: more = all at h
  induction h generalizing front with
  | here => cases front <;> cases hall
  | char hc _ ih =>
    obtain ⟨inner, c, hfront, hrest⟩ := ih hall
    exact ⟨inner, c, .char hc hfront, hrest⟩
  | tag hcut htag hpasses ih =>
    cases front with
    | nil =>
      cases hall
      exact ⟨_, _, .here, hcut, htag, hpasses⟩
    | cons m front =>
      rw [List.cons_append] at hall
      obtain ⟨rfl, hmarks⟩ := List.cons.inj hall
      obtain ⟨inner, c, hfront, hrest⟩ := ih hmarks
      exact ⟨inner, c, .tag hcut htag hfront, hrest⟩

/-- **What stands beyond its end does not matter to a way**, as long as no braces come together
there that did not stand together before. -/
theorem change (h : Passes before rest ms before' rest') :
    ∃ front, rest = front ++ rest' ∧ before' = front.reverse ++ before ∧
      ∀ other : List Char, other = [] ∨ other.head? = rest'.head? →
        Passes before (front ++ other) ms before' other := by
  induction h with
  | here => exact ⟨[], rfl, rfl, fun _ _ => .here⟩
  | @char before c rest ms before' rest' hc _ ih =>
    obtain ⟨front, rfl, rfl, hother⟩ := ih
    refine ⟨c :: front, rfl, by simp, fun other hhead => .char ?_ (hother other hhead)⟩
    -- A brace could only meet another one at the seam, and what stands there begins as before.
    rw [not_braces_iff] at hc ⊢
    intro inner hbrace hinner
    cases front with
    | nil =>
      obtain rfl : other = '\x7b' :: inner := hinner
      rcases hhead with hnil | hhead
      · cases hnil
      · cases rest' with
        | nil => cases hhead
        | cons d rest' =>
          cases hhead
          exact hc rest' hbrace rfl
    | cons d front =>
      obtain ⟨rfl, -⟩ := List.cons.inj hinner
      exact hc (front ++ rest') hbrace rfl
  | @tag before inner ms before' rest' c t hcut htag _ ih =>
    obtain ⟨front, hafter, rfl, hother⟩ := ih
    refine ⟨c.text ++ front, ?_, by simp, fun other hhead => ?_⟩
    · rw [cut_eq hcut, hafter, List.append_assoc]
    · have hcut' := cut_of_text hcut (front ++ other)
      have hpasses := hother other hhead
      rw [List.append_assoc, Cut.text_eq]
      exact .tag hcut' htag hpasses

end Passes

/-- A scan ends in front of a tag that cannot be read. -/
theorem scanFrom_of_stops {rest : List Char} {cause : SyntaxCause} (h : Stops rest (some cause))
    (before pending : List Char) :
    scanFrom before pending rest = (Scanned.stop cause before).withText pending := by
  cases h with
  | uncut h =>
    rw [scanFrom]
    split
    next heq =>
      cases heq.symm.trans h
      rfl
    next heq => cases heq.symm.trans h
  | unread hcut h =>
    rw [scanFrom]
    split
    next heq => cases heq.symm.trans hcut
    next heq =>
      cases heq.symm.trans hcut
      rw [h]

/-- A scan passes the tags among its pieces, from whatever place it starts. -/
theorem scanFrom_passes (before pending rest : List Char) :
    ∃ last end', Passes before rest (marks (scanFrom before pending rest).pieces) last end' ∧
      Stops end' ((scanFrom before pending rest).fault.map SyntaxFault.cause) ∧
      ∀ f, (scanFrom before pending rest).fault = some f → f.before = last := by
  fun_induction scanFrom before pending rest with
  | case1 before pending =>
    refine ⟨before, [], ?_, ?_, ?_⟩
    · rw [marks_withText]
      exact .here
    · rw [withText_fault]
      exact .ended
    · intro f hf
      rw [withText_fault] at hf
      cases hf
  | case2 before pending inner cause hcut =>
    refine ⟨before, '\x7b' :: '\x7b' :: inner, ?_, ?_, ?_⟩
    · rw [marks_withText]
      exact .here
    · rw [withText_fault]
      exact .uncut hcut
    · intro f hf
      rw [withText_fault] at hf
      cases hf
      rfl
  | case3 before pending inner c hcut _ cause htag =>
    refine ⟨before, '\x7b' :: '\x7b' :: inner, ?_, ?_, ?_⟩
    · rw [marks_withText]
      exact .here
    · rw [withText_fault]
      exact .unread hcut htag
    · intro f hf
      rw [withText_fault] at hf
      cases hf
      rfl
  | case4 before pending inner c hcut _ tag htag behind hline indent line _ ih =>
    obtain ⟨last, end', hpasses, hstops, hfault⟩ := ih
    rw [marks_withText, withText_fault]
    have hboth : tag.takesLine = true ∧ hasLine before c.after = true := by simpa using hline
    exact ⟨last, end', .line hcut htag hboth.2 hpasses, hstops, hfault⟩
  | case5 before pending inner c hcut _ tag htag behind hline ih =>
    obtain ⟨last, end', hpasses, hstops, hfault⟩ := ih
    rw [marks_withText, withText_fault]
    exact ⟨last, end', .tag hcut htag hpasses, hstops, hfault⟩
  | case6 before pending c rest hbraces ih =>
    obtain ⟨last, end', hpasses, hstops, hfault⟩ := ih
    exact ⟨last, end', .char (not_braces_iff.2 hbraces) hpasses, hstops, hfault⟩

/-- **A scan passes the tags among its pieces** and stops at the end of the text, or where a tag
cannot be read. -/
theorem scan_passes (text : List Char) :
    ∃ last end', Passes [] text (marks (scan text).pieces) last end' ∧
      Stops end' ((scan text).fault.map SyntaxFault.cause) ∧
      ∀ f, (scan text).fault = some f → f.before = last := scanFrom_passes [] [] text

/-- The tags that some pieces of a scan hold stand in the text: one of them is read at each of
their places. -/
theorem tag_of_scan {text : List Char} {placed : PlacedTag}
    (h : .tag placed ∈ (scan text).pieces) :
    ∃ inner c, text = placed.before.reverse ++ '\x7b' :: '\x7b' :: inner ∧ cut inner = .ok c ∧
      Tag.ofContent c.form c.content = .ok placed.tag := by
  obtain ⟨front, rest, hpieces⟩ := List.append_of_mem h
  obtain ⟨last, end', hpasses, -, -⟩ := scan_passes text
  rw [hpieces, marks_append, marks_tag] at hpasses
  obtain ⟨inner, c, hfront, hcut, htag, -⟩ := hpasses.split
  exact ⟨inner, c, hfront.text_eq, hcut, htag⟩

end Stencil
