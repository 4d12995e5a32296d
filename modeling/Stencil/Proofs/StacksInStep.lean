import Stencil.Proofs.StackReader
import Mathlib

/-!
# Levels and open tags in step

A reader with two stacks (`StackReader`) never has to pass anything over. Between two tags there is
one level more than there are open tags; an open tag holds a main body exactly if an `else` of its
own has been passed; and where an indentation is to be taken back, the innermost level ends in a text
that ends in it. So the reader reads each template as `parse` does.

> `InStep`: what is kept: the two stacks are an outline taken apart, and what the scan still has in
> front of it comes on top of this outline.
> `InStep.step`: a step keeps it, or fails as reading the whole text does.
> `Frame.takeAll_inside`: an open block and the tags behind its opener.
> `stacks_in_step`: what follows for a text.
-/

namespace Stencil

open Text

/-! ## Outlines taken apart -/

namespace Outline

/-- An outline with text (in reverse) that is not taken in yet; an empty one is no piece. -/
def withText (o : Outline) (pending : List Char) : Outline :=
  if pending = [] then o else o.addText (String.ofList pending.reverse)

/-- The current level ends in a text without characters. -/
def EndsEmpty (o : Outline) : Prop := ∃ front, o.level = front ++ [.text ""]

/-- What comes of an outline when a scan is taken in. -/
def readOn (o : Outline) (s : Scanned) : Except SyntaxFault (List Node) :=
  match o.takeAll s.pieces with
  | .error f => .error f
  | .ok o =>
    match s.fault with
    | some f => .error f
    | none => o.finish

theorem readOn_withText (o : Outline) (pending : List Char) (s : Scanned) :
    o.readOn (s.withText pending) = (o.withText pending).readOn s := by
  unfold Scanned.withText withText
  split
  next => rfl
  next => rfl

theorem readOn_stop (o : Outline) (cause : SyntaxCause) (before : List Char) :
    o.readOn (.stop cause before) = .error ⟨cause, before⟩ := rfl

theorem readOn_tag_of_error {o : Outline} {placed : PlacedTag} {cause : SyntaxCause}
    (h : o.takeTag placed = .error cause) (s : Scanned) :
    o.readOn (s.cons (.tag placed)) = .error ⟨cause, placed.before⟩ := by
  simp only [readOn, Scanned.cons, takeAll, take, h]

theorem readOn_tag_of_ok {o o' : Outline} {placed : PlacedTag} (h : o.takeTag placed = .ok o')
    (s : Scanned) : o.readOn (s.cons (.tag placed)) = o'.readOn s := by
  simp only [readOn, Scanned.cons, takeAll, take, h]

theorem withText_nil (o : Outline) : o.withText [] = o := rfl

theorem blocks_withText (o : Outline) (pending : List Char) :
    (o.withText pending).blocks = o.blocks := by
  unfold withText
  split
  next => rfl
  next => rfl

theorem frames_withText (o : Outline) (pending : List Char) :
    (o.withText pending).frames = o.frames := by
  rw [frames, frames, blocks_withText]

/-- Text behind text that is not taken in yet. -/
theorem addText_withText (o : Outline) (pending : List Char) {chars : List Char} (hne : chars ≠ []) :
    (o.withText pending).addText (String.ofList chars) =
      o.withText (chars.reverse ++ pending) := by
  have hboth : chars.reverse ++ pending ≠ [] := by simp [hne]
  have hreverse : (chars.reverse ++ pending).reverse = pending.reverse ++ chars := by simp
  rw [withText, withText, if_neg hboth, hreverse]
  split
  next hpending => rw [hpending, List.reverse_nil, List.nil_append]
  next => rw [addText, addText, Node.addText_addText, ← String.ofList_append, addText]

/-- **A level that some text ends in**, and what is left of it without the end of the text. Only a
text that was empty before would now go away. -/
theorem withText_level (o : Outline) {indent : List Char} (hne : indent ≠ []) (more : List Char) :
    ∃ front kept, (o.withText (indent ++ more)).level =
        front ++ [.text (String.ofList (kept ++ indent.reverse))] ∧
      ((more = [] → ¬ o.EndsEmpty) →
        (if kept = [] then front else front ++ [.text (String.ofList kept)]) =
          (o.withText more).level) := by
  have hboth : indent ++ more ≠ [] := by simp [hne]
  have hlevel : (o.withText (indent ++ more)).level =
      Node.addText o.level (String.ofList (more.reverse ++ indent.reverse)) := by
    rw [withText, if_neg hboth, List.reverse_append]
    rfl
  rw [hlevel]
  rcases Node.addText_cases o.level (String.ofList (more.reverse ++ indent.reverse)) with
    ⟨front, t, ho, hadd⟩ | ⟨hnot, hadd⟩
  · -- The text joins one that stands there.
    have hjoin : ∀ chars, String.ofList (t.toList ++ chars) = t ++ String.ofList chars :=
      fun chars => by rw [String.ofList_append, String.ofList_toList]
    refine ⟨front, t.toList ++ more.reverse, ?_, fun hfull => ?_⟩
    · rw [hadd, List.append_assoc, hjoin]
    · by_cases hmore : more = []
      · have ht : t.toList ≠ [] := by
          intro ht
          have hempty : t = "" := String.toList_eq_nil_iff.1 ht
          exact hfull hmore ⟨front, by rw [ho, hempty]⟩
        rw [hmore, List.reverse_nil, List.append_nil, if_neg ht, String.ofList_toList, withText_nil,
          ho]
      · have hkept : t.toList ++ more.reverse ≠ [] := by simp [hmore]
        rw [if_neg hkept, hjoin, withText, if_neg hmore, addText, ho,
          Node.addText_append (List.cons_ne_nil _ _), Node.addText]
  · -- The text is a node of its own.
    refine ⟨o.level, more.reverse, hadd, fun _ => ?_⟩
    by_cases hmore : more = []
    · rw [hmore, List.reverse_nil, if_pos rfl, withText_nil]
    · rw [if_neg (by simpa using hmore), withText, if_neg hmore]
      rcases Node.addText_cases o.level (String.ofList more.reverse) with
        ⟨front, t, ho, -⟩ | ⟨-, hadd⟩
      · exact absurd ho (hnot front t)
      · exact hadd.symm

/-- A tag that takes its line adds no text. -/
theorem not_endsEmpty_of_takeTag {o o' : Outline} {placed : PlacedTag}
    (h : o.takeTag placed = .ok o') (htakes : placed.tag.takesLine = true)
    (ho : ¬ o.EndsEmpty) : ¬ o'.EndsEmpty := by
  cases htag : placed.tag with
  | lookup | literal | call | inclusion =>
    rw [htag] at htakes
    cases htakes
  | comment =>
    simp only [takeTag, htag] at h
    cases h
    exact ho
  | opener opening =>
    simp only [takeTag, htag] at h
    cases h
    rintro ⟨front, hlevel⟩
    simp [enter] at hlevel
  | otherwise =>
    simp only [takeTag, htag, turn] at h
    split at h
    next => cases h
    next =>
      split at h
      next => cases h
      next =>
        split at h
        next => cases h
        next =>
          cases h
          rintro ⟨front, hlevel⟩
          simp at hlevel
  | closer name =>
    simp only [takeTag, htag, leave] at h
    split at h
    next => cases h
    next b rest _ =>
      split at h
      next =>
        cases h
        rintro ⟨front, hlevel⟩
        -- The level ends in the node of the block.
        have hnode := List.singleton_inj.1 (List.append_inj' hlevel rfl).2
        unfold OpenBlock.finish at hnode
        split at hnode
        next => exact absurd hnode (Opening.node_ne_text _ _ _ _)
        next => exact absurd hnode (Opening.node_ne_text _ _ _ _)
      next => cases h

end Outline

namespace Stacks

/-- The two stacks of an outline. -/
def ofOutline (o : Outline) : Stacks where
  levels := o.level :: o.blocks.map OpenBlock.outer
  tags := o.blocks.map fun b => ⟨b.opening, b.before, b.main⟩
  lapses := []

theorem turn_ofOutline (o : Outline) : (ofOutline o).turn = o.turn.map ofOutline := by
  obtain ⟨level, blocks⟩ := o
  cases blocks with
  | nil => rfl
  | cons b rest =>
    simp only [turn, Outline.turn, ofOutline, List.map_cons]
    split
    next => rfl
    next =>
      split
      next => rfl
      next => rfl

theorem leave_ofOutline (o : Outline) (name : String) :
    (ofOutline o).leave name = (o.leave name).map ofOutline := by
  obtain ⟨level, blocks⟩ := o
  cases blocks with
  | nil => rfl
  | cons b rest =>
    simp only [leave, Outline.leave, ofOutline, List.map_cons]
    split
    next => rfl
    next => rfl

/-- **A tag does the same to an outline and to its stacks.** -/
theorem take_ofOutline (o : Outline) (placed : PlacedTag) :
    (ofOutline o).take placed.before placed.tag = (o.takeTag placed).map ofOutline := by
  unfold take Outline.takeTag
  cases placed.tag with
  | comment | lookup | literal | call | inclusion | opener => rfl
  | otherwise => exact turn_ofOutline o
  | closer name => exact leave_ofOutline o name

theorem finish_ofOutline (o : Outline) :
    (ofOutline o).finish = o.finish.map fun nodes => (nodes, []) := by
  obtain ⟨level, blocks⟩ := o
  cases blocks with
  | nil => rfl
  | cons b rest => rfl

theorem takeIndent_ofOutline {o : Outline} {indent more : List Char}
    (hfull : more = [] → ¬ o.EndsEmpty) :
    (ofOutline (o.withText (indent ++ more))).takeIndent indent = ofOutline (o.withText more) := by
  unfold takeIndent
  split
  next hindent => rw [hindent, List.nil_append]
  next hindent =>
    obtain ⟨front, kept, hlevel, hkept⟩ := o.withText_level hindent more
    have hlevels : (ofOutline (o.withText (indent ++ more))).levels =
        (front ++ [.text (String.ofList (kept ++ indent.reverse))]) ::
          o.blocks.map OpenBlock.outer := by
      rw [ofOutline, hlevel, o.blocks_withText]
    rw [← byteSize_reverse, takeBack_of_text hlevels, hkept hfull]
    simp only [ofOutline, o.blocks_withText]

end Stacks

/-! ## The tags behind an opener -/

/-- What is open behind the opener of a block, the block itself apart, and whether an `else` of the
block itself has been passed. -/
structure Inside where
  depth : Nat
  turned : Bool

namespace Inside

/-- Passes a tag that does not close the block. -/
def pass (s : Inside) (t : Tag) : Inside :=
  match t with
  | .opener _ => { s with depth := s.depth + 1 }
  | .closer _ => { s with depth := s.depth - 1 }
  | .otherwise => if s.depth = 0 then { s with turned := true } else s
  | .comment | .lookup .. | .literal .. | .call .. | .inclusion .. => s

theorem pass_inside {t : Tag} (hopener : ∀ o, t ≠ .opener o) (helse : t ≠ .otherwise)
    (hcloser : ∀ name, t ≠ .closer name) (s : Inside) : s.pass t = s := by
  cases t with
  | opener o => exact absurd rfl (hopener o)
  | otherwise => exact absurd rfl helse
  | closer name => exact absurd rfl (hcloser name)
  | comment | lookup | literal | call | inclusion => rfl

/-- Right behind some tags that stand behind the opener. -/
def behind (ms : List Mark) : Inside := ms.foldl (fun s m => s.pass m.2) ⟨0, false⟩

theorem behind_snoc (ms : List Mark) (m : Mark) : behind (ms ++ [m]) = (behind ms).pass m.2 := by
  rw [behind, List.foldl_append]
  rfl

end Inside

/-- Among some tags, a block was opened; behind its opener stand the tags that leave a number of
blocks open inside it. -/
def OpenAmong (ms : List Mark) (opening : Opening) (before : List Char) (inside : Inside) : Prop :=
  ∃ front since, ms = front ++ (before, .opener opening) :: since ∧ Inside.behind since = inside

theorem OpenAmong.snoc {ms : List Mark} {opening : Opening} {before : List Char} {inside : Inside}
    (h : OpenAmong ms opening before inside) (m : Mark) :
    OpenAmong (ms ++ [m]) opening before (inside.pass m.2) := by
  obtain ⟨front, since, rfl, rfl⟩ := h
  exact ⟨front, since ++ [m], by simp, Inside.behind_snoc since m⟩

/-- **Every open block was opened among the tags.** As many blocks are open inside it as stand before
it on the stack, and it is turned exactly if an `else` of its own was passed. -/
theorem Frame.takeAll_inside {ms : List Mark} {frames : List Frame}
    (h : takeAll [] ms = .ok frames) :
    ∀ i f, frames[i]? = some f → OpenAmong ms f.opening f.before ⟨i, f.turned⟩ := by
  induction ms using List.reverseRecOn generalizing frames with
  | nil =>
    cases h
    intro i f hf
    cases hf
  | append_singleton ms m ih =>
    rw [takeAll_append] at h
    cases hms : takeAll [] ms with
    | error g =>
      rw [hms] at h
      cases h
    | ok fs =>
      have ih := ih hms
      rw [hms, Except.bind, takeAll] at h
      split at h
      next => cases h
      next fs' htake =>
        cases h
        intro i f hf
        cases takes_of_take htake with
        | opener _ before o =>
          -- The new block is the innermost one, and one more is open inside all others.
          cases i with
          | zero =>
            cases hf
            exact ⟨ms, [], rfl, rfl⟩
          | succ i => exact (ih i f hf).snoc (before, .opener o)
        | @otherwise g rest before _ _ =>
          cases i with
          | zero =>
            cases hf
            exact (ih 0 g rfl).snoc (before, .otherwise)
          | succ i => exact (ih (i + 1) f hf).snoc (before, .otherwise)
        | closer g rest before => exact (ih (i + 1) f hf).snoc (before, .closer g.opening.closer)
        | @inside _ before t hopener helse hcloser =>
          have hsnoc := (ih i f hf).snoc (before, t)
          rwa [Inside.pass_inside hopener helse hcloser] at hsnoc

/-! ## A step -/

theorem lineStart_eq_nil {pending base : List Char} (h : lineStart (pending ++ base) = pending) :
    lineStart base = [] := by
  have hline : ∀ c ∈ pending, (c != '\n') = true := by
    intro c hc
    rw [← h, lineStart] at hc
    exact (List.mem_takeWhile_imp hc :)
  rw [lineStart, List.takeWhile_append_of_pos hline] at h
  exact List.append_right_eq_self.1 h

theorem Outline.not_endsEmpty_withText (o : Outline) {pending : List Char} (hne : pending ≠ []) :
    ¬ (o.withText pending).EndsEmpty := by
  rw [withText, if_neg hne]
  rintro ⟨front, hlevel⟩
  change Node.addText o.level _ = _ at hlevel
  -- The last node is a text that ends in the characters that were added.
  have hlast : ∃ t, t ++ String.ofList pending.reverse = "" := by
    rcases Node.addText_cases o.level (String.ofList pending.reverse) with
      ⟨front', t, -, hadd⟩ | ⟨-, hadd⟩
    · rw [hadd] at hlevel
      have hnode := List.singleton_inj.1 (List.append_inj' hlevel rfl).2
      exact ⟨t, Node.text.inj hnode⟩
    · rw [hadd] at hlevel
      have hnode := List.singleton_inj.1 (List.append_inj' hlevel rfl).2
      exact ⟨"", by rw [String.empty_append]; exact Node.text.inj hnode⟩
  obtain ⟨t, ht⟩ := hlast
  have hlist := congrArg String.toList ht
  rw [String.toList_append, String.toList_ofList] at hlist
  have hempty := (List.append_eq_nil_iff.1 hlist).2
  exact hne (List.reverse_eq_nil_iff.1 hempty)

namespace StackReader

/-- What is kept between two tags, for the text that was added last (`pending`, in reverse), the text
before it, the outline without it, and the tags so far. -/
structure Follows (text : List Char) (r : StackReader) (o : Outline) (pending base : List Char)
    (ms : List Mark) : Prop where
  state : r.state = .ofOutline (o.withText pending)
  place : r.before = pending ++ base
  edge : Edge base r.rest
  /-- No empty text stands at the end of a level where a line begins. -/
  full : lineStart base = [] → ¬ o.EndsEmpty
  nodes : (scan text).nodes = o.readOn (scanFrom r.before pending r.rest)
  passes : Passes [] text ms r.before r.rest
  frames : Frame.takeAll [] ms = .ok o.frames

/-- The reader stands in a text as its outline says. -/
def InStep (text : List Char) (r : StackReader) : Prop :=
  ∃ o pending base ms, r.Follows text o pending base ms

variable {text : List Char} {r : StackReader} {o : Outline} {pending base : List Char}
  {ms : List Mark} {inner : List Char} {c : Cut} {t : Tag}

theorem inStep_start (text : List Char) : InStep text (start text) :=
  ⟨.start, [], [], [], {
    state := rfl
    place := rfl
    edge := .inr fun _ _ h => by cases h
    full := fun _ ⟨front, h⟩ => by simp [Outline.start] at h
    nodes := rfl
    passes := .here
    frames := rfl }⟩

/-- Text goes to the text that was added last. -/
theorem Follows.takeText (h : r.Follows text o pending base ms) (hne : r.rest ≠ [])
    (hbraces : ¬ ['\x7b', '\x7b'] <+: r.rest) : InStep text r.takeText := by
  have hchars : (splitText r.rest).1 ≠ [] := by
    obtain ⟨d, rest, hrest⟩ := List.exists_cons_of_ne_nil hne
    rw [hrest] at hbraces ⊢
    exact splitText_ne_nil hbraces
  have hplain := plain_splitText r.rest
  refine ⟨o, (splitText r.rest).1.reverse ++ pending, base, ms, ?_⟩
  exact {
    state := by
      show r.state.addText _ = _
      rw [h.state, ← o.addText_withText pending hchars]
      rfl
    place := by
      show _ ++ r.before = _
      rw [h.place, List.append_assoc]
    edge := .inr (h.edge.resolve_left hne)
    full := h.full
    nodes := by
      have hscan := scanFrom_plain r.before pending hplain
      rw [splitText_eq] at hscan
      rw [h.nodes, hscan]
      rfl
    passes := by
      have hway : Passes r.before _ [] ((splitText r.rest).1.reverse ++ r.before) _ :=
        .plain hplain .here
      rw [splitText_eq] at hway
      have hpasses := h.passes.trans hway
      rwa [List.append_nil] at hpasses
    frames := h.frames }

/-- **The indentation of a line was added last**, and what is left without it is no empty text. -/
theorem Follows.indent (h : r.Follows text o pending base ms) (hne : r.rest ≠ [])
    {after : List Char} (hline : hasLine r.before after = true) :
    ∃ more, pending = lineStart r.before ++ more ∧ (more = [] → ¬ o.EndsEmpty) := by
  have hbase := h.edge.resolve_left hne
  rw [h.place] at hline ⊢
  obtain ⟨more, hmore⟩ := lineStart_within hbase hline
  refine ⟨more, hmore, fun hnil => ?_⟩
  rw [hnil, List.append_nil] at hmore
  exact h.full (lineStart_eq_nil hmore.symm)

/-- How a reader passes a tag: `kept` is what stays of the text that was added last. -/
structure Passed (r : StackReader) (o : Outline) (pending : List Char) (c : Cut) (t : Tag)
    (kept : List Char) (placed : PlacedTag) : Prop where
  before : placed.before = r.before
  tag : placed.tag = t
  state : (r.pass c).state = .ofOutline (o.withText kept)
  scans : scanFrom r.before pending r.rest =
    ((scanFrom (r.pass c).before [] (r.pass c).rest).cons (.tag placed)).withText kept
  edge : Edge (r.pass c).before (r.pass c).rest
  passes : Passes r.before r.rest [(r.before, t)] (r.pass c).before (r.pass c).rest
  full : lineStart (r.pass c).before = [] →
    t.takesLine = true ∧ ¬ (o.withText kept).EndsEmpty

theorem Follows.pass (h : r.Follows text o pending base ms)
    (hrest : r.rest = '\x7b' :: '\x7b' :: inner) (hcut : cut inner = .ok c)
    (htag : Tag.ofContent c.form c.content = .ok t) :
    ∃ kept placed, r.Passed o pending c t kept placed := by
  have hne : r.rest ≠ [] := by simp [hrest]
  have htakes := Cut.takesLine_eq htag
  by_cases hline : (c.takesLine && hasLine r.before c.after) = true
  · have hboth : c.takesLine = true ∧ hasLine r.before c.after = true := by simpa using hline
    -- The scan never adds the indentation; the reader has, and takes it back.
    obtain ⟨more, hmore, hfull⟩ := h.indent hne hboth.2
    have hpass : r.pass c = ⟨(splitLine c.after).1.reverse ++ (c.text.reverse ++ r.before),
        (splitLine c.after).2, .ofOutline (o.withText more)⟩ := by
      rw [StackReader.pass, if_pos hline, h.state, hmore, Stacks.takeIndent_ofOutline hfull]
    have hdrop : pending.drop (lineStart r.before).length = more := by
      rw [hmore, List.drop_left]
    refine ⟨more, ⟨r.before, (lineStart r.before).reverse, c.text, (splitLine c.after).1, t⟩, ?_⟩
    refine { before := rfl, tag := rfl, state := ?_, scans := ?_, edge := ?_, passes := ?_, full := ?_ }
    · rw [hpass]
    · rw [hpass, hrest, scanFrom_alone hcut htag (by rwa [← htakes]), hdrop]
    · rw [hpass]
      exact edge_of_line c.after _
    · rw [hpass, hrest]
      exact .line hcut htag hboth.2 .here
    · intro _
      refine ⟨by rw [← htakes]; exact hboth.1, ?_⟩
      by_cases hnil : more = []
      · rw [hnil]
        exact hfull hnil
      · exact o.not_endsEmpty_withText hnil
  · have hpass : r.pass c = ⟨c.text.reverse ++ r.before, c.after, r.state⟩ := by
      rw [StackReader.pass, if_neg hline]
    refine ⟨pending, ⟨r.before, [], c.text, [], t⟩, ?_⟩
    refine { before := rfl, tag := rfl, state := ?_, scans := ?_, edge := ?_, passes := ?_, full := ?_ }
    · rw [hpass]
      exact h.state
    · rw [hpass, hrest, scanFrom_shared hcut htag (by rwa [← htakes])]
    · rw [hpass]
      exact edge_of_tag c r.before c.after
    · rw [hpass, hrest]
      exact .tag hcut htag .here
    · -- Behind a brace no line begins.
      intro hstart
      rw [hpass] at hstart
      obtain ⟨front, hfront⟩ := cut_text_ends c
      rw [hfront, List.reverse_append] at hstart
      simp [lineStart] at hstart

/-- **A tag is taken in, or it is at fault in the whole text.** -/
theorem Follows.takeTag (h : r.Follows text o pending base ms)
    (hrest : r.rest = '\x7b' :: '\x7b' :: inner) (hcut : cut inner = .ok c) :
    (∃ r', r.takeTag c = .ok r' ∧ InStep text r') ∨
      ∃ f, r.takeTag c = .error f ∧ (scan text).nodes = .error f := by
  cases htag : Tag.ofContent c.form c.content with
  | error cause =>
    refine .inr ⟨⟨cause, r.before⟩, by simp only [StackReader.takeTag, htag], ?_⟩
    rw [h.nodes, hrest, scanFrom_of_stops (.unread hcut htag), Outline.readOn_withText,
      Outline.readOn_stop]
  | ok t =>
    obtain ⟨kept, placed, hpass⟩ := h.pass hrest hcut htag
    have htake := Stacks.take_ofOutline (o.withText kept) placed
    rw [hpass.before, hpass.tag, ← hpass.state] at htake
    have hframes := Frame.take_placed (o.withText kept) placed
    rw [o.frames_withText, hpass.before, hpass.tag] at hframes
    cases ho : (o.withText kept).takeTag placed with
    | error cause =>
      rw [ho] at htake
      refine .inr ⟨⟨cause, r.before⟩, ?_, ?_⟩
      · simp only [StackReader.takeTag, htag, htake, Except.map]
      · rw [h.nodes, hpass.scans, Outline.readOn_withText, Outline.readOn_tag_of_error ho,
          hpass.before]
    | ok o' =>
      rw [ho] at htake hframes
      refine .inl ⟨{ r.pass c with state := .ofOutline o' }, ?_, ?_⟩
      · simp only [StackReader.takeTag, htag, htake, Except.map]
      · refine ⟨o', [], (r.pass c).before, ms ++ [(r.before, t)], ?_⟩
        exact {
          state := rfl
          place := rfl
          edge := hpass.edge
          full := fun hstart => by
            obtain ⟨htakes, hfull⟩ := hpass.full hstart
            rw [← hpass.tag] at htakes
            exact Outline.not_endsEmpty_of_takeTag ho htakes hfull
          nodes := by
            rw [h.nodes, hpass.scans, Outline.readOn_withText, Outline.readOn_tag_of_ok ho]
          passes := h.passes.trans hpass.passes
          frames := by
            rw [Frame.takeAll_append, h.frames, Except.bind, Frame.takeAll, ← hframes]
            rfl }

/-- **A step goes on as the outline does**, or it fails as reading the whole text does. -/
theorem InStep.step (h : InStep text r) (hne : r.rest ≠ []) :
    (∃ r', r.step = .ok r' ∧ InStep text r') ∨
      ∃ f, r.step = .error f ∧ (scan text).nodes = .error f := by
  obtain ⟨o, pending, base, ms, h⟩ := h
  by_cases hbraces : ['\x7b', '\x7b'] <+: r.rest
  · obtain ⟨inner, hinner⟩ := hbraces
    have hrest : r.rest = '\x7b' :: '\x7b' :: inner := hinner.symm
    cases hcut : cut inner with
    | error cause =>
      refine .inr ⟨⟨cause, r.before⟩, by simp only [StackReader.step, hrest, hcut], ?_⟩
      rw [h.nodes, hrest, scanFrom_of_stops (.uncut hcut), Outline.readOn_withText,
        Outline.readOn_stop]
    | ok c =>
      rw [step_of_tag hrest hcut]
      exact h.takeTag hrest hcut
  · exact .inl ⟨_, step_of_text hbraces, h.takeText hne hbraces⟩

theorem InStep.finish (h : InStep text r) (hended : r.rest = []) :
    r.state.finish = (scan text).nodes.map fun nodes => (nodes, []) := by
  obtain ⟨o, pending, base, ms, h⟩ := h
  rw [h.state, Stacks.finish_ofOutline, h.nodes, hended, scanFrom_nil, Outline.readOn_withText]
  rfl

/-- **What comes of a reader is what is read of the text**, and nothing was passed over. -/
theorem InStep.run {r : StackReader} (h : InStep text r) :
    r.run = (scan text).nodes.map fun nodes => (nodes, []) := by
  by_cases hended : r.rest = []
  · rw [run_of_ended hended, h.finish hended]
  · rcases h.step hended with ⟨r', hstep, hr'⟩ | ⟨f, hstep, hnodes⟩
    · have hshorter := step_rest_length hended hstep
      rw [run_of_ok hended hstep]
      exact InStep.run hr'
    · rw [run_of_error hended hstep, hnodes]
      rfl
termination_by r.rest.length

theorem Reached.inStep (h : Reached text r) : InStep text r := by
  induction h with
  | start => exact inStep_start text
  | step _ hne hstep ih =>
    rcases ih.step hne with ⟨r', hr', hkept⟩ | ⟨f, hf, -⟩
    · cases hstep.symm.trans hr'
      exact hkept
    · cases hstep.symm.trans hf

/-! ## What a reader may rely on -/

/-- A tag is open in a text in front of a place, with a number of other tags open inside it. -/
structure OpenAt (text : List Char) (r : StackReader) (depth : Nat) (tag : OpenTag) : Prop where
  /-- The opener was read where the tag says, and the cursor is behind it. -/
  opener : ∃ inner c, text = tag.before.reverse ++ '\x7b' :: '\x7b' :: inner ∧
    cut inner = .ok c ∧ Tag.ofContent c.form c.content = .ok (.opener tag.opening) ∧
    ∃ more, r.before = more ++ (c.text.reverse ++ tag.before)
  /-- There is a main body exactly if an `else` of the tag was passed. -/
  body : ∃ ms, Passes [] text ms r.before r.rest ∧
    OpenAmong ms tag.opening tag.before ⟨depth, tag.main.isSome⟩

/-- The stacks of a reader are in step. -/
structure Sound (text : List Char) (r : StackReader) : Prop where
  levels : r.state.levels.length = r.state.tags.length + 1
  tags : ∀ i tag, r.state.tags[i]? = some tag → r.OpenAt text i tag
  lapses : r.state.lapses = []
  /-- An indentation that is about to be taken back is the end of the text at the top, and taking it
  back is no lapse. -/
  indent : ∀ inner c, r.rest = '\x7b' :: '\x7b' :: inner → cut inner = .ok c →
    (c.takesLine && hasLine r.before c.after) = true → lineStart r.before ≠ [] →
      (r.pass c).state.lapses = [] ∧ ∃ front kept outer, r.state.levels =
        (front ++ [.text (String.ofList (kept ++ (lineStart r.before).reverse))]) :: outer

theorem Follows.openAt (h : r.Follows text o pending base ms) {i : Nat} {tag : OpenTag}
    (htag : r.state.tags[i]? = some tag) : r.OpenAt text i tag := by
  rw [h.state] at htag
  have hframe : o.frames[i]? = some ⟨tag.opening, tag.before, tag.main.isSome⟩ := by
    rw [← o.frames_withText pending, Outline.frames, List.getElem?_map]
    obtain ⟨b, hb, rfl⟩ := by
      simpa [Stacks.ofOutline] using htag
    rw [hb]
    rfl
  have hamong := Frame.takeAll_inside h.frames i _ hframe
  obtain ⟨front, since, hms, -⟩ := id hamong
  have hpasses := h.passes
  rw [hms] at hpasses
  obtain ⟨inner, c, hfront, hcut, hopener, hsince⟩ := hpasses.split
  obtain ⟨more, -, hbefore, -⟩ := hsince.change
  exact {
    opener := ⟨inner, c, hfront.text_eq, hcut, hopener, more.reverse, hbefore⟩
    body := ⟨ms, h.passes, hamong⟩ }

theorem InStep.sound (h : InStep text r) : r.Sound text := by
  obtain ⟨o, pending, base, ms, h⟩ := h
  exact {
    levels := by
      rw [h.state]
      simp [Stacks.ofOutline]
    tags := fun i tag htag => h.openAt htag
    lapses := by
      rw [h.state]
      rfl
    indent := by
      intro inner c hrest hcut hline hindent
      have hne : r.rest ≠ [] := by simp [hrest]
      have hboth : c.takesLine = true ∧ hasLine r.before c.after = true := by simpa using hline
      obtain ⟨more, hmore, hfull⟩ := h.indent hne hboth.2
      constructor
      · rw [StackReader.pass, if_pos hline, h.state, hmore, Stacks.takeIndent_ofOutline hfull]
        rfl
      · obtain ⟨front, kept, hlevel, -⟩ := o.withText_level hindent more
        rw [← hmore] at hlevel
        refine ⟨front, kept, o.blocks.map OpenBlock.outer, ?_⟩
        rw [h.state, Stacks.ofOutline, hlevel, o.blocks_withText] }

end StackReader

/-- **Levels and open tags stay in step, and nothing is passed over.** Reading with two stacks gives
what `parse` gives, for every text, and no lapse is noted on the way. Wherever the reader stands
between two tags, there is one level more than there are open tags; each open tag was read at the
place that is stored with it, in front of the cursor, and holds a main body exactly if an `else` of
its own has been passed; and if the next tag takes its line with an indentation, then the text at
the top ends in exactly this indentation. -/
theorem stacks_in_step (text : String) :
    (StackReader.start text.toList).run.mapError SyntaxFault.fault =
        (parse text).map (fun nodes => (nodes, [])) ∧
      ∀ r, StackReader.Reached text.toList r → r.Sound text.toList := by
  refine ⟨?_, fun r hr => hr.inStep.sound⟩
  rw [(StackReader.inStep_start text.toList).run, parse]
  cases (scan text.toList).nodes with
  | ok nodes => rfl
  | error f => rfl

/-- Behind an indented `else`: the indentation has gone from the main body. -/
theorem stacks_in_step_of_else :
    let text := "\x7b\x7b#if a\x7d\x7dx\n  \x7b\x7belse\x7d\x7d\ny\x7b\x7b/if\x7d\x7d"
    let opening := Opening.keyword .whenTrue (.path (.named "a" []))
    let r : StackReader := ⟨"\x7b\x7b#if a\x7d\x7dx\n  \x7b\x7belse\x7d\x7d\n".toList.reverse,
      "y\x7b\x7b/if\x7d\x7d".toList, ⟨[[], []], [⟨opening, [], some [.text "x\n"]⟩], []⟩⟩
    StackReader.Reached text.toList r ∧ r.Sound text.toList := by
  intro text opening r
  have hopener : (StackReader.start text.toList).step = .ok
      ⟨"\x7b\x7b#if a\x7d\x7d".toList.reverse,
        "x\n  \x7b\x7belse\x7d\x7d\ny\x7b\x7b/if\x7d\x7d".toList,
        ⟨[[], []], [⟨opening, [], none⟩], []⟩⟩ := by cbv
  have htext : StackReader.step ⟨"\x7b\x7b#if a\x7d\x7d".toList.reverse,
      "x\n  \x7b\x7belse\x7d\x7d\ny\x7b\x7b/if\x7d\x7d".toList,
      ⟨[[], []], [⟨opening, [], none⟩], []⟩⟩ = .ok
      ⟨"\x7b\x7b#if a\x7d\x7dx\n  ".toList.reverse,
        "\x7b\x7belse\x7d\x7d\ny\x7b\x7b/if\x7d\x7d".toList,
        ⟨[[.text "x\n  "], []], [⟨opening, [], none⟩], []⟩⟩ := by cbv
  have helse : StackReader.step ⟨"\x7b\x7b#if a\x7d\x7dx\n  ".toList.reverse,
      "\x7b\x7belse\x7d\x7d\ny\x7b\x7b/if\x7d\x7d".toList,
      ⟨[[.text "x\n  "], []], [⟨opening, [], none⟩], []⟩⟩ = .ok r := by cbv
  have hreached : StackReader.Reached text.toList r :=
    .step (.step (.step .start (by simp [text, StackReader.start]) hopener) (by simp) htext)
      (by simp) helse
  exact ⟨hreached, (stacks_in_step text).2 r hreached⟩

end Stencil
