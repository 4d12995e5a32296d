import Stencil.Proofs.Nesting
import Mathlib

/-!
# Where a fault is found

A fault of the syntax is reported with a line and a column. They are those of a tag: of the innermost
opener that is left open when the text ends in a block, and otherwise of the first tag that cannot be
read or does not go with the open blocks. All that stands in front of this tag is in order, and what
stands behind it makes no difference, as long as the tag has an end.

> `Position.after_inj`: a line and a column are those of one place of a text at most.
> `Fails.before`: the text in front of the failing tag is at fault at its end at most.
> `Fails.append`: the fault stays when text is appended.
> `fault_at_tag`: what is reported for a template.
-/

namespace Stencil

open Text

/-! ## Positions -/

namespace Text

theorem byteSize_append (a b : List Char) : byteSize (a ++ b) = byteSize a + byteSize b := by
  induction a with
  | nil => exact (Nat.zero_add _).symm
  | cons c a ih => rw [List.cons_append, byteSize, byteSize, ih, Nat.add_assoc]

theorem eq_nil_of_byteSize {cs : List Char} (h : byteSize cs = 0) : cs = [] := by
  cases cs with
  | nil => rfl
  | cons c rest =>
    rw [byteSize] at h
    have := c.utf8Size_pos
    omega

/-- Text in front of a place moves it on. -/
theorem Position.eq_nil_of_after {more before : List Char}
    (h : Position.after (more ++ before) = Position.after before) : more = [] := by
  obtain ⟨hline, hcolumn⟩ := Position.mk.inj h
  have hbreaks : more.count '\n' = 0 := by
    rw [List.count_append] at hline
    omega
  have htake : (more ++ before).takeWhile (· != '\n') = more ++ before.takeWhile (· != '\n') := by
    refine List.takeWhile_append_of_pos fun c hc => ?_
    rw [bne_iff_ne]
    rintro rfl
    exact List.count_eq_zero.1 hbreaks hc
  rw [htake, byteSize_append] at hcolumn
  exact eq_nil_of_byteSize (by omega)

/-- **A line and a column are those of one place of a text at most.** -/
theorem Position.after_inj {before other rest rest' : List Char}
    (htext : before.reverse ++ rest = other.reverse ++ rest')
    (h : Position.after before = Position.after other) : before = other := by
  -- One of the two places comes first, and text between them would move the position on.
  rcases List.append_eq_append_iff.1 htext with ⟨more, hother, -⟩ | ⟨more, hbefore, -⟩
  · have hother : other = more.reverse ++ before := by
      rw [← List.reverse_inj, hother, List.reverse_append, List.reverse_reverse]
    rw [hother] at h ⊢
    rw [Position.eq_nil_of_after h.symm, List.nil_append]
  · have hbefore : before = more.reverse ++ other := by
      rw [← List.reverse_inj, hbefore, List.reverse_append, List.reverse_reverse]
    rw [hbefore] at h ⊢
    rw [Position.eq_nil_of_after h, List.nil_append]

end Text

/-! ## The failing tag -/

theorem Stops.unique {rest : List Char} {cause cause' : Option SyntaxCause} (h : Stops rest cause)
    (h' : Stops rest cause') : cause = cause' := by
  cases h with
  | ended =>
    cases h'
    rfl
  | uncut hcut =>
    cases h' with
    | uncut hcut' =>
      cases hcut.symm.trans hcut'
      rfl
    | unread hcut' => cases hcut.symm.trans hcut'
  | unread hcut htag =>
    cases h' with
    | uncut hcut' => cases hcut.symm.trans hcut'
    | unread hcut' htag' =>
      cases hcut.symm.trans hcut'
      cases htag.symm.trans htag'
      rfl

/-- A tag that has an end keeps it when text is appended. -/
theorem cut_append {inner : List Char} {c : Cut} (h : cut inner = .ok c) (more : List Char) :
    cut (inner ++ more) = .ok { c with after := c.after ++ more } := by
  have htext := cut_of_text h (c.after ++ more)
  rwa [← List.append_assoc, ← cut_inner h] at htext

/-- A scan passes all the tags on the way to a place, and goes on from there. -/
theorem Passes.goes_on {text before rest : List Char} {ms : List Mark}
    (h : Passes [] text ms before rest) :
    ∃ more last end', marks (scan text).pieces = ms ++ more ∧ Passes before rest more last end' ∧
      Stops end' ((scan text).fault.map SyntaxFault.cause) ∧
      ∀ f, (scan text).fault = some f → f.before = last := by
  obtain ⟨last, end', hpasses, hstops, hfault⟩ := scan_passes text
  obtain ⟨more, hmarks, hmore⟩ := h.goOn hpasses hstops
  exact ⟨more, last, end', hmarks, hmore, hstops, hfault⟩

/-- In front of a text, behind tags that leave the given blocks open, there is a tag that fails: it
does not go with the blocks, or it cannot be read. -/
inductive Fails (frames : List Frame) (f : SyntaxFault) : List Char → Prop where
  | taken {inner : List Char} {c : Cut} {t : Tag} (hcut : cut inner = .ok c)
      (htag : Tag.ofContent c.form c.content = .ok t)
      (htake : Frame.take frames (f.before, t) = .error f.cause) :
      Fails frames f ('\x7b' :: '\x7b' :: inner)
  | stops {rest : List Char} (h : Stops rest (some f.cause)) : Fails frames f rest

theorem Stops.stage_ne_ending {rest : List Char} {cause : SyntaxCause}
    (h : Stops rest (some cause)) : cause.stage ≠ .ending := by
  cases h with
  | uncut hcut =>
    rw [stage_of_cut hcut]
    decide
  | unread _ htag =>
    rcases Tag.stage_of_ofContent htag with hstage | ⟨hstage, -⟩
    · rw [hstage]
      decide
    · rw [hstage]
      decide

namespace Fails

variable {frames : List Frame} {f : SyntaxFault} {rest : List Char}

theorem braces (h : Fails frames f rest) : ∃ inner, rest = '\x7b' :: '\x7b' :: inner := by
  cases h with
  | taken => exact ⟨_, rfl⟩
  | stops h =>
    cases h with
    | uncut => exact ⟨_, rfl⟩
    | unread => exact ⟨_, rfl⟩

theorem stage_ne_ending (h : Fails frames f rest) : f.cause.stage ≠ .ending := by
  cases h with
  | taken _ _ htake =>
    rw [Frame.stage_of_take htake]
    decide
  | stops h => exact h.stage_ne_ending

/-- **The text in front of the failing tag** can be read, or ends in a block. -/
theorem before {text : List Char} {ms : List Mark} (hpasses : Passes [] text ms f.before rest)
    (htake : Frame.takeAll [] ms = .ok frames) :
    verdict (marks (scan f.before.reverse).pieces) (scan f.before.reverse).fault =
      frames.head?.map Frame.unclosed := by
  -- Cut off at the place, the text has the same tags in front of it, and then it ends.
  obtain ⟨front, -, hbefore, hchange⟩ := hpasses.change
  obtain ⟨more, last, end', hmarks, hmore, hstops, -⟩ := (hchange [] (.inl rfl)).goes_on
  obtain ⟨rfl, -, rfl⟩ := hmore.eq_of_stops .ended
  have hfront : front ++ [] = f.before.reverse := by rw [hbefore]; simp
  rw [hfront, List.append_nil] at hmarks
  rw [hfront] at hstops
  have hfault : (scan f.before.reverse).fault = none := by
    have := hstops.unique .ended
    simpa using this
  rw [hmarks, hfault]
  exact verdict_of_ok htake

theorem parse_before {text : List Char} {ms : List Mark} (hpasses : Passes [] text ms f.before rest)
    (htake : Frame.takeAll [] ms = .ok frames) :
    (∃ nodes, parse (String.ofList f.before.reverse) = .ok nodes) ∨
      ∃ block position, parse (String.ofList f.before.reverse) =
        .error (.malformed (.unclosedBlock block) position) := by
  have hbefore := before hpasses htake
  obtain ⟨hnone, hsome⟩ := parse_of_verdict (String.ofList f.before.reverse)
  rw [String.toList_ofList, hbefore] at hnone hsome
  cases frames with
  | nil => exact .inl (hnone rfl)
  | cons frame frames => exact .inr ⟨_, _, hsome _ rfl⟩

/-- **The fault stays when text is appended**, if the failing tag has an end. -/
theorem append {text : List Char} {ms : List Mark} (h : Fails frames f rest)
    (hpasses : Passes [] text ms f.before rest) (htake : Frame.takeAll [] ms = .ok frames)
    (hended : f.cause.stage ≠ .cutting) (more : List Char) :
    verdict (marks (scan (text ++ more)).pieces) (scan (text ++ more)).fault = some f := by
  obtain ⟨inner, rfl⟩ := h.braces
  obtain ⟨front, rfl, -, hchange⟩ := hpasses.change
  have hpasses' := hchange ('\x7b' :: '\x7b' :: (inner ++ more)) (.inr rfl)
  obtain ⟨ms', last, end', hmarks, hmore, hstops, hfault⟩ := hpasses'.goes_on
  have htext : front ++ '\x7b' :: '\x7b' :: inner ++ more =
      front ++ '\x7b' :: '\x7b' :: (inner ++ more) := by simp
  rw [htext, hmarks]
  cases h with
  | @taken _ c t hcut htag hfails =>
    -- The tag can be read, so the scan of the longer text passes it too.
    have hcut' := cut_append hcut more
    cases hmore with
    | here => exact (hstops.unreadable hcut' htag).elim
    | char hc => exact absurd ⟨_, rfl⟩ hc
    | tag hcut'' htag'' =>
      cases hcut'.symm.trans hcut''
      cases htag.symm.trans htag''
      exact verdict_of_error htake hfails _
  | stops h =>
    cases h with
    | uncut hcut => exact absurd (stage_of_cut hcut) hended
    | @unread _ _ c hcut htag =>
      -- The tag cannot be read, so the scan of the longer text stops at it for the same cause.
      have hstops' : Stops ('\x7b' :: '\x7b' :: (inner ++ more)) (some f.cause) :=
        .unread (cut_append hcut more) htag
      obtain ⟨rfl, rfl, rfl⟩ := hmore.eq_of_stops hstops'
      obtain ⟨g, hg, hcause⟩ := Option.map_eq_some_iff.1 (hstops.unique hstops')
      have hgf : g = f := by
        cases g
        cases f
        cases hcause
        cases hfault _ hg
        rfl
      rw [hg, hgf, List.append_nil]
      exact verdict_of_fault htake f

end Fails

/-- A template fails in front of a tag, or it ends in a block. -/
theorem fails_of_verdict {text : List Char} {f : SyntaxFault}
    (h : verdict (marks (scan text).pieces) (scan text).fault = some f) :
    (∃ ms frames rest, Passes [] text ms f.before rest ∧ Frame.takeAll [] ms = .ok frames ∧
        Fails frames f rest) ∨
      ∃ frame rest, Frame.takeAll [] (marks (scan text).pieces) = .ok (frame :: rest) ∧
        (scan text).fault = none ∧ f = frame.unclosed := by
  obtain ⟨last, end', hpasses, hstops, hfault⟩ := scan_passes text
  rcases verdict_eq_some h with ⟨front, t, more, frames, hmarks, htake, hfails⟩ |
    ⟨frames, htake, hscan⟩ | hunclosed
  · rw [hmarks] at hpasses
    obtain ⟨inner, c, hfront, hcut, htag, -⟩ := hpasses.split
    exact .inl ⟨front, frames, _, hfront, htake, .taken hcut htag hfails⟩
  · rw [hscan] at hstops
    cases hfault f hscan
    exact .inl ⟨_, frames, end', hpasses, htake, .stops hstops⟩
  · exact .inr hunclosed

/-! ## The block that is left open -/

/-- The innermost block that is left open at the end of some pieces: behind its opener there are only
whole blocks, but for an `else` of its own. -/
inductive LeftOpen (opener : PlacedTag) : List Piece → Prop where
  | inMain {front inner : List Piece} {nodes : List Node} (h : Derives inner nodes) :
      LeftOpen opener (front ++ .tag opener :: inner)
  | inOther {front inner other : List Piece} {nodes nodes' : List Node} {turn : PlacedTag}
      (hturn : turn.tag = .otherwise) (h : Derives inner nodes) (h' : Derives other nodes') :
      LeftOpen opener (front ++ (.tag opener :: inner ++ .tag turn :: other))

theorem LeftOpen.mem {opener : PlacedTag} {pieces : List Piece} (h : LeftOpen opener pieces) :
    .tag opener ∈ pieces := by
  cases h with
  | inMain => simp
  | inOther => simp

/-- **The innermost open block of an outline is the one that is left open.** -/
theorem exists_leftOpen {pieces : List Piece} {frame : Frame} {rest : List Frame}
    (h : Frame.takeAll [] (marks pieces) = .ok (frame :: rest)) :
    ∃ opener, LeftOpen opener pieces ∧ opener.tag = .opener frame.opening ∧
      opener.before = frame.before := by
  have hmarks := Frame.takeAll_marks Outline.start pieces
  change _ = Frame.takeAll [] _ at hmarks
  rw [h] at hmarks
  cases htake : Outline.start.takeAll pieces with
  | error f =>
    rw [htake] at hmarks
    cases hmarks
  | ok o =>
    rw [htake] at hmarks
    have hframes : o.frames = frame :: rest := Except.ok.inj hmarks
    cases Outline.reads_of_takeAll htake with
    | closed => cases hframes
    | inMain hopen _ hlevel =>
      cases hframes
      exact ⟨_, .inMain hlevel, hopen, rfl⟩
    | inOther hopen hturn _ _ hmain hlevel =>
      cases hframes
      exact ⟨_, .inOther hturn hmain hlevel, hopen, rfl⟩

/-! ## What is reported -/

/-- **A fault of the syntax points at the first tag at fault.** The line and the column that are
reported are those of one place of the text, and a tag begins there. If a block is reported that is
not closed, it is the opener of the innermost block that is left open at the end of the text. With
any other fault, the text in front of the tag can be read, or it ends in a block; and if the tag has
an end, the same fault is reported whatever text is appended. -/
theorem fault_at_tag {text : String} {e : Fault} (h : parse text = .error e) :
    ∃ before cause inner, text.toList = before.reverse ++ '\x7b' :: '\x7b' :: inner ∧
      e = .malformed cause (.after before) ∧
      (∀ other rest, text.toList = other.reverse ++ rest →
        Position.after other = Position.after before → other = before) ∧
      (∀ block, cause = .unclosedBlock block →
        ∃ opener o, LeftOpen opener (scan text.toList).pieces ∧ (scan text.toList).fault = none ∧
          opener.tag = .opener o ∧ opener.before = before ∧ o.closer = block) ∧
      ((∀ block, cause ≠ .unclosedBlock block) →
        ((∃ nodes, parse (String.ofList before.reverse) = .ok nodes) ∨
          ∃ block position, parse (String.ofList before.reverse) =
            .error (.malformed (.unclosedBlock block) position)) ∧
        (cause ≠ .unterminatedComment → (∀ raw, cause ≠ .unterminatedTag raw) →
          ∀ more, parse (text ++ more) = .error e)) := by
  obtain ⟨f, hverdict, rfl⟩ := fault_of_parse h
  rcases fails_of_verdict hverdict with ⟨ms, frames, rest, hpasses, htake, hfails⟩ |
    ⟨frame, rest, htake, hfault, rfl⟩
  · obtain ⟨inner, rfl⟩ := hfails.braces
    have htext : text.toList = f.before.reverse ++ '\x7b' :: '\x7b' :: inner := hpasses.text_eq
    refine ⟨f.before, f.cause, inner, htext, rfl, fun other rest hother hposition => ?_,
      fun block hcause => ?_, fun _ => ⟨?_, fun hcomment htag more => ?_⟩⟩
    · exact Position.after_inj (hother.symm.trans htext) hposition
    · have hending := hfails.stage_ne_ending
      rw [hcause] at hending
      exact absurd rfl hending
    · exact Fails.parse_before hpasses htake
    · -- A tag that is cut stays as it is; only one without an end could get one from `more`.
      have hended : f.cause.stage ≠ .cutting := fun hstage => by
        rcases SyntaxCause.eq_of_cutting hstage with hcause | ⟨raw, hcause⟩
        · exact hcomment hcause
        · exact htag raw hcause
      have happended := hfails.append hpasses htake hended more.toList
      rw [← String.toList_append] at happended
      exact (parse_of_verdict _).2 f happended
  · obtain ⟨opener, hopen, htag, hbefore⟩ := exists_leftOpen htake
    obtain ⟨inner, c, htext, -, -⟩ := tag_of_scan hopen.mem
    rw [hbefore] at htext
    refine ⟨frame.before, _, inner, htext, rfl, fun other rest hother hposition => ?_,
      fun block hcause => ?_, fun hcause => absurd rfl (hcause _)⟩
    · exact Position.after_inj (hother.symm.trans htext) hposition
    · cases hcause
      exact ⟨opener, frame.opening, hopen, hfault, htag, hbefore, rfl⟩

/-- A closer too many on the second line, in a block: the fault stays where it is. -/
theorem fault_at_tag_of_closer :
    let text := "\x7b\x7b#each xs\x7d\x7d\n  \x7b\x7b/if\x7d\x7d"
    let fault := Fault.malformed (.mismatchedCloser "each" "if") ⟨2, 3⟩
    parse text = .error fault ∧ ∀ more, parse (text ++ more) = .error fault := by
  intro text fault
  have h : parse text = .error fault := by cbv
  obtain ⟨before, cause, inner, -, he, -, -, hother⟩ := fault_at_tag h
  obtain ⟨rfl, -⟩ := Fault.malformed.inj he
  exact ⟨h, (hother (by simp)).2 (by simp) (by simp)⟩

end Stencil
