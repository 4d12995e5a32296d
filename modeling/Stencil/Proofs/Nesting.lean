import Stencil.Proofs.ScannedTags
import Stencil.Proofs.Stages

/-!
# Blocks without their nodes

Whether a template can be read, and which fault is reported, depends on its tags alone: the nodes
that are collected between them play no part in it. So the stack of open blocks is followed here
without any nodes (`Frame`), over the tags that a scan passes.

> `Frame.takeAll_marks`: the outline of some pieces goes the way of their tags.
> `parse_of_verdict`, `fault_of_parse`: what comes of a text is said by its tags.
-/

namespace Stencil

/-- An open block without its nodes: what opened it, the text before it in reverse, and whether its
`else` has been seen. -/
structure Frame where
  opening : Opening
  before : List Char
  turned : Bool

/-- The open blocks of an outline, the innermost first. -/
def Outline.frames (o : Outline) : List Frame :=
  o.blocks.map fun b => ⟨b.opening, b.before, b.main.isSome⟩

namespace Frame

/-- Takes one tag in. -/
def take (frames : List Frame) (m : Mark) : Except SyntaxCause (List Frame) :=
  match m.2 with
  | .opener opening => .ok (⟨opening, m.1, false⟩ :: frames)
  | .otherwise =>
    match frames with
    | [] => .error .elseOutside
    | f :: rest =>
      if !f.opening.allowsElse then .error .elseInRegion
      else if f.turned then .error (.duplicateElse f.opening.closer)
      else .ok ({ f with turned := true } :: rest)
  | .closer name =>
    match frames with
    | [] => .error (.unexpectedCloser name)
    | f :: rest =>
      if f.opening.closer = name then .ok rest
      else .error (.mismatchedCloser f.opening.closer name)
  | .comment | .lookup .. | .literal .. | .call .. | .inclusion .. => .ok frames

/-- Takes tags in from left to right. -/
def takeAll (frames : List Frame) : List Mark → Except SyntaxFault (List Frame)
  | [] => .ok frames
  | m :: rest =>
    match take frames m with
    | .error cause => .error ⟨cause, m.1⟩
    | .ok frames => takeAll frames rest

theorem take_placed (o : Outline) (placed : PlacedTag) :
    (o.takeTag placed).map Outline.frames = take o.frames (placed.before, placed.tag) := by
  obtain ⟨level, blocks⟩ := o
  unfold Outline.takeTag take
  cases placed.tag with
  | comment | lookup | literal | call | inclusion | opener => rfl
  | otherwise =>
    cases blocks with
    | nil => rfl
    | cons b rest =>
      simp only [Outline.turn, Outline.frames, List.map_cons]
      split
      next => rfl
      next =>
        split
        next => rfl
        next => rfl
  | closer name =>
    cases blocks with
    | nil => rfl
    | cons b rest =>
      simp only [Outline.leave, Outline.frames, List.map_cons]
      split
      next => rfl
      next => rfl

/-- **The outline of some pieces goes the way of their tags.** -/
theorem takeAll_marks (o : Outline) (ps : List Piece) :
    (o.takeAll ps).map Outline.frames = takeAll o.frames (marks ps) := by
  induction ps generalizing o with
  | nil => rfl
  | cons p ps ih =>
    cases p with
    | text chars => exact ih _
    | tag placed =>
      have hplaced := take_placed o placed
      rw [marks_tag, takeAll, ← hplaced, Outline.takeAll, Outline.take]
      cases o.takeTag placed with
      | error cause => rfl
      | ok o' => exact ih o'

theorem takeAll_append (frames : List Frame) (ms ms' : List Mark) :
    takeAll frames (ms ++ ms') = (takeAll frames ms).bind fun fs => takeAll fs ms' := by
  induction ms generalizing frames with
  | nil => rfl
  | cons m ms ih =>
    rw [List.cons_append, takeAll, takeAll]
    split
    next => rfl
    next fs _ => exact ih fs

/-- A fault comes up at one of the tags, and all before it are taken in. -/
theorem takeAll_eq_error {frames : List Frame} {ms : List Mark} {f : SyntaxFault}
    (h : takeAll frames ms = .error f) :
    ∃ front t more fs, ms = front ++ (f.before, t) :: more ∧ takeAll frames front = .ok fs ∧
      take fs (f.before, t) = .error f.cause := by
  induction ms generalizing frames with
  | nil => cases h
  | cons m ms ih =>
    rw [takeAll] at h
    split at h
    next cause hm =>
      cases h
      exact ⟨[], m.2, ms, frames, rfl, rfl, hm⟩
    next fs hm =>
      obtain ⟨front, t, more, fs', rfl, hfront, htake⟩ := ih h
      refine ⟨m :: front, t, more, fs', rfl, ?_, htake⟩
      rw [takeAll, hm]
      exact hfront

/-- What a tag does to the open blocks that it goes with. -/
inductive Takes : List Frame → Mark → List Frame → Prop where
  | opener (frames : List Frame) (before : List Char) (o : Opening) :
      Takes frames (before, .opener o) (⟨o, before, false⟩ :: frames)
  | otherwise {f : Frame} (rest : List Frame) (before : List Char)
      (hallows : f.opening.allowsElse = true) (hturned : f.turned = false) :
      Takes (f :: rest) (before, .otherwise) ({ f with turned := true } :: rest)
  | closer (f : Frame) (rest : List Frame) (before : List Char) :
      Takes (f :: rest) (before, .closer f.opening.closer) rest
  | inside (frames : List Frame) (before : List Char) {t : Tag} (hopener : ∀ o, t ≠ .opener o)
      (helse : t ≠ .otherwise) (hcloser : ∀ name, t ≠ .closer name) : Takes frames (before, t) frames

theorem takes_of_take {frames fs : List Frame} {m : Mark} (h : take frames m = .ok fs) :
    Takes frames m fs := by
  obtain ⟨before, t⟩ := m
  unfold take at h
  cases t with
  | opener o =>
    cases h
    exact .opener frames before o
  | otherwise =>
    dsimp only at h
    split at h
    next => cases h
    next f rest =>
      split at h
      next => cases h
      next hallows =>
        split at h
        next => cases h
        next hturned =>
          cases h
          exact .otherwise rest before (by simpa using hallows) (by simpa using hturned)
  | closer name =>
    dsimp only at h
    split at h
    next => cases h
    next f rest =>
      split at h
      next hname =>
        cases h
        rw [← hname]
        exact .closer f _ before
      next => cases h
  | comment | lookup | literal | call | inclusion =>
    cases h
    exact .inside frames before (by simp) (by simp) (by simp)

/-- What holds of the openers among the tags holds of all blocks that are open. -/
theorem forall_of_takeAll {P : List Char → Opening → Prop} {frames fs : List Frame} {ms : List Mark}
    (h : takeAll frames ms = .ok fs) (hframes : ∀ f ∈ frames, P f.before f.opening)
    (hms : ∀ before o, (before, Tag.opener o) ∈ ms → P before o) :
    ∀ f ∈ fs, P f.before f.opening := by
  -- An opener adds a block, an `else` keeps what opened the innermost one, and a closer drops it.
  induction ms generalizing frames with
  | nil =>
    cases h
    exact hframes
  | cons m ms ih =>
    rw [takeAll] at h
    split at h
    next => cases h
    next fs' htake =>
      refine ih h ?_ fun b o hmem => hms b o (List.mem_cons_of_mem _ hmem)
      cases takes_of_take htake with
      | opener _ before o =>
        exact List.forall_mem_cons.2 ⟨hms before o (List.mem_cons_self ..), hframes⟩
      | otherwise rest before _ _ =>
        obtain ⟨hf, hrest⟩ := List.forall_mem_cons.1 hframes
        exact List.forall_mem_cons.2 ⟨hf, hrest⟩
      | closer f rest before => exact (List.forall_mem_cons.1 hframes).2
      | inside => exact hframes

theorem stage_of_take {frames : List Frame} {m : Mark} {e : SyntaxCause}
    (h : take frames m = .error e) : e.stage = .nesting := by
  unfold take at h
  split at h
  next => cases h
  next =>
    split at h
    next =>
      cases h
      rfl
    next =>
      split at h
      next =>
        cases h
        rfl
      next =>
        split at h
        next =>
          cases h
          rfl
        next => cases h
  next =>
    split at h
    next =>
      cases h
      rfl
    next =>
      split at h
      next => cases h
      next =>
        cases h
        rfl
  all_goals cases h

end Frame

/-! ## What comes of a scan -/

/-- The fault of a text that ends in a block. -/
def Frame.unclosed (f : Frame) : SyntaxFault := ⟨.unclosedBlock f.opening.closer, f.before⟩

/-- The fault that comes of tags and of the fault behind them, if any. -/
def verdict (ms : List Mark) (fault : Option SyntaxFault) : Option SyntaxFault :=
  match Frame.takeAll [] ms with
  | .error f => some f
  | .ok frames => fault.or (frames.head?.map Frame.unclosed)

theorem nodes_of_verdict {s : Scanned} :
    (verdict (marks s.pieces) s.fault = none → ∃ nodes, s.nodes = .ok nodes) ∧
      ∀ f, verdict (marks s.pieces) s.fault = some f → s.nodes = .error f := by
  have hmarks := Frame.takeAll_marks Outline.start s.pieces
  change _ = Frame.takeAll [] _ at hmarks
  unfold verdict Scanned.nodes
  rw [← hmarks]
  cases Outline.start.takeAll s.pieces with
  | error f =>
    refine ⟨fun h => ?_, fun g h => ?_⟩
    · cases h
    · cases h
      rfl
  | ok o =>
    obtain ⟨level, blocks⟩ := o
    dsimp only [Except.map]
    cases s.fault with
    | some f =>
      refine ⟨fun h => ?_, fun g h => ?_⟩
      · cases h
      · cases h
        rfl
    | none =>
      cases blocks with
      | nil =>
        refine ⟨fun _ => ⟨level, rfl⟩, fun g h => ?_⟩
        cases h
      | cons b rest =>
        refine ⟨fun h => ?_, fun g h => ?_⟩
        · cases h
        · cases h
          rfl

/-- **Whether a text can be read, and what is wrong with it, is said by its tags.** -/
theorem parse_of_verdict (text : String) :
    (verdict (marks (scan text.toList).pieces) (scan text.toList).fault = none →
      ∃ nodes, parse text = .ok nodes) ∧
    ∀ f, verdict (marks (scan text.toList).pieces) (scan text.toList).fault = some f →
      parse text = .error f.fault := by
  obtain ⟨hok, herror⟩ := @nodes_of_verdict (scan text.toList)
  unfold parse
  constructor
  · intro h
    obtain ⟨nodes, hnodes⟩ := hok h
    exact ⟨nodes, by rw [hnodes]⟩
  · intro f h
    rw [herror f h]

/-- The fault that is reported is that of the tags. -/
theorem fault_of_parse {text : String} {e : Fault} (h : parse text = .error e) :
    ∃ f, verdict (marks (scan text.toList).pieces) (scan text.toList).fault = some f ∧
      e = f.fault := by
  obtain ⟨hnone, hsome⟩ := parse_of_verdict text
  cases hverdict : verdict (marks (scan text.toList).pieces) (scan text.toList).fault with
  | none =>
    obtain ⟨nodes, hnodes⟩ := hnone hverdict
    cases hnodes.symm.trans h
  | some f => exact ⟨f, rfl, Except.error.inj (h.symm.trans (hsome f hverdict))⟩

/-- The ways in which a text can be at fault: a tag that does not go with the open blocks, a tag that
cannot be read behind tags that do, and a block that is open at the end. -/
theorem verdict_eq_some {ms : List Mark} {fault : Option SyntaxFault} {f : SyntaxFault}
    (h : verdict ms fault = some f) :
    (∃ front t more fs, ms = front ++ (f.before, t) :: more ∧ Frame.takeAll [] front = .ok fs ∧
        Frame.take fs (f.before, t) = .error f.cause) ∨
      (∃ fs, Frame.takeAll [] ms = .ok fs ∧ fault = some f) ∨
      ∃ frame rest, Frame.takeAll [] ms = .ok (frame :: rest) ∧ fault = none ∧
        f = frame.unclosed := by
  unfold verdict at h
  cases htake : Frame.takeAll [] ms with
  | error g =>
    rw [htake] at h
    cases h
    exact .inl (Frame.takeAll_eq_error htake)
  | ok frames =>
    rw [htake] at h
    dsimp only at h
    cases fault with
    | some g =>
      cases h
      exact .inr (.inl ⟨frames, rfl, rfl⟩)
    | none =>
      cases frames with
      | nil => cases h
      | cons frame rest =>
        cases h
        exact .inr (.inr ⟨frame, rest, rfl, rfl, rfl⟩)

/-- The first tag that does not go with the open blocks is at fault, whatever follows it. -/
theorem verdict_of_error {ms more : List Mark} {frames : List Frame} {f : SyntaxFault} {t : Tag}
    (h : Frame.takeAll [] ms = .ok frames) (htake : Frame.take frames (f.before, t) = .error f.cause)
    (fault : Option SyntaxFault) : verdict (ms ++ (f.before, t) :: more) fault = some f := by
  rw [verdict, Frame.takeAll_append, h, Except.bind, Frame.takeAll, htake]

/-- Behind tags that go with the open blocks the fault of the scan counts. -/
theorem verdict_of_fault {ms : List Mark} {frames : List Frame}
    (h : Frame.takeAll [] ms = .ok frames) (f : SyntaxFault) : verdict ms (some f) = some f := by
  unfold verdict
  rw [h]
  rfl

/-- Tags that go with the open blocks are at fault at the end at most. -/
theorem verdict_of_ok {ms : List Mark} {frames : List Frame} (h : Frame.takeAll [] ms = .ok frames) :
    verdict ms none = frames.head?.map Frame.unclosed := by
  unfold verdict
  rw [h]
  rfl

end Stencil
