import Stencil.Proofs.ValidTags

/-!
# Paths and their spellings

A word is read as a path by its first characters, and only then at its dots. Slashes may stand in a
segment, so `./` in front of a word and a segment that begins with a slash could be taken for each
other, and `this` is a segment like any other but for where it stands. None of this makes the syntax
ambiguous:

> `splitDots_joinDots`: parts without dots come back from the word that they make.
> `read?_spelling`: a valid path comes back from its spelling.
> `eq_spelling_of_read?`: a word that is read as a path is its spelling, or the shorter form with a
> dot for `this`.
> `read?_joinDots_eq_none`: a part that is empty or holds another character spoils the word.
> `path_syntax_unambiguous`: all of it together.
-/

namespace Stencil.Path

/-! ## Dotted words -/

/-- A word without dots is one part. -/
theorem splitDots_of_notMem {cs : List Char} (h : '.' ∉ cs) : splitDots cs = (cs, []) := by
  induction cs with
  | nil => rfl
  | cons c rest ih =>
    obtain ⟨hc, hrest⟩ := not_or.1 (fun hor => h (List.mem_cons.2 hor))
    simp only [splitDots, ih hrest, if_neg (Ne.symm hc)]

/-- The first part of a word ends at the first dot. -/
theorem splitDots_append_dot {cs : List Char} (h : '.' ∉ cs) (rest : List Char) :
    splitDots (cs ++ '.' :: rest) = (cs, (splitDots rest).1 :: (splitDots rest).2) := by
  induction cs with
  | nil => simp [splitDots]
  | cons c cs ih =>
    obtain ⟨hc, hcs⟩ := not_or.1 (fun hor => h (List.mem_cons.2 hor))
    simp only [List.cons_append, splitDots, ih hcs, if_neg (Ne.symm hc)]

/-- **Parts without dots come back from the word that they make.** -/
theorem splitDots_joinDots {head : List Char} {tail : List (List Char)}
    (h : ∀ part ∈ head :: tail, '.' ∉ part) : splitDots (joinDots head tail) = (head, tail) := by
  induction tail generalizing head with
  | nil => exact splitDots_of_notMem (h head (List.mem_cons_self ..))
  | cons next rest ih =>
    obtain ⟨hhead, hrest⟩ := List.forall_mem_cons.1 h
    rw [joinDots, splitDots_append_dot hhead, ih hrest]

theorem head?_joinDots {head : List Char} (h : head ≠ []) (tail : List (List Char)) :
    (joinDots head tail).head? = head.head? := by
  cases tail with
  | nil => rfl
  | cons next rest => rw [joinDots, List.head?_append_of_ne_nil _ h]

/-! ## Segments -/

theorem notMem_of_isSegment {cs : List Char} (h : isSegment cs = true) {c : Char}
    (hc : isSegmentChar c = false) : c ∉ cs := by
  intro hmem
  cases hc.symm.trans ((isSegment_iff.1 h).2 c hmem)

section Segments

variable {head : String} {tail : List String}

theorem splitDots_of_segments (h : ∀ s ∈ head :: tail, isSegment s.toList = true) :
    splitDots (joinDots head.toList (tail.map String.toList)) =
      (head.toList, tail.map String.toList) := by
  apply splitDots_joinDots
  intro part hpart
  rw [← List.map_cons] at hpart
  obtain ⟨s, hs, rfl⟩ := List.mem_map.1 hpart
  exact notMem_of_isSegment (h s hs) (by decide)

/-- Segments come back from the word that they make. -/
theorem segments?_joinDots (h : ∀ s ∈ head :: tail, isSegment s.toList = true) :
    segments? (joinDots head.toList (tail.map String.toList)) = some (head, tail) := by
  obtain ⟨hhead, htail⟩ := List.forall_mem_cons.1 h
  have hall : (tail.map String.toList).all isSegment = true := by
    rw [List.all_map, List.all_eq_true]
    exact htail
  have hback : (tail.map String.toList).map String.ofList = tail := by
    rw [List.map_map]
    exact List.map_id'' (fun s => String.ofList_toList) _
  rw [segments?, splitDots_of_segments h]
  simp only [hhead, hall, Bool.and_self, if_true, hback, String.ofList_toList]

end Segments

/-- A part that is no segment spoils the word. -/
theorem segments?_joinDots_eq_none {head : List Char} {tail : List (List Char)}
    (hdots : ∀ part ∈ head :: tail, '.' ∉ part)
    (hbad : ∃ part ∈ head :: tail, isSegment part = false) :
    segments? (joinDots head tail) = none := by
  obtain ⟨part, hpart, hsegment⟩ := hbad
  rw [segments?, splitDots_joinDots hdots]
  refine if_neg fun hall => ?_
  rw [Bool.and_eq_true, List.all_eq_true] at hall
  have hgood : isSegment part = true := by
    rcases List.mem_cons.1 hpart with rfl | hpart
    · exact hall.1
    · exact hall.2 part hpart
  cases hsegment.symm.trans hgood

/-! ## From paths to words -/

/-- A word that is read at its dots alone: it neither is one of the words for the current subject,
nor begins as a path below it or as a bound name does. -/
structure IsDotted (w : List Char) : Prop where
  not_this : w ≠ ['t', 'h', 'i', 's']
  not_dot : w ≠ ['.']
  not_bound : w.head? ≠ some '@'
  not_below : ¬ ['t', 'h', 'i', 's', '.'] <+: w
  not_short : ¬ ['.', '/'] <+: w

theorem read?_of_isDotted {w : List Char} (h : IsDotted w) :
    read? w = (segments? w).map fun (head, tail) => named head tail := by
  unfold read?
  split
  next => exact absurd rfl h.not_this
  next => exact absurd rfl h.not_dot
  next => exact absurd rfl h.not_bound
  next rest => exact absurd ⟨rest, rfl⟩ h.not_below
  next rest => exact absurd ⟨rest, rfl⟩ h.not_short
  next => rfl

/-- Segments make a word that is read at its dots alone, if the first of them is not `this`. -/
theorem isDotted_of_segments {head : String} {tail : List String} (hthis : head ≠ "this")
    (h : ∀ s ∈ head :: tail, isSegment s.toList = true) :
    IsDotted (joinDots head.toList (tail.map String.toList)) := by
  have hhead := h head (List.mem_cons_self ..)
  have hsplit := splitDots_of_segments h
  -- The word begins as its first segment does, so with no dot and with no `@`.
  have hfirst : ∀ c, isSegmentChar c = false →
      (joinDots head.toList (tail.map String.toList)).head? ≠ some c := by
    intro c hc hword
    rw [head?_joinDots (isSegment_iff.1 hhead).1] at hword
    exact notMem_of_isSegment hhead hc (List.mem_of_mem_head? hword)
  -- Up to its first dot stands the first segment, so not `this`.
  have hpart : ∀ parts, splitDots (joinDots head.toList (tail.map String.toList)) ≠
      ("this".toList, parts) := by
    intro parts heq
    rw [hsplit] at heq
    exact hthis (String.toList_inj.1 (Prod.mk.inj heq).1)
  generalize joinDots head.toList (tail.map String.toList) = w at hfirst hpart
  constructor
  · rintro rfl
    exact hpart [] rfl
  · rintro rfl
    exact hfirst '.' (by decide) rfl
  · exact hfirst '@' (by decide)
  · rintro ⟨rest, rfl⟩
    have hdot : '.' ∉ "this".toList := by decide
    exact hpart _ (splitDots_append_dot hdot rest)
  · rintro ⟨rest, rfl⟩
    exact hfirst '.' (by decide) rfl

/-- **A valid path comes back from its spelling.** -/
theorem read?_spelling {p : Path} (h : p.Valid) : read? p.spelling = some p := by
  cases p with
  | this segments =>
    cases segments with
    | nil => rfl
    | cons head tail =>
      show (segments? (joinDots head.toList (tail.map String.toList))).map _ = _
      rw [segments?_joinDots h]
      rfl
  | bound name =>
    have hname : isSegment name.toList = true := h
    show (if isSegment name.toList = true then some (bound (String.ofList name.toList)) else none) = _
    rw [if_pos hname, String.ofList_toList]
  | named head tail =>
    obtain ⟨hthis, hsegments⟩ := h
    rw [spelling, read?_of_isDotted (isDotted_of_segments hthis hsegments),
      segments?_joinDots hsegments]
    rfl

/-- The shorter form of a path from the current subject: a dot stands for `this`, and a slash for
the dot behind it. -/
def shorthand? : Path → Option (List Char)
  | this [] => some ['.']
  | this (head :: tail) => some (['.', '/'] ++ joinDots head.toList (tail.map String.toList))
  | bound _ | named .. => none

theorem read?_shorthand {p : Path} {w : List Char} (h : p.Valid) (hw : p.shorthand? = some w) :
    read? w = some p := by
  cases p with
  | this segments =>
    cases segments with
    | nil =>
      cases hw
      rfl
    | cons head tail =>
      cases hw
      show (segments? (joinDots head.toList (tail.map String.toList))).map _ = _
      rw [segments?_joinDots h]
      rfl
  | bound | named => cases hw

/-! ## From words to paths -/

/-- **A word that is read as a path is its spelling or the shorter form.** -/
theorem eq_spelling_of_read? {w : List Char} {p : Path} (h : read? w = some p) :
    w = p.spelling ∨ p.shorthand? = some w := by
  unfold read? at h
  split at h
  next =>
    cases h
    exact .inl rfl
  next =>
    cases h
    exact .inr rfl
  next name =>
    split at h
    next =>
      cases h
      exact .inl (by rw [spelling, String.toList_ofList])
    next => cases h
  next rest =>
    obtain ⟨⟨head, tail⟩, hsegments, rfl⟩ := Option.map_eq_some_iff.1 h
    obtain ⟨rfl, -⟩ := segments?_eq_some hsegments
    exact .inl rfl
  next rest =>
    obtain ⟨⟨head, tail⟩, hsegments, rfl⟩ := Option.map_eq_some_iff.1 h
    obtain ⟨rfl, -⟩ := segments?_eq_some hsegments
    exact .inr rfl
  next =>
    obtain ⟨⟨head, tail⟩, hsegments, rfl⟩ := Option.map_eq_some_iff.1 h
    exact .inl (segments?_eq_some hsegments).1

theorem read?_eq_some_iff {w : List Char} {p : Path} :
    read? w = some p ↔ p.Valid ∧ (w = p.spelling ∨ p.shorthand? = some w) := by
  constructor
  · intro h
    exact ⟨valid_of_read? h, eq_spelling_of_read? h⟩
  · rintro ⟨hvalid, rfl | hw⟩
    · exact read?_spelling hvalid
    · exact read?_shorthand hvalid hw

/-- The spelling of a path that is no bound name is made of segments; `this` is the first of them in
a path from the current subject. -/
theorem exists_segments_of_spelling {p : Path} (h : p.Valid) :
    (∃ name, p = bound name) ∨ ∃ head tail, (∀ s ∈ head :: tail, isSegment s.toList = true) ∧
      p.spelling = joinDots head.toList (tail.map String.toList) := by
  cases p with
  | this segments =>
    refine .inr ⟨"this", segments, List.forall_mem_cons.2 ⟨by decide, h⟩, ?_⟩
    cases segments with
    | nil => rfl
    | cons head tail => rfl
  | bound name => exact .inl ⟨name, rfl⟩
  | named head tail => exact .inr ⟨head, tail, h.2, rfl⟩

/-- **A part that is no segment spoils the word**, unless the word is a dot, a shorter form or a
bound name. -/
theorem read?_joinDots_eq_none {head : List Char} {tail : List (List Char)}
    (hdots : ∀ part ∈ head :: tail, '.' ∉ part)
    (hbad : ∃ part ∈ head :: tail, isSegment part = false)
    (hdot : joinDots head tail ≠ ['.']) (hshort : ¬ ['.', '/'] <+: joinDots head tail)
    (hbound : (joinDots head tail).head? ≠ some '@') : read? (joinDots head tail) = none := by
  rw [Option.eq_none_iff_forall_ne_some]
  intro p hread
  obtain ⟨hvalid, hspelling | hshorthand⟩ := read?_eq_some_iff.1 hread
  · rcases exists_segments_of_spelling hvalid with ⟨name, rfl⟩ | ⟨first, rest, hsegments, hword⟩
    · exact hbound (by rw [hspelling]; rfl)
    · -- The word has its parts from one place only, so all of them are segments.
      have hnone := segments?_joinDots_eq_none hdots hbad
      rw [hspelling, hword, segments?_joinDots hsegments] at hnone
      cases hnone
  · cases p with
    | this segments =>
      cases segments with
      | nil => exact hdot (Option.some.inj hshorthand).symm
      | cons first rest =>
        rw [← Option.some.inj hshorthand] at hshort
        exact hshort ⟨_, rfl⟩
    | bound | named => cases hshorthand

theorem read?_short_eq_none {head : List Char} {tail : List (List Char)}
    (hdots : ∀ part ∈ head :: tail, '.' ∉ part)
    (hbad : ∃ part ∈ head :: tail, isSegment part = false) :
    read? ('.' :: '/' :: joinDots head tail) = none := by
  show (segments? (joinDots head tail)).map _ = none
  rw [segments?_joinDots_eq_none hdots hbad]
  rfl

theorem read?_bound_eq_none {name : List Char} (h : isSegment name = false) :
    read? ('@' :: name) = none := by
  show (if isSegment name = true then some (bound (String.ofList name)) else none) = none
  rw [if_neg (by rw [h]; decide)]

/-- **The syntax of paths is unambiguous.** A word is read as a path exactly if the path is valid
and the word is its spelling or, from the current subject, the shorter form with a dot. A path is
valid if its segments are words of the characters of a segment, and if a path by name does not begin
with the segment `this`.

So nothing is read where a segment is empty or holds another character: neither in a bound name, nor
among the parts behind `./`, nor among the parts of any other word. -/
theorem path_syntax_unambiguous :
    (∀ (w : List Char) (p : Path),
      read? w = some p ↔ p.Valid ∧ (w = p.spelling ∨ p.shorthand? = some w)) ∧
      (∀ name, isSegment name = false → read? ('@' :: name) = none) ∧
      ∀ head tail, (∀ part ∈ head :: tail, '.' ∉ part) →
        (∃ part ∈ head :: tail, isSegment part = false) →
          read? ('.' :: '/' :: joinDots head tail) = none ∧
            (joinDots head tail ≠ ['.'] → ¬ ['.', '/'] <+: joinDots head tail →
              (joinDots head tail).head? ≠ some '@' → read? (joinDots head tail) = none) := by
  refine ⟨fun w p => read?_eq_some_iff, fun name => read?_bound_eq_none, ?_⟩
  intro head tail hdots hbad
  exact ⟨read?_short_eq_none hdots hbad, read?_joinDots_eq_none hdots hbad⟩

/-- Slashes inside of segments, both spellings of a path, and words with an empty segment. -/
theorem path_syntax_unambiguous_of_slashes :
    (this ["a/b", "/"]).Valid ∧ read? "this.a/b./".toList = some (this ["a/b", "/"]) ∧
      read? ".//.a".toList = some (this ["/", "a"]) ∧
      read? "this/a".toList = some (named "this/a" []) ∧ read? "@a.b".toList = none ∧
      read? "./".toList = none ∧ read? "this.".toList = none ∧ read? "a..b".toList = none ∧
      read? "../x".toList = none := by
  obtain ⟨hread, hbound, hparts⟩ := path_syntax_unambiguous
  have hvalid : (this ["a/b", "/"]).Valid := by decide
  refine ⟨hvalid, (hread _ _).2 ⟨hvalid, .inl (by decide)⟩,
    (hread _ _).2 ⟨by decide, .inr (by decide)⟩, (hread _ _).2 ⟨by decide, .inl (by decide)⟩,
    hbound _ (by decide), (hparts [] [] (by decide) (by decide)).1, ?_, ?_, ?_⟩
  · exact (hparts "this".toList [[]] (by decide) (by decide)).2 (by decide) (by decide) (by decide)
  · exact (hparts ['a'] [[], ['b']] (by decide) (by decide)).2 (by decide) (by decide) (by decide)
  · exact (hparts [] [[], "/x".toList] (by decide) (by decide)).2 (by decide) (by decide) (by decide)

end Stencil.Path
