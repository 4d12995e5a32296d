import Stencil.Proofs.Nesting
import Stencil.Proofs.Quoting
import Mathlib

/-!
# Where a tag ends

A tag ends at the first closing mark outside its literals. What is outside them is found by a walk
over the characters of the tag (`cutAt`), before the words of the tag are read; that both go by the
same literals is said here, on the grounds of `Quoting`.

> `outside_of_cut`: the walk comes out of the words of a tag outside every literal.
> `endsFirst_of_readAll`: a tag whose words can be read ends at the first mark outside their literals.
> `quoting_agrees`: what follows for the tags of a template.
-/

namespace Stencil

open Text

/-! ## The walk to the end -/

/-- A tag ends outside every literal. -/
theorem run_of_cutAt {closing cs content after : List Char} {state : Quoting}
    (h : cutAt closing state cs = some (content, after)) :
    Quoting.run state content = .outside := by
  induction cs generalizing state content with
  | nil => cases h
  | cons c cs ih =>
    rw [cutAt] at h
    split at h
    next hboth =>
      cases h
      exact hboth.1
    next =>
      obtain ⟨⟨content', after'⟩, hrest, heq⟩ := Option.map_eq_some_iff.1 h
      cases heq
      rw [Quoting.run_cons]
      exact ih hrest

/-- Wherever the closing mark stands before the end of a tag, it stands in a literal. -/
theorem inside_of_cutAt {closing cs content after : List Char} {state : Quoting}
    (h : cutAt closing state cs = some (content, after)) {a b : List Char}
    (hcs : cs = a ++ (closing ++ b)) (hlength : a.length < content.length) :
    Quoting.run state a ≠ .outside := by
  induction cs generalizing state content a with
  | nil => cases h
  | cons c cs ih =>
    rw [cutAt] at h
    split at h
    next =>
      cases h
      cases hlength
    next hnot =>
      obtain ⟨⟨content', after'⟩, hrest, heq⟩ := Option.map_eq_some_iff.1 h
      cases heq
      cases a with
      | nil =>
        -- The mark stands right here: the walk would have ended if it were outside.
        intro hstate
        refine hnot ⟨hstate, List.isPrefixOf_iff_prefix.2 ⟨b, ?_⟩⟩
        exact hcs.symm
      | cons d a =>
        obtain ⟨rfl, hrest'⟩ := List.cons.inj hcs
        rw [Quoting.run_cons]
        exact ih hrest hrest' (Nat.lt_of_succ_lt_succ hlength)

/-! ## The place of the words -/

theorem trimEnd_append (cs : List Char) :
    ∃ blanks, cs = trimEnd cs ++ blanks ∧ ∀ c ∈ blanks, isBlank c = true := by
  refine ⟨(cs.reverse.takeWhile isBlank).reverse, ?_, fun c hc => ?_⟩
  · rw [trimEnd, ← List.reverse_append, List.takeWhile_append_dropWhile, List.reverse_reverse]
  · exact List.mem_takeWhile_imp (List.mem_reverse.1 hc)

/-- Trimming at the start takes blanks away. -/
theorem trimEnd_eq_append_trim (cs : List Char) :
    ∃ blanks, trimEnd cs = blanks ++ trim cs ∧ ∀ c ∈ blanks, isBlank c = true := by
  obtain ⟨blanks, hcs, hblanks⟩ := Word.trimStart_append cs
  by_cases hrest : (trimStart cs).reverse.dropWhile isBlank = []
  · refine ⟨trimEnd cs, ?_, fun c hc => ?_⟩
    · rw [trim, trimEnd.eq_1 (trimStart cs), hrest, List.reverse_nil, List.append_nil]
    · obtain ⟨_, hends, -⟩ := trimEnd_append cs
      have hmem : c ∈ blanks ++ trimStart cs := by
        rw [← hcs, hends]
        exact List.mem_append_left _ hc
      rcases List.mem_append.1 hmem with hc | hc
      · exact hblanks c hc
      · exact List.dropWhile_eq_nil_iff.1 hrest c (List.mem_reverse.2 hc)
  · refine ⟨blanks, ?_, hblanks⟩
    have hdrop : cs.reverse.dropWhile isBlank =
        (trimStart cs).reverse.dropWhile isBlank ++ blanks.reverse := by
      conv_lhs => rw [hcs]
      rw [List.reverse_append, List.dropWhile_append, if_neg (by simpa using hrest)]
    rw [trim, trimEnd, trimEnd, hdrop, List.reverse_append, List.reverse_reverse]

/-- Where the words of a tag stand in its content: behind text without quotes, and blanks follow. -/
theorem Tag.words?_place {form : TagForm} {content x : List Char} {kind : Tag.Kind}
    (h : Tag.words? form content = some (kind, x)) :
    ∃ lead, trimEnd content = lead ++ x ∧ Quoting.Unquoted lead := by
  obtain ⟨blanks, htrim, hblanks⟩ := trimEnd_eq_append_trim content
  have hlead := Word.unquoted_of_blanks hblanks
  have hmarked : ∀ mark rest, trim content = mark :: rest → Word.isQuote mark = false →
      ∃ lead, trimEnd content = lead ++ trimStart rest ∧ Quoting.Unquoted lead := by
    intro mark rest heq hmark
    obtain ⟨more, hrest, hmore⟩ := Word.trimStart_append rest
    refine ⟨blanks ++ mark :: more, ?_, hlead.append (List.forall_mem_cons.2 ⟨hmark, ?_⟩)⟩
    · rw [htrim, heq, List.append_assoc, List.cons_append, ← hrest]
    · exact Word.unquoted_of_blanks hmore
  unfold Tag.words? at h
  cases form with
  | note | longNote => cases h
  | raw =>
    cases h
    exact ⟨blanks, htrim, hlead⟩
  | plain =>
    dsimp only at h
    split at h
    next rest heq =>
      cases h
      exact hmarked _ rest heq (by decide)
    next => cases h
    next rest heq =>
      cases h
      exact hmarked _ rest heq (by decide)
    next rest heq =>
      cases h
      exact hmarked _ rest heq (by decide)
    next => cases h
    next =>
      cases h
      exact ⟨blanks, htrim, hlead⟩

/-- A tag that is no comment is cut out by the walk. -/
theorem cutAt_of_cut {inner : List Char} {c : Cut} (h : cut inner = .ok c)
    (hform : c.form = .raw ∨ c.form = .plain) :
    ∃ cs, inner = c.form.opening ++ cs ∧
      cutAt c.form.closing .outside cs = some (c.content, c.after) := by
  unfold cut at h
  dsimp only at h
  split at h
  next rest =>
    split at h
    next =>
      cases h
      dsimp only at hform
      split at hform
      next => rcases hform with hform | hform <;> cases hform
      next => rcases hform with hform | hform <;> cases hform
    next => cases h
  next rest =>
    split at h
    next hfound =>
      cases h
      exact ⟨rest, rfl, hfound⟩
    next => cases h
  next =>
    split at h
    next hfound =>
      cases h
      exact ⟨_, rfl, hfound⟩
    next => cases h

/-! ## The end of a tag -/

/-- A tag ends at the first closing mark outside the text literals that are read in it: wherever the
mark stands before the end, it stands within one of them. -/
def EndsFirst (form : TagForm) (content : List Char) : Prop :=
  ∀ a b, content ++ form.closing = a ++ (form.closing ++ b) → a.length < content.length →
    ∃ kind x lead front literal behind, Tag.words? form content = some (kind, x) ∧
      trimEnd content = lead ++ x ∧ Word.LiteralIn x front literal behind ∧
      (lead ++ front).length < a.length ∧
      a.length + form.closing.length < (lead ++ front ++ literal).length

theorem unquoted_closing (form : TagForm) : Quoting.Unquoted form.closing :=
  Quoting.unquoted_of_all (by cases form <;> decide)

/-- A mark without quotes that begins before a quote ends before it. -/
theorem length_of_mark {p a mark b behind : List Char} {quote : Char}
    (hquote : Word.isQuote quote = true) (hmark : Quoting.Unquoted mark)
    (h : p ++ quote :: behind = a ++ (mark ++ b)) (hlength : a.length ≤ p.length) :
    a.length + mark.length ≤ p.length := by
  have hnot : ∀ e c, mark = e ++ quote :: c → False := by
    rintro e c rfl
    cases hquote.symm.trans (hmark quote (by simp))
  -- Otherwise the quote would stand in the mark.
  rw [← List.append_assoc] at h
  rcases List.append_eq_append_iff.1 h with ⟨c, hc, hbehind⟩ | ⟨c, rfl, -⟩
  · cases c with
    | nil =>
      have := congrArg List.length hc
      simpa using this.le
    | cons d c =>
      obtain ⟨rfl, -⟩ := List.cons.inj hbehind
      rcases List.append_eq_append_iff.1 hc with ⟨e, -, he⟩ | ⟨e, rfl, he⟩
      · exact (hnot e c he).elim
      · obtain rfl : e = [] := by
          rw [List.length_append] at hlength
          exact List.length_eq_zero_iff.1 (by omega)
        exact (hnot [] c he.symm).elim
  · simp

section

variable {inner : List Char} {c : Cut}

/-- The walk through the words of a tag ends outside every literal. -/
theorem outside_of_cut {x : List Char} {kind : Tag.Kind} (hcut : cut inner = .ok c)
    (hwords : Tag.words? c.form c.content = some (kind, x)) :
    Quoting.run .outside x = .outside := by
  have hform : c.form = .raw ∨ c.form = .plain := by
    cases hform : c.form with
    | raw => exact .inl rfl
    | plain => exact .inr rfl
    | note | longNote =>
      rw [hform] at hwords
      cases hwords
  obtain ⟨cs, -, hcutAt⟩ := cutAt_of_cut hcut hform
  obtain ⟨lead, hlead, hunquoted⟩ := Tag.words?_place hwords
  obtain ⟨blanks, hcontent, hblanks⟩ := trimEnd_append c.content
  have hrun := run_of_cutAt hcutAt
  rw [hcontent, hlead, Quoting.run_append, Quoting.run_append, hunquoted.run] at hrun
  have hopen : Quoting.Open .outside := True.intro
  exact Quoting.eq_outside_of_blanks (hopen.run x) hblanks hrun

/-- A closing mark that stands before the end of a tag begins inside a literal. -/
theorem inside_of_mark (hcut : cut inner = .ok c) (hform : c.form = .raw ∨ c.form = .plain)
    {a b : List Char} (hmark : c.content ++ c.form.closing = a ++ (c.form.closing ++ b))
    (hlength : a.length < c.content.length) :
    Quoting.run .outside a ≠ .outside ∧ ∃ a', c.content = a ++ a' := by
  obtain ⟨cs, -, hcutAt⟩ := cutAt_of_cut hcut hform
  constructor
  · refine inside_of_cutAt hcutAt (a := a) (b := b ++ c.after) ?_ hlength
    rw [cutAt_eq hcutAt, hmark]
    simp only [List.append_assoc]
  · rcases List.append_eq_append_iff.1 hmark with ⟨a', rfl, -⟩ | ⟨a', ha', -⟩
    · rw [List.length_append] at hlength
      omega
    · exact ⟨a', ha'⟩

theorem endsFirst_of_unquoted (hcut : cut inner = .ok c) (hform : c.form = .raw ∨ c.form = .plain)
    (hunquoted : Quoting.Unquoted c.content) : EndsFirst c.form c.content := by
  intro a b hmark hlength
  obtain ⟨hinside, a', hcontent⟩ := inside_of_mark hcut hform hmark hlength
  refine absurd (Quoting.Unquoted.run fun d hd => hunquoted d ?_) hinside
  rw [hcontent]
  exact List.mem_append_left _ hd

/-- **A tag whose words can be read ends at the first closing mark outside their literals.** -/
theorem endsFirst_of_readAll {x : List Char} {kind : Tag.Kind} {words : List Word}
    (hcut : cut inner = .ok c) (hform : c.form = .raw ∨ c.form = .plain)
    (hwords : Tag.words? c.form c.content = some (kind, x)) (hreads : Word.readAll x = .ok words) :
    EndsFirst c.form c.content := by
  intro a b hmark hlength
  obtain ⟨hinside, a', hcontent⟩ := inside_of_mark hcut hform hmark hlength
  obtain ⟨lead, hlead, hunquoted⟩ := Tag.words?_place hwords
  obtain ⟨blanks, hends, hblanks⟩ := trimEnd_append c.content
  have hsplit : lead ++ (x ++ blanks) = a ++ a' := by
    rw [← hcontent, ← List.append_assoc, ← hlead, ← hends]
  obtain ⟨a₁, rfl, ha₁, hinside₁⟩ := Quoting.peel_unquoted hunquoted hsplit hinside
  rcases List.append_eq_append_iff.1 ha₁ with ⟨e, rfl, he⟩ | ⟨e, hx, -⟩
  · -- The mark would begin in the blanks behind the words.
    rw [Quoting.run_append, outside_of_cut hcut hwords] at hinside₁
    refine absurd (Quoting.Unquoted.run (Word.unquoted_of_blanks fun d hd => hblanks d ?_)) hinside₁
    rw [he]
    exact List.mem_append_left _ hd
  · -- It begins in a literal, and since it holds no quote, it ends there as well.
    obtain ⟨front, literal, behind, hliteral, hfront, hbehind⟩ :=
      Word.literalIn_of_inside hreads .start (List.nil_append x).symm hx hinside₁
    rw [List.nil_append] at hfront hbehind
    obtain ⟨quote, body, s, rfl, hquote, -⟩ := hliteral.quoted
    refine ⟨kind, x, lead, front, _, behind, hwords, hlead, hliteral, ?_, ?_⟩
    · simp only [List.length_append]
      omega
    · have hplace : lead ++ front ++ quote :: body ++ quote :: (behind ++ blanks ++ c.form.closing) =
          lead ++ a₁ ++ (c.form.closing ++ b) := by
        rw [← hmark, hends, hlead, hliteral.place]
        simp
      have hless := length_of_mark hquote (unquoted_closing c.form) hplace (by
        simp only [List.length_append, List.length_cons, List.length_nil] at hbehind ⊢
        omega)
      simp only [List.length_append, List.length_cons, List.length_nil] at hless ⊢
      omega

end

/-- The name that closes a block holds no quotes. -/
theorem Opening.Valid.unquoted {o : Opening} (h : o.Valid) : Quoting.Unquoted o.closer.toList := by
  have hall : ∀ name ∈ builtInBlocks, name.toList.all (fun c => !Word.isQuote c) = true := by decide
  have hbuiltIn : ∀ name ∈ builtInBlocks, Quoting.Unquoted name.toList := fun name hname =>
    Quoting.unquoted_of_all (hall name hname)
  cases o with
  | keyword k param =>
    refine hbuiltIn _ ?_
    cases k <;> simp [closer, Keyword.spelling, builtInBlocks]
  | helper name params named =>
    exact fun c hc => Word.isQuote_eq_false (p := Path.isSegmentChar) (by decide) (by decide)
      ((Path.isSegment_iff.1 h.1.segment).2 c hc)
  | region | override => exact hbuiltIn _ (by simp [closer, builtInBlocks])

/-- Trimming takes blanks away. -/
theorem Quoting.Unquoted.of_trim {cs : List Char} (h : Unquoted (trim cs)) : Unquoted cs := by
  obtain ⟨front, hfront, hblank⟩ := trimEnd_eq_append_trim cs
  obtain ⟨behind, hbehind, hblank'⟩ := trimEnd_append cs
  rw [hbehind, hfront]
  exact ((Word.unquoted_of_blanks hblank).append h).append (Word.unquoted_of_blanks hblank')

/-- A closer that is taken in repeats the name of a block that a tag in front of it opens. -/
theorem Frame.exists_opener {ms : List Mark} {before : List Char} {name : String}
    {frames : List Frame} (h : takeAll [] (ms ++ [(before, .closer name)]) = .ok frames) :
    ∃ b o, (b, Tag.opener o) ∈ ms ∧ o.closer = name := by
  rw [takeAll_append] at h
  cases hfront : takeAll [] ms with
  | error f =>
    rw [hfront] at h
    cases h
  | ok fs =>
    rw [hfront] at h
    simp only [Except.bind, takeAll, take] at h
    cases fs with
    | nil => cases h
    | cons f rest =>
      have hopened := forall_of_takeAll (P := fun b o => (b, Tag.opener o) ∈ ms) hfront (by simp)
        (fun _ _ hmem => hmem)
      by_cases hname : f.opening.closer = name
      · exact ⟨_, _, hopened f (List.mem_cons_self ..), hname⟩
      · dsimp only at h
        rw [if_neg hname] at h
        cases h

theorem tag_of_mark {pieces : List Piece} {m : Mark} (h : m ∈ marks pieces) :
    ∃ placed, .tag placed ∈ pieces ∧ placed.tag = m.2 := by
  obtain ⟨p, hmem, hp⟩ := List.mem_filterMap.1 h
  cases p with
  | text chars => cases hp
  | tag placed =>
    cases hp
    exact ⟨placed, hmem, rfl⟩

/-- **A tag that is taken into a template ends at the first closing mark outside the literals that
are read in it.** A closer is not read as words; the name of the block that it closes holds no
quotes. -/
theorem endsFirst_of_takeAll {text : List Char} {front rest : List Piece} {placed : PlacedTag}
    {o : Outline} (hscan : (scan text).pieces = front ++ .tag placed :: rest)
    (htake : Outline.start.takeAll (front ++ [.tag placed]) = .ok o) {inner : List Char} {c : Cut}
    (hcut : cut inner = .ok c) (htag : Tag.ofContent c.form c.content = .ok placed.tag)
    (hform : c.form = .raw ∨ c.form = .plain) : EndsFirst c.form c.content := by
  cases hwords : Tag.words? c.form c.content with
  | some made =>
    obtain ⟨kind, x⟩ := made
    cases hreads : Word.readAll x with
    | ok words => exact endsFirst_of_readAll hcut hform hwords hreads
    | error e =>
      rw [Tag.ofContent_eq_ofKind hwords, Tag.ofKind_of_error hreads] at htag
      cases htag
  | none =>
    refine endsFirst_of_unquoted hcut hform ?_
    rcases Tag.ofContent_wordless hwords with ⟨hcomment, -⟩ |
      ⟨-, ⟨name, htrim, hcloser⟩ | ⟨htrim, -⟩⟩
    · rcases hcomment with hcomment | hcomment <;> rcases hform with hform | hform <;>
        cases hcomment.symm.trans hform
    · -- The closer repeats the name of an opener in front of it, and that one was read as words.
      rw [htag] at hcloser
      have hmarks := Frame.takeAll_marks Outline.start (front ++ [.tag placed])
      rw [htake, marks_append, marks_tag, Except.ok.inj hcloser] at hmarks
      obtain ⟨b, opening, hmem, hname⟩ := Frame.exists_opener hmarks.symm
      obtain ⟨opener, hopener, htagged⟩ := tag_of_mark hmem
      have hscanned : .tag opener ∈ (scan text).pieces := by
        rw [hscan]
        exact List.mem_append_left _ hopener
      obtain ⟨_, _, -, -, htag'⟩ := tag_of_scan hscanned
      have hvalid := Tag.valid_of_ofContent htag'
      rw [htagged] at hvalid
      have hunquoted := Opening.Valid.unquoted hvalid
      rw [hname, String.toList_ofList] at hunquoted
      refine .of_trim ?_
      rw [htrim]
      exact List.forall_mem_cons.2 ⟨by decide, hunquoted.of_trim⟩
    · refine .of_trim ?_
      rw [htrim]
      exact Quoting.unquoted_of_all (by decide)

/-- No template is turned down because a literal in it is not closed. -/
theorem parse_ne_unterminatedText (text : String) (position : Position) :
    parse text ≠ .error (.malformed .unterminatedText position) := by
  intro h
  obtain ⟨⟨cause, before⟩, hverdict, hfault⟩ := fault_of_parse h
  obtain ⟨rfl, -⟩ := Fault.malformed.inj hfault
  rcases verdict_eq_some hverdict with ⟨_, _, _, _, -, -, htake⟩ | ⟨_, -, hscan⟩ |
    ⟨_, _, -, -, hunclosed⟩
  · cases Frame.stage_of_take htake
  · obtain ⟨last, end', -, hstops, -⟩ := scan_passes text.toList
    rw [hscan] at hstops
    cases hstops with
    | uncut hcut => cases stage_of_cut hcut
    | unread hcut htag =>
      rcases Tag.stage_of_ofContent htag with hstage | ⟨-, kind, x, hwords, hreads⟩
      · cases hstage
      · exact Word.run_of_unterminated hreads (outside_of_cut hcut hwords)
  · cases hunclosed

/-- **The walk to the end of a tag and the reading of its words agree about literals.** No template
is turned down because a literal in it is not closed. Wherever a tag can be cut out of a text, every
literal that is begun among its words is closed there, and each word that reading comes to starts
where the walk is outside every literal. And a tag that a template takes in ends at the first closing
mark outside the literals that are read in it. -/
theorem quoting_agrees (text : String) :
    (∀ position, parse text ≠ .error (.malformed .unterminatedText position)) ∧
    (∀ before inner c kind x, text.toList = before ++ '\x7b' :: '\x7b' :: inner →
      cut inner = .ok c → Tag.words? c.form c.content = some (kind, x) →
      Word.readAll x ≠ .error .unterminatedText ∧
      ∃ lead, trimEnd c.content = lead ++ x ∧
        ∀ front rest, x = front ++ rest → Word.ComesTo x rest →
          Quoting.run .outside (lead ++ front) = .outside) ∧
    ∀ front placed rest o, (scan text.toList).pieces = front ++ .tag placed :: rest →
      Outline.start.takeAll (front ++ [.tag placed]) = .ok o →
      ∃ inner c, text.toList = placed.before.reverse ++ '\x7b' :: '\x7b' :: inner ∧
        cut inner = .ok c ∧ Tag.ofContent c.form c.content = .ok placed.tag ∧
        (c.form = .raw ∨ c.form = .plain → EndsFirst c.form c.content) := by
  refine ⟨parse_ne_unterminatedText text, ?_, ?_⟩
  · intro before inner c kind x _ hcut hwords
    obtain ⟨lead, hlead, hunquoted⟩ := Tag.words?_place hwords
    refine ⟨fun hreads => Word.run_of_unterminated hreads (outside_of_cut hcut hwords), lead, hlead,
      fun front rest hx hcomes => ?_⟩
    obtain ⟨front', hx', hrun⟩ := hcomes.outside
    obtain rfl : front = front' := List.append_cancel_right (hx.symm.trans hx')
    rw [Quoting.run_append, hunquoted.run, hrun]
  · intro front placed rest o hscan htake
    have hmem : .tag placed ∈ (scan text.toList).pieces := by
      rw [hscan]
      simp
    obtain ⟨inner, c, htext, hcut, htag⟩ := tag_of_scan hmem
    exact ⟨inner, c, htext, hcut, htag, endsFirst_of_takeAll hscan htake hcut htag⟩

/-- Braces inside a literal do not end the tag. -/
theorem quoting_agrees_of_braces :
    let text := "\x7b\x7bup '\x7d\x7d'\x7d\x7d"
    let call := Tag.call "up" [.literal (.text "\x7d\x7d")] [] true
    (scan text.toList).pieces = [.tag ⟨[], [], text.toList, [], call⟩] ∧
      EndsFirst .plain "up '\x7d\x7d'".toList := by
  have hscan : (scan "\x7b\x7bup '\x7d\x7d'\x7d\x7d".toList).pieces =
      [.tag ⟨[], [], "\x7b\x7bup '\x7d\x7d'\x7d\x7d".toList, [],
        .call "up" [.literal (.text "\x7d\x7d")] [] true⟩] := by cbv
  refine ⟨hscan, ?_⟩
  obtain ⟨inner, c, htext, hcut, -, hends⟩ := (quoting_agrees _).2.2 [] _ [] _ hscan rfl
  have hinner : "up '\x7d\x7d'\x7d\x7d".toList = inner := by simpa using htext
  have hc : cut "up '\x7d\x7d'\x7d\x7d".toList = .ok ⟨.plain, "up '\x7d\x7d'".toList, []⟩ := by cbv
  rw [hinner, hcut] at hc
  cases hc
  exact hends (.inr rfl)

end Stencil
