import Stencil.Proofs.Stages
import Stencil.Proofs.ValidTags

/-!
# The literals among the words of a tag

Two readers have to agree about the text literals of a tag. The one that looks for the end of the tag
walks over it one character at a time and opens a literal at any quote (`Quoting.step`); the one that
reads the words opens a literal only where an argument begins (`Word.readParam`). They agree because
no word, key or path that is read holds a quote.

> `Word.ComesTo.outside`: each word starts where the walk is outside every literal.
> `Word.whole_of_readAll`: no closing brace stands outside a literal among words that can be read.
> `Word.run_of_unterminated`: where a literal is not closed, the walk ends inside it.
> `Word.literalIn_of_inside`: where the walk is inside a literal, a literal is read.
-/

namespace Stencil

open Text

namespace Word

theorem isQuote_iff {c : Char} : isQuote c = true ↔ c = '\x22' ∨ c = '\x27' := by
  rw [isQuote, Bool.or_eq_true, beq_iff_eq, beq_iff_eq]

/-- Whatever holds of neither quote holds of no quote. -/
theorem isQuote_eq_false {p : Char → Bool} (hdouble : p '\x22' = false) (hsingle : p '\x27' = false)
    {c : Char} (h : p c = true) : isQuote c = false := by
  cases hc : isQuote c with
  | false => rfl
  | true =>
    rcases isQuote_iff.1 hc with rfl | rfl
    · rw [hdouble] at h
      cases h
    · rw [hsingle] at h
      cases h

theorem ne_of_isQuote {quote c : Char} (hquote : isQuote quote = true) (hc : isQuote c = false) :
    quote ≠ c := by
  rintro rfl
  cases hquote.symm.trans hc

theorem isQuote_eq_false_of_isBlank {c : Char} (h : isBlank c = true) : isQuote c = false :=
  isQuote_eq_false (by decide) (by decide) h

theorem isQuote_eq_false_of_isPathChar {c : Char} (h : Path.isPathChar c = true) :
    isQuote c = false :=
  isQuote_eq_false (by decide) (by decide) h

theorem isQuote_eq_false_of_isKeyChar {c : Char} (h : isKeyChar c = true) : isQuote c = false :=
  isQuote_eq_false (by decide) (by decide) h

end Word

/-! ## The walk through a text -/

namespace Quoting

/-- The state behind a text. -/
def run (state : Quoting) (cs : List Char) : Quoting := cs.foldl step state

@[simp]
theorem run_nil (state : Quoting) : run state [] = state := rfl

@[simp]
theorem run_cons (state : Quoting) (c : Char) (cs : List Char) :
    run state (c :: cs) = run (state.step c) cs := rfl

@[simp]
theorem run_append (state : Quoting) (a b : List Char) : run state (a ++ b) = run (run state a) b :=
  List.foldl_append

/-- Text without quotes. -/
def Unquoted (cs : List Char) : Prop := ∀ c ∈ cs, Word.isQuote c = false

theorem Unquoted.append {a b : List Char} (ha : Unquoted a) (hb : Unquoted b) :
    Unquoted (a ++ b) := List.forall_mem_append.2 ⟨ha, hb⟩

theorem Unquoted.run {cs : List Char} (h : Unquoted cs) : run .outside cs = .outside := by
  induction cs with
  | nil => rfl
  | cons c cs ih =>
    obtain ⟨hc, hcs⟩ := List.forall_mem_cons.1 h
    rw [run_cons, step, hc]
    exact ih hcs

theorem unquoted_of_all {cs : List Char} (h : cs.all (fun c => !Word.isQuote c) = true) :
    Unquoted cs := fun c hc => by simpa using List.all_eq_true.1 h c hc

/-- A place inside a literal lies behind text without quotes. -/
theorem peel_unquoted {u z a b : List Char} (hu : Unquoted u) (h : u ++ z = a ++ b)
    (ha : run .outside a ≠ .outside) :
    ∃ a', a = u ++ a' ∧ z = a' ++ b ∧ run .outside a' ≠ .outside := by
  rcases List.append_eq_append_iff.1 h with ⟨a', rfl, hz⟩ | ⟨c, rfl, -⟩
  · rw [run_append, hu.run] at ha
    exact ⟨a', rfl, hz, ha⟩
  · exact absurd (Unquoted.run fun d hd => hu d (List.mem_append_left _ hd)) ha

/-- A literal that is open is one between quotes. -/
def Open : Quoting → Prop
  | outside => True
  | inside q | escaped q => Word.isQuote q = true

theorem Open.step {state : Quoting} (h : state.Open) (c : Char) : (state.step c).Open := by
  cases state with
  | outside =>
    rw [Quoting.step]
    split
    next hc => exact hc
    next => exact True.intro
  | inside q =>
    rw [Quoting.step]
    split
    next => exact h
    next =>
      split
      next => exact True.intro
      next => exact h
  | escaped q => exact h

theorem Open.run {state : Quoting} (h : state.Open) (cs : List Char) : (run state cs).Open := by
  induction cs generalizing state with
  | nil => exact h
  | cons c cs ih => exact ih (h.step c)

/-- Blanks neither open nor close a literal. -/
theorem eq_outside_of_blanks {state : Quoting} {cs : List Char} (h : state.Open)
    (hblank : ∀ c ∈ cs, isBlank c = true) (hrun : run state cs = .outside) : state = .outside := by
  induction cs generalizing state with
  | nil => exact hrun
  | cons c cs ih =>
    obtain ⟨hc, hcs⟩ := List.forall_mem_cons.1 hblank
    have hstep := ih (h.step c) hcs hrun
    cases state with
    | outside => rfl
    | inside q =>
      -- Only the quote itself would close the literal, and it is no blank.
      rw [step] at hstep
      split at hstep
      next => cases hstep
      next =>
        split at hstep
        next heq =>
          have hquote : Word.isQuote c = true := heq ▸ h
          rw [Word.isQuote_eq_false_of_isBlank hc] at hquote
          cases hquote
        next => cases hstep
    | escaped q => cases hstep

end Quoting

/-! ## Whole texts -/

/-- No closing brace stands outside a literal. -/
def Guarded : Quoting → List Char → Prop
  | _, [] => True
  | state, c :: rest => (state = .outside → c ≠ '\x7d') ∧ Guarded (state.step c) rest

theorem guarded_append {state : Quoting} {a b : List Char} :
    Guarded state (a ++ b) ↔ Guarded state a ∧ Guarded (Quoting.run state a) b := by
  induction a generalizing state with
  | nil => simp [Guarded]
  | cons c a ih => simp only [List.cons_append, Guarded, ih, Quoting.run_cons, and_assoc]

/-- The walk goes through the text without meeting a closing brace outside a literal, and comes out
of it outside every literal. -/
structure Whole (cs : List Char) : Prop where
  guarded : Guarded .outside cs
  run : Quoting.run .outside cs = .outside

theorem Whole.append {a b : List Char} (ha : Whole a) (hb : Whole b) : Whole (a ++ b) := by
  refine ⟨guarded_append.2 ⟨ha.guarded, ?_⟩, ?_⟩
  · rw [ha.run]
    exact hb.guarded
  · rw [Quoting.run_append, ha.run, hb.run]

theorem whole_of_unquoted {cs : List Char} (h : Quoting.Unquoted cs) (hbrace : '\x7d' ∉ cs) :
    Whole cs := by
  refine ⟨?_, h.run⟩
  induction cs with
  | nil => exact True.intro
  | cons c cs ih =>
    obtain ⟨hc, hcs⟩ := List.forall_mem_cons.1 h
    obtain ⟨hne, hbrace⟩ := not_or.1 fun hor => hbrace (List.mem_cons.2 hor)
    refine ⟨fun _ => Ne.symm hne, ?_⟩
    rw [Quoting.step, if_neg (by simp [hc])]
    exact ih hcs hbrace

namespace Word

theorem unquoted_of_blanks {cs : List Char} (h : ∀ c ∈ cs, isBlank c = true) :
    Quoting.Unquoted cs := fun c hc => isQuote_eq_false_of_isBlank (h c hc)

end Word

theorem whole_of_blanks {cs : List Char} (h : ∀ c ∈ cs, isBlank c = true) : Whole cs :=
  whole_of_unquoted (Word.unquoted_of_blanks h) fun hmem => absurd (h _ hmem) (by decide)

theorem Whole.padded {lead x trail : List Char} (h : Whole x) (hlead : ∀ c ∈ lead, isBlank c = true)
    (htrail : ∀ c ∈ trail, isBlank c = true) : Whole (lead ++ x ++ trail) :=
  ((whole_of_blanks hlead).append h).append (whole_of_blanks htrail)

namespace Word

/-! ## Literals -/

/-- Two characters of which the first is no backslash, or none. -/
theorem ne_backslash {c : Char} {rest : List Char} (hnil : c = '\\' → rest = [] → False)
    (hcons : ∀ d more, c = '\\' → rest = d :: more → False) : c ≠ '\\' := by
  rintro rfl
  cases rest with
  | nil => exact hnil rfl rfl
  | cons d more => exact hcons d more rfl rfl

/-- A literal that is read ends where the walk comes out of it, and not before. -/
theorem run_of_readQuoted {quote : Char} {cs s after : List Char}
    (h : readQuoted quote cs = some (s, after)) :
    ∃ body, cs = body ++ quote :: after ∧ Guarded (.inside quote) (body ++ [quote]) ∧
      Quoting.run (.inside quote) (body ++ [quote]) = .outside := by
  fun_induction readQuoted quote cs generalizing s after with
  | case1 => cases h
  | case2 => cases h
  | case3 c rest ih =>
    -- A backslash takes the next character along in both readers.
    obtain ⟨⟨s', after'⟩, hrest, heq⟩ := Option.map_eq_some_iff.1 h
    cases heq
    obtain ⟨body, rfl, hguarded, hrun⟩ := ih hrest
    exact ⟨'\\' :: c :: body, rfl, ⟨by simp, by simp [Quoting.step], hguarded⟩, hrun⟩
  | case4 rest hnil hcons =>
    cases h
    refine ⟨[], rfl, ⟨by simp, True.intro⟩, ?_⟩
    simp [Quoting.step, ne_backslash hnil hcons]
  | case5 c rest hnil hcons hc ih =>
    obtain ⟨⟨s', after'⟩, hrest, heq⟩ := Option.map_eq_some_iff.1 h
    cases heq
    obtain ⟨body, rfl, hguarded, hrun⟩ := ih hrest
    have hstep : (Quoting.inside quote).step c = .inside quote := by
      rw [Quoting.step, if_neg (ne_backslash hnil hcons), if_neg hc]
    refine ⟨c :: body, rfl, ?_, ?_⟩
    · rw [List.cons_append, Guarded, hstep]
      exact ⟨by simp, hguarded⟩
    · rw [List.cons_append, Quoting.run_cons, hstep]
      exact hrun

/-- Where a literal is not closed, the walk does not come out of it. -/
theorem run_of_readQuoted_none {quote : Char} {cs : List Char}
    (h : readQuoted quote cs = none) : Quoting.run (.inside quote) cs ≠ .outside := by
  fun_induction readQuoted quote cs with
  | case1 => simp
  | case2 => simp [Quoting.step]
  | case3 c rest ih => exact ih (Option.map_eq_none_iff.1 h)
  | case4 => cases h
  | case5 c rest hnil hcons hc ih =>
    rw [Quoting.run_cons, Quoting.step, if_neg (ne_backslash hnil hcons), if_neg hc]
    exact ih (Option.map_eq_none_iff.1 h)

/-! ## Words -/

/-- Reading a text word by word, without a fault, one comes to the place in front of `rest`, where a
word or the end of the text follows. -/
inductive ComesTo (x : List Char) : List Char → Prop where
  | start : ComesTo x (trimStart x)
  | next {rest after : List Char} {w : Word} (h : ComesTo x rest)
      (hword : readFirst rest = .ok (w, after)) : ComesTo x (trimStart after)

/-- A text literal is read in a text of words, as a word or as the argument of a named one. -/
structure LiteralIn (x front literal behind : List Char) : Prop where
  place : x = front ++ (literal ++ behind)
  word : ∃ rest, ComesTo x rest ∧
    (rest = literal ++ behind ∨ ∃ key, splitKey? rest = some (key, literal ++ behind))
  quoted : ∃ quote body s, literal = quote :: (body ++ [quote]) ∧ isQuote quote = true ∧
    readQuoted quote (body ++ quote :: behind) = some (s, behind)

theorem trimStart_append (cs : List Char) :
    ∃ blanks, cs = blanks ++ trimStart cs ∧ ∀ c ∈ blanks, isBlank c = true :=
  ⟨cs.takeWhile isBlank, List.takeWhile_append_dropWhile.symm, fun _ => List.mem_takeWhile_imp⟩

/-- What stands before the argument of a named word. -/
theorem unquoted_of_splitKey? {cs key rest : List Char} (h : splitKey? cs = some (key, rest)) :
    ∃ front, cs = front ++ rest ∧ Quoting.Unquoted front := by
  obtain ⟨rfl, -, hchars⟩ := splitKey?_eq_some h
  refine ⟨key ++ ['='], by simp, .append (fun c hc => ?_) (List.forall_mem_singleton.2 (by decide))⟩
  exact isQuote_eq_false_of_isKeyChar (hchars c hc)

/-- The text of an argument: either a literal, or characters none of which is a quote. -/
theorem text_of_readParam {cs after : List Char} {p : Param} (h : readParam cs = .ok (p, after)) :
    (∃ quote body s, cs = quote :: (body ++ quote :: after) ∧ isQuote quote = true ∧
      readQuoted quote (body ++ quote :: after) = some (s, after) ∧
      Quoting.run (.inside quote) (body ++ [quote]) = .outside) ∨
    ∃ word, cs = word ++ after ∧ Quoting.Unquoted word := by
  rcases readParam_eq_ok h with ⟨quote, rest, s, rfl, hquote, hread, -⟩ | ⟨word, rfl, hword⟩
  · obtain ⟨body, rfl, -, hrun⟩ := run_of_readQuoted hread
    exact .inl ⟨quote, body, s, rfl, hquote, hread, hrun⟩
  · refine .inr ⟨word, rfl, fun c hc => ?_⟩
    exact isQuote_eq_false_of_isPathChar (Param.isPathChar_of_ofWord? hword c hc)

/-- The text of a word: what stands before its literal, if there is one, holds no quote. -/
theorem text_of_readFirst {cs after : List Char} {w : Word} (h : readFirst cs = .ok (w, after)) :
    (∃ front quote body s, cs = front ++ quote :: (body ++ quote :: after) ∧
      Quoting.Unquoted front ∧ isQuote quote = true ∧
      (front = [] ∨ ∃ key, splitKey? cs = some (key, quote :: (body ++ quote :: after))) ∧
      readQuoted quote (body ++ quote :: after) = some (s, after) ∧
      Quoting.run (.inside quote) (body ++ [quote]) = .outside) ∨
    ∃ word, cs = word ++ after ∧ Quoting.Unquoted word := by
  rcases readFirst_eq_ok h with ⟨key, rest, p, hkey, hparam, -⟩ | ⟨p, -, hparam, -⟩
  · obtain ⟨front, hcs, hunquoted⟩ := unquoted_of_splitKey? hkey
    rcases text_of_readParam hparam with ⟨quote, body, s, rfl, hquote, hread, hrun⟩ |
      ⟨word, rfl, hword⟩
    · exact .inl ⟨front, quote, body, s, hcs, hunquoted, hquote, .inr ⟨key, hkey⟩, hread, hrun⟩
    · exact .inr ⟨front ++ word, by rw [hcs, List.append_assoc], hunquoted.append hword⟩
  · rcases text_of_readParam hparam with ⟨quote, body, s, rfl, hquote, hread, hrun⟩ |
      ⟨word, rfl, hword⟩
    · exact .inl ⟨[], quote, body, s, rfl, by simp [Quoting.Unquoted], hquote, .inl rfl, hread, hrun⟩
    · exact .inr ⟨word, rfl, hword⟩

theorem whole_of_readParam {cs after : List Char} {p : Param} (h : readParam cs = .ok (p, after)) :
    ∃ taken, cs = taken ++ after ∧ Whole taken := by
  rcases readParam_eq_ok h with ⟨quote, rest, s, rfl, hquote, hread, -⟩ | ⟨word, rfl, hword⟩
  · obtain ⟨body, rfl, hguarded, hrun⟩ := run_of_readQuoted hread
    have hopen : Quoting.outside.step quote = .inside quote := by rw [Quoting.step, if_pos hquote]
    refine ⟨quote :: (body ++ [quote]), by simp, ⟨fun _ => ?_, ?_⟩, ?_⟩
    · exact ne_of_isQuote hquote (by decide)
    · rwa [hopen]
    · rwa [Quoting.run_cons, hopen]
  · have hchars := Param.isPathChar_of_ofWord? hword
    refine ⟨word, rfl, whole_of_unquoted (fun c hc => isQuote_eq_false_of_isPathChar (hchars c hc)) ?_⟩
    exact fun hmem => absurd (hchars _ hmem) (by decide)

/-- The walk goes through a word that is read, and comes out of it outside every literal. -/
theorem whole_of_readFirst {cs after : List Char} {w : Word} (h : readFirst cs = .ok (w, after)) :
    ∃ taken, cs = taken ++ after ∧ Whole taken := by
  rcases readFirst_eq_ok h with ⟨key, rest, p, hkey, hparam, -⟩ | ⟨p, -, hparam, -⟩
  · obtain ⟨rfl, -, hchars⟩ := splitKey?_eq_some hkey
    obtain ⟨taken, rfl, htaken⟩ := whole_of_readParam hparam
    have hkey : Whole (key ++ ['=']) := by
      refine whole_of_unquoted (.append ?_ (List.forall_mem_singleton.2 (by decide))) ?_
      · exact fun c hc => isQuote_eq_false_of_isKeyChar (hchars c hc)
      · rw [List.mem_append, List.mem_singleton]
        rintro (hmem | heq)
        · exact absurd (hchars _ hmem) (by decide)
        · cases heq
    exact ⟨key ++ ['='] ++ taken, by simp, hkey.append htaken⟩
  · exact whole_of_readParam hparam

/-- **Words that can be read are a whole text**: its end is not taken for the end of the tag. -/
theorem whole_of_readAll {cs : List Char} {words : List Word} (h : readAll cs = .ok words) :
    Whole cs := by
  fun_induction readAll cs generalizing words with
  | case1 cs hnil =>
    obtain ⟨blanks, hcs, hblanks⟩ := trimStart_append cs
    rw [hnil, List.append_nil] at hcs
    exact hcs ▸ whole_of_blanks hblanks
  | case2 => cases h
  | case3 => cases h
  | case4 cs _ w after hfirst _ ws hrest ih =>
    obtain ⟨blanks, hcs, hblanks⟩ := trimStart_append cs
    obtain ⟨taken, htrim, htaken⟩ := whole_of_readFirst hfirst
    rw [hcs, htrim]
    exact (whole_of_blanks hblanks).append (htaken.append (ih hrest))

/-- **Each word starts outside every literal.** -/
theorem ComesTo.outside {x rest : List Char} (h : ComesTo x rest) :
    ∃ front, x = front ++ rest ∧ Quoting.run .outside front = .outside := by
  induction h with
  | start =>
    obtain ⟨blanks, hx, hblanks⟩ := trimStart_append x
    exact ⟨blanks, hx, (unquoted_of_blanks hblanks).run⟩
  | @next rest after w _ hword ih =>
    obtain ⟨front, hx, hfront⟩ := ih
    obtain ⟨taken, hrest, htaken⟩ := whole_of_readFirst hword
    obtain ⟨blanks, hafter, hblanks⟩ := trimStart_append after
    refine ⟨front ++ taken ++ blanks, ?_, ?_⟩
    · rw [hx, hrest, List.append_assoc, List.append_assoc, ← hafter]
    · rw [Quoting.run_append, Quoting.run_append, hfront, htaken.run,
        (unquoted_of_blanks hblanks).run]

/-- Words that cannot be read have a first one that cannot. -/
theorem exists_of_readAll_error {x y : List Char} {e : SyntaxCause} (h : readAll y = .error e)
    (hcomes : ComesTo x (trimStart y)) : ∃ rest, ComesTo x rest ∧ readFirst rest = .error e := by
  fun_induction readAll y with
  | case1 => cases h
  | case2 y _ e' hfirst =>
    cases h
    exact ⟨_, hcomes, hfirst⟩
  | case3 y _ w after hfirst _ e' hrest ih =>
    cases h
    exact ih hrest (.next hcomes hfirst)
  | case4 => cases h

theorem run_of_readParam_unterminated {cs : List Char}
    (h : readParam cs = .error .unterminatedText) : Quoting.run .outside cs ≠ .outside := by
  unfold readParam at h
  split at h
  next => cases h
  next c rest =>
    split at h
    next hquote =>
      split at h
      next => cases h
      next hread =>
        rw [Quoting.run_cons, Quoting.step, if_pos hquote]
        exact run_of_readQuoted_none hread
    next =>
      dsimp only at h
      split at h
      next => cases h
      next => cases h

/-- **Every literal that is begun is closed**: otherwise the walk would end inside it. -/
theorem run_of_unterminated {x : List Char} (h : readAll x = .error .unterminatedText) :
    Quoting.run .outside x ≠ .outside := by
  obtain ⟨rest, hcomes, hfirst⟩ := exists_of_readAll_error h .start
  obtain ⟨front, rfl, hfront⟩ := hcomes.outside
  rw [Quoting.run_append, hfront]
  obtain ⟨rest', hparam, ⟨key, hkey⟩ | ⟨-, rfl⟩⟩ := readFirst_eq_error hfirst
  · obtain ⟨front', rfl, hunquoted⟩ := unquoted_of_splitKey? hkey
    rw [Quoting.run_append, hunquoted.run]
    exact run_of_readParam_unterminated hparam
  · exact run_of_readParam_unterminated hparam

/-- **Where the walk is inside a literal, a literal is read.** Reading has come to the words of `y`,
and `a` ends in them. -/
theorem literalIn_of_inside {x y f a b : List Char} {words : List Word} (h : readAll y = .ok words)
    (hcomes : ComesTo x (trimStart y)) (hx : x = f ++ y) (hy : y = a ++ b)
    (ha : Quoting.run .outside a ≠ .outside) :
    ∃ front literal behind, LiteralIn x front literal behind ∧
      front.length < (f ++ a).length ∧ (f ++ a).length < (front ++ literal).length := by
  fun_induction readAll y generalizing words f a with
  | case1 y hnil =>
    -- Only blanks are left, and none of them opens a literal.
    obtain ⟨blanks, hblanks, hblank⟩ := trimStart_append y
    obtain ⟨a', -, hnil', ha'⟩ :=
      Quoting.peel_unquoted (unquoted_of_blanks hblank) (hblanks.symm.trans hy) ha
    rw [hnil] at hnil'
    rw [(List.append_eq_nil_iff.1 hnil'.symm).1] at ha'
    exact absurd rfl ha'
  | case2 => cases h
  | case3 => cases h
  | case4 y _ w after hfirst _ ws hrest ih =>
    obtain ⟨blanks, hblanks, hblank⟩ := trimStart_append y
    obtain ⟨a₁, rfl, ha₁, hinside₁⟩ :=
      Quoting.peel_unquoted (unquoted_of_blanks hblank) (hblanks.symm.trans hy) ha
    rcases text_of_readFirst hfirst with ⟨front, quote, body, s, hcs, hfront, hquote, hplace, hread,
        hrun⟩ | ⟨word, hcs, hword⟩
    · obtain ⟨a₂, rfl, ha₂, hinside₂⟩ := Quoting.peel_unquoted hfront (hcs.symm.trans ha₁) hinside₁
      have hliteral : quote :: (body ++ quote :: after) = quote :: (body ++ [quote]) ++ after := by
        simp
      rw [hliteral] at ha₂ hcs hplace
      rcases List.append_eq_append_iff.1 ha₂ with ⟨a₃, rfl, ha₃⟩ | ⟨c, hc, -⟩
      · -- The place lies behind this literal.
        rw [Quoting.run_append, Quoting.run_cons, Quoting.step, if_pos hquote, hrun] at hinside₂
        have hx' : x = f ++ (blanks ++ (front ++ quote :: (body ++ [quote]))) ++ after := by
          rw [hx, hblanks, hcs]
          simp only [List.append_assoc]
        have hfound := ih hrest (.next hcomes hfirst) hx' ha₃ hinside₂
        simpa only [List.append_assoc] using hfound
      · -- The place lies in this literal.
        have hne : a₂ ≠ [] := fun hnil => hinside₂ (by rw [hnil]; rfl)
        have hne' : c ≠ [] := by
          rintro rfl
          rw [List.append_nil] at hc
          rw [← hc, Quoting.run_cons, Quoting.step, if_pos hquote] at hinside₂
          exact hinside₂ hrun
        have hlength := congrArg List.length hc
        have hpos := List.length_pos_of_ne_nil hne
        have hpos' := List.length_pos_of_ne_nil hne'
        refine ⟨f ++ (blanks ++ front), quote :: (body ++ [quote]), after, ⟨?_, ?_, ?_⟩, ?_, ?_⟩
        · rw [hx, hblanks, hcs]
          simp only [List.append_assoc]
        · refine ⟨_, hcomes, ?_⟩
          rcases hplace with rfl | hkey
          · exact .inl hcs
          · exact .inr hkey
        · exact ⟨quote, body, s, rfl, hquote, hread⟩
        · simp only [List.length_append]
          omega
        · simp only [List.length_append] at hlength ⊢
          omega
    · obtain ⟨a₂, rfl, ha₂, hinside₂⟩ := Quoting.peel_unquoted hword (hcs.symm.trans ha₁) hinside₁
      have hx' : x = f ++ (blanks ++ word) ++ after := by
        rw [hx, hblanks, hcs]
        simp only [List.append_assoc]
      have hfound := ih hrest (.next hcomes hfirst) hx' ha₂ hinside₂
      simpa only [List.append_assoc] using hfound

end Word

end Stencil
