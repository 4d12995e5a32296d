import Stencil.Proofs.PathSpellings
import Stencil.Proofs.Quoting

/-!
# Words as they are written

How literals, and rows of arguments made of them, are written in a tag, and that reading them gives
them back. A text is written between two quotes of a kind, with a backslash before that quote and
before each backslash; whatever else it holds, braces, blanks or `=`, stands for itself. The other
literals are words of ASCII characters.

> `Word.readQuoted_escapeQuoted`: what is written between quotes is read back.
> `Literal.exists_written`: every literal but a floating-point number can be written.
> `Word.readFirst_written`: a written word is read as that word, up to the blank behind it.
> `Word.readAll_written`: so a row of written words is read as these words.
-/

namespace Stencil

open Text

/-! ## Characters -/

/-- The characters of names and of literals without quotes: ASCII letters and digits, `_` and `-`. -/
def isWordChar (c : Char) : Bool := c.isAlphanum || c == '_' || c == '-'

/-- What holds of the word characters of the ASCII block holds of each. -/
theorem of_isWordChar {p : Char → Bool}
    (hp : ((List.range 128).all fun n => !isWordChar (Char.ofNat n) || p (Char.ofNat n)) = true)
    {c : Char} (h : isWordChar c = true) : p c = true := by
  have hascii : c.toNat < 128 := by
    simp only [isWordChar, Bool.or_eq_true, beq_iff_eq] at h
    rcases h with (h | rfl) | rfl
    · exact ascii_of_isAlphanum h
    · decide
    · decide
  have hall := of_ascii (p := fun c => !isWordChar c || p c) hp hascii
  simpa [h] using hall

theorem isBlank_of_isWordChar {c : Char} (h : isWordChar c = true) : isBlank c = false := by
  simpa using of_isWordChar (p := fun c => !isBlank c) (by decide) h

theorem isQuote_of_isWordChar {c : Char} (h : isWordChar c = true) : Word.isQuote c = false := by
  simpa using of_isWordChar (p := fun c => !Word.isQuote c) (by decide) h

theorem isKeyChar_of_isWordChar {c : Char} (h : isWordChar c = true) : Word.isKeyChar c = true :=
  of_isWordChar (by decide) h

/-- The code points of the blanks. -/
def blankCodes : List Nat :=
  [9, 10, 11, 12, 13, 32, 0x85, 0xa0, 0x1680, 0x2000, 0x2001, 0x2002, 0x2003, 0x2004, 0x2005, 0x2006,
    0x2007, 0x2008, 0x2009, 0x200a, 0x2028, 0x2029, 0x202f, 0x205f, 0x3000]

theorem mem_blankCodes {c : Char} (h : isBlank c = true) : c.toNat ∈ blankCodes := by
  simp only [isBlank, isWideBlank, Bool.or_eq_true, Bool.and_eq_true, decide_eq_true_eq,
    beq_iff_eq] at h
  simp only [blankCodes, List.mem_cons, List.not_mem_nil, or_false]
  omega

theorem isKeyChar_of_isBlank {c : Char} (h : isBlank c = true) : Word.isKeyChar c = false := by
  -- The table of letters and numbers is asked about each blank.
  have hall : (blankCodes.all fun n => !Word.isKeyChar (Char.ofNat n)) = true := by decide +kernel
  have := List.all_eq_true.1 hall _ (mem_blankCodes h)
  rw [Char.ofNat_toNat] at this
  simpa using this

/-- An ASCII letter or an underscore, and behind it ASCII letters, digits and underscores. -/
def IsName (cs : List Char) : Prop :=
  ∃ c rest, cs = c :: rest ∧ (c.isAlpha = true ∨ c = '_') ∧
    ∀ d ∈ rest, d.isAlphanum = true ∨ d = '_'

theorem IsName.ne_nil {cs : List Char} (h : IsName cs) : cs ≠ [] := by
  obtain ⟨c, rest, rfl, -⟩ := h
  exact List.cons_ne_nil c rest

theorem IsName.isWordChar {cs : List Char} (h : IsName cs) : ∀ c ∈ cs, isWordChar c = true := by
  obtain ⟨c, rest, rfl, hc, hrest⟩ := h
  refine List.forall_mem_cons.2 ⟨?_, fun d hd => ?_⟩
  · rcases hc with hc | rfl
    · rw [Stencil.isWordChar, Char.isAlphanum, hc, Bool.true_or, Bool.true_or, Bool.true_or]
    · decide
  · rcases hrest d hd with hd | rfl
    · rw [Stencil.isWordChar, hd, Bool.true_or, Bool.true_or]
    · decide

/-! ## Literals -/

/-- A text with a backslash before each backslash and each quote of a kind. -/
def escapeQuoted (quote : Char) (s : List Char) : List Char :=
  s.flatMap fun c => if c = '\\' ∨ c = quote then ['\\', c] else [c]

theorem escapeQuoted_cons (quote c : Char) (s : List Char) :
    escapeQuoted quote (c :: s) =
      (if c = '\\' ∨ c = quote then ['\\', c] else [c]) ++ escapeQuoted quote s :=
  List.flatMap_cons

/-- The ways in which a literal is written. -/
inductive Literal.Written : Literal → List Char → Prop where
  | null : Written .null "null".toList
  | bool (b : Bool) : Written (.bool b) (if b then "true" else "false").toList
  | text {quote : Char} (hquote : Word.isQuote quote = true) (s : List Char) :
      Written (.text (String.ofList s)) (quote :: (escapeQuoted quote s ++ [quote]))
  | natural {n : Int64} {digits : List Char} (hne : digits ≠ [])
      (hdigits : ∀ c ∈ digits, c.isDigit = true)
      (hn : n.toInt = Nat.ofDigitChars 10 digits 0) : Written (.int n) digits
  | negative {n : Int64} {digits : List Char} (hne : digits ≠ [])
      (hdigits : ∀ c ∈ digits, c.isDigit = true)
      (hn : n.toInt = -Nat.ofDigitChars 10 digits 0) : Written (.int n) ('-' :: digits)

theorem Literal.written_natural {n : Int64} {m : Nat} (h : n.toInt = m) :
    Written (.int n) (Nat.toDigits 10 m) :=
  .natural Nat.toDigits_ne_nil (fun _ hc => Nat.isDigit_of_mem_toDigits (by decide) (by decide) hc)
    (by rw [h, Nat.ofDigitChars_ten_toDigits])

theorem Literal.written_negative {n : Int64} {m : Nat} (h : n.toInt = -m) :
    Written (.int n) ('-' :: Nat.toDigits 10 m) :=
  .negative Nat.toDigits_ne_nil (fun _ hc => Nat.isDigit_of_mem_toDigits (by decide) (by decide) hc)
    (by rw [h, Nat.ofDigitChars_ten_toDigits])

/-- An integer is written as its decimal text. -/
theorem Literal.written_int (n : Int64) : Written (.int n) (toString n.toInt).toList := by
  cases hn : n.toInt with
  | ofNat m =>
    have hwritten := written_natural (n := n) (m := m) hn
    rwa [← String.toList_ofList (l := Nat.toDigits 10 m)] at hwritten
  | negSucc m =>
    have hwritten := written_negative (n := n) (m := m + 1) hn
    have htext : (toString (Int.negSucc m)).toList = '-' :: Nat.toDigits 10 (m + 1) := by
      change ("-" ++ Nat.repr (m + 1)).toList = _
      rw [String.toList_append, Nat.repr]
      exact congrArg (List.cons '-') String.toList_ofList
    rwa [htext]

/-- **Every literal but a floating-point number can be written.** -/
theorem Literal.exists_written {l : Literal} (h : ∀ x, l ≠ .float x) : ∃ cs, l.Written cs := by
  cases l with
  | null => exact ⟨_, .null⟩
  | bool b => exact ⟨_, .bool b⟩
  | text s =>
    have hwritten := Literal.Written.text (show Word.isQuote '\x22' = true by decide) s.toList
    rw [String.ofList_toList] at hwritten
    exact ⟨_, hwritten⟩
  | int n => exact ⟨_, Literal.written_int n⟩
  | float x => exact absurd rfl (h x)

/-! ## Reading numbers -/

theorem readDigits?_eq {digits : List Char} (hne : digits ≠ [])
    (hdigits : ∀ c ∈ digits, c.isDigit = true) :
    Number.readDigits? digits = some (Nat.ofDigitChars 10 digits 0) := by
  rw [Number.readDigits?, if_pos ⟨hne, List.all_eq_true.2 hdigits⟩, Nat.ofDigitChars]
  simp only [Nat.mul_comm]

/-- A word that is written like a number and denotes an integer of 64 bits is that integer. -/
theorem readNumber?_eq {word : List Char} {n : Int64} (hnumeric : Param.looksNumeric word = true)
    (hread : Number.readInt? true word = some n.toInt) : Param.readNumber? word = some (.int n) := by
  have hholds : IntKind.i64.Holds n.toInt := ⟨n.le_toInt, Int.le_sub_one_of_lt n.toInt_lt⟩
  have hi64 : IntKind.i64.read? word = some ⟨n.toInt, hholds⟩ := by
    rw [IntKind.read?, show IntKind.i64.signed = true from rfl, hread]
    exact dif_pos hholds
  rw [Param.readNumber?, if_pos hnumeric, hi64]
  simp only [Int64.ofInt_toInt]

section

variable {c : Char} {rest : List Char} (hdigits : ∀ d ∈ c :: rest, d.isDigit = true)

include hdigits

theorem looksNumeric_of_digits : Param.looksNumeric ('-' :: c :: rest) = true ∧
    Param.looksNumeric (c :: rest) = true := by
  have hc : c.isDigit = true := hdigits c (List.mem_cons_self ..)
  have hbody : (c :: rest).all (fun d => d.isDigit || d == '.') = true :=
    List.all_eq_true.2 fun d hd => by rw [hdigits d hd, Bool.true_or]
  have hboth : (c.isDigit && (c :: rest).all fun d => d.isDigit || d == '.') = true := by
    rw [hc, hbody, Bool.and_self]
  refine ⟨hboth, ?_⟩
  unfold Param.looksNumeric
  split
  next heq =>
    cases heq
    cases hc
  next => exact hboth

theorem readInt?_of_digits :
    Number.readInt? true ('-' :: c :: rest) =
        some (-((Nat.ofDigitChars 10 (c :: rest) 0 : Nat) : Int)) ∧
      Number.readInt? true (c :: rest) = some ((Nat.ofDigitChars 10 (c :: rest) 0 : Nat) : Int) := by
  have hc : c.isDigit = true := hdigits c (List.mem_cons_self ..)
  have hread := readDigits?_eq (List.cons_ne_nil _ _) hdigits
  constructor
  · rw [Number.readInt?, if_pos rfl, hread]
    rfl
  · unfold Number.readInt?
    split
    next heq =>
      cases heq
      cases hc
    next heq =>
      cases heq
      cases hc
    next =>
      rw [hread]
      rfl

end

/-- A number stands for none of the fixed words. -/
theorem ofWord?_of_number {word : List Char} {l : Literal} (h : Param.readNumber? word = some l)
    (hnumeric : Param.looksNumeric word = true) : Param.ofWord? word = some (.literal l) := by
  have hne : ∀ fixed : List Char, Param.looksNumeric fixed = false → word ≠ fixed := by
    rintro fixed hfixed rfl
    cases hfixed.symm.trans hnumeric
  rw [Param.ofWord?, if_neg (hne _ (by decide)), if_neg (hne _ (by decide)),
    if_neg (not_or.2 ⟨hne _ (by decide), hne _ (by decide)⟩), h]

/-- **How a literal is written**: between quotes, or as a word that is read as the literal. -/
theorem Literal.Written.cases_on {l : Literal} {cs : List Char} (h : l.Written cs) :
    (∃ quote s, Word.isQuote quote = true ∧ l = .text (String.ofList s) ∧
        cs = quote :: (escapeQuoted quote s ++ [quote])) ∨
      cs ≠ [] ∧ (∀ c ∈ cs, isWordChar c = true) ∧ Param.ofWord? cs = some (.literal l) := by
  have hdigit : ∀ {c : Char}, c.isDigit = true → isWordChar c = true := fun h => by
    rw [isWordChar, Char.isAlphanum, h, Bool.or_true, Bool.true_or, Bool.true_or]
  cases h with
  | null => exact .inr ⟨by decide, List.all_eq_true.1 (by decide), rfl⟩
  | bool b =>
    refine .inr ?_
    cases b with
    | false => exact ⟨by decide, List.all_eq_true.1 (by decide), rfl⟩
    | true => exact ⟨by decide, List.all_eq_true.1 (by decide), rfl⟩
  | text hquote s => exact .inl ⟨_, s, hquote, rfl, rfl⟩
  | natural hne hdigits hn =>
    obtain ⟨c, rest, rfl⟩ := List.exists_cons_of_ne_nil hne
    have hnumeric := (looksNumeric_of_digits hdigits).2
    refine .inr ⟨hne, fun d hd => hdigit (hdigits d hd), ofWord?_of_number ?_ hnumeric⟩
    exact readNumber?_eq hnumeric (by rw [hn, (readInt?_of_digits hdigits).2])
  | negative hne hdigits hn =>
    obtain ⟨c, rest, rfl⟩ := List.exists_cons_of_ne_nil hne
    have hnumeric := (looksNumeric_of_digits hdigits).1
    refine .inr ⟨List.cons_ne_nil _ _, ?_, ofWord?_of_number ?_ hnumeric⟩
    · exact List.forall_mem_cons.2 ⟨by decide, fun d hd => hdigit (hdigits d hd)⟩
    · exact readNumber?_eq hnumeric (by rw [hn, (readInt?_of_digits hdigits).1])

/-! ## Reading words -/

namespace Word

/-- **What is written between quotes is read back.** -/
theorem readQuoted_escapeQuoted {quote : Char} (hquote : isQuote quote = true)
    (s rest : List Char) :
    readQuoted quote (escapeQuoted quote s ++ quote :: rest) = some (s, rest) := by
  have hslash : quote ≠ '\\' := ne_of_isQuote hquote (by decide)
  induction s with
  | nil =>
    rw [escapeQuoted, List.flatMap_nil, List.nil_append]
    rw [readQuoted.eq_4 _ _ _ (by simp [hslash]) (by simp [hslash]), if_pos rfl]
  | cons c s ih =>
    rw [escapeQuoted_cons]
    split
    next => simp only [List.cons_append, List.nil_append, readQuoted, ih, Option.map_some]
    next hc =>
      obtain ⟨hc, hne⟩ := not_or.1 hc
      rw [List.singleton_append, List.cons_append]
      rw [readQuoted.eq_4 _ _ _ (by simp [hc]) (by simp [hc]), if_neg hne, ih]
      rfl

/-- Where a word may end: at a blank, or at the end of the text. -/
def EndsWord (rest : List Char) : Prop := ∀ c ∈ rest.head?, isBlank c = true

theorem EndsWord.takeWhile {p : Char → Bool} (hp : ∀ c, isBlank c = true → p c = false)
    {cs rest : List Char} (h : EndsWord rest) (hcs : ∀ c ∈ cs, p c = true) :
    (cs ++ rest).takeWhile p = cs ∧ (cs ++ rest).dropWhile p = rest := by
  rw [List.takeWhile_append_of_pos hcs, List.dropWhile_append_of_pos hcs]
  cases rest with
  | nil => exact ⟨List.append_nil cs, rfl⟩
  | cons c rest =>
    have hc := hp c (h c rfl)
    rw [List.takeWhile_cons_of_neg (by simp [hc]), List.dropWhile_cons_of_neg (by simp [hc])]
    exact ⟨List.append_nil cs, rfl⟩

theorem readParam_of_word {cs rest : List Char} {p : Param} (hne : cs ≠ [])
    (hcs : ∀ c ∈ cs, isWordChar c = true) (hword : Param.ofWord? cs = some p)
    (hends : EndsWord rest) : readParam (cs ++ rest) = .ok (p, rest) := by
  have hsplit : splitBlank (cs ++ rest) = (cs, rest) := by
    obtain ⟨htake, hdrop⟩ := hends.takeWhile (p := fun c => !isBlank c) (by simp)
      fun c hc => by simp [isBlank_of_isWordChar (hcs c hc)]
    rw [splitBlank, htake, hdrop]
  obtain ⟨c, more, rfl⟩ := List.exists_cons_of_ne_nil hne
  rw [List.cons_append] at hsplit ⊢
  rw [readParam, if_neg (by simp [isQuote_of_isWordChar (hcs c (List.mem_cons_self ..))])]
  simp only [hsplit, hword]

theorem readParam_written {l : Literal} {cs rest : List Char} (h : l.Written cs)
    (hends : EndsWord rest) : readParam (cs ++ rest) = .ok (.literal l, rest) := by
  rcases h.cases_on with ⟨quote, s, hquote, rfl, rfl⟩ | ⟨hne, hcs, hword⟩
  · rw [List.cons_append, List.append_assoc, readParam, if_pos hquote, List.singleton_append,
      readQuoted_escapeQuoted hquote]
  · exact readParam_of_word hne hcs hword hends

/-- No key is split off a text without an equals sign behind its word characters. -/
theorem splitKey?_of_word {cs rest : List Char} (hcs : ∀ c ∈ cs, isWordChar c = true)
    (hends : EndsWord rest) : splitKey? (cs ++ rest) = none := by
  obtain ⟨htake, hdrop⟩ := hends.takeWhile (fun c => isKeyChar_of_isBlank) fun c hc =>
    isKeyChar_of_isWordChar (hcs c hc)
  unfold splitKey?
  rw [htake, hdrop]
  split
  next => exact absurd (hends '=' rfl) (by decide)
  next => rfl

/-- How a word is written: a literal, or a literal behind a name and an equals sign. -/
inductive Written : Word → List Char → Prop where
  | positional {l : Literal} {cs : List Char} (h : l.Written cs) :
      Written (.positional (.literal l)) cs
  | named {key : String} {l : Literal} {cs : List Char} (hkey : IsName key.toList)
      (h : l.Written cs) : Written (.named key (.literal l)) (key.toList ++ '=' :: cs)

/-- **A written word is read as that word**, up to the blank behind it. -/
theorem readFirst_written {w : Word} {cs rest : List Char} (h : w.Written cs)
    (hends : EndsWord rest) : readFirst (cs ++ rest) = .ok (w, rest) := by
  cases h with
  | @positional l cs h =>
    -- No equals sign follows the characters of a key, neither in the literal nor behind it.
    have hkey : splitKey? (cs ++ rest) = none := by
      rcases h.cases_on with ⟨quote, s, hquote, -, rfl⟩ | ⟨-, hcs, -⟩
      · have hquote' : isKeyChar quote = false := by
          rcases isQuote_iff.1 hquote with rfl | rfl <;> decide
        unfold splitKey?
        rw [List.cons_append, List.takeWhile_cons_of_neg (by simp [hquote'])]
      · exact splitKey?_of_word hcs hends
    rw [readFirst, hkey]
    simp only [readParam_written h hends, Except.map]
  | @named key l cs hname h =>
    have hkeys : ∀ c ∈ key.toList, isKeyChar c = true := fun c hc =>
      isKeyChar_of_isWordChar (hname.isWordChar c hc)
    obtain ⟨c, more, hcons, -⟩ := hname
    have hkey : splitKey? (key.toList ++ '=' :: cs ++ rest) = some (key.toList, cs ++ rest) := by
      unfold splitKey?
      rw [List.append_assoc, List.cons_append, List.takeWhile_append_of_pos hkeys,
        List.dropWhile_append_of_pos hkeys, List.takeWhile_cons_of_neg (by decide),
        List.dropWhile_cons_of_neg (by decide), List.append_nil, hcons]
      rfl
    rw [readFirst, hkey]
    simp only [readParam_written h hends, Except.map, String.ofList_toList]

/-! ## Rows of words -/

/-- How a row of words is written: each behind blanks. -/
inductive RowWritten : List Word → List Char → Prop where
  | nil : RowWritten [] []
  | cons {w : Word} {ws : List Word} {blanks cs rest : List Char} (hne : blanks ≠ [])
      (hblanks : ∀ c ∈ blanks, isBlank c = true) (hw : w.Written cs) (h : RowWritten ws rest) :
      RowWritten (w :: ws) (blanks ++ (cs ++ rest))

theorem RowWritten.endsWord {ws : List Word} {row : List Char} (h : RowWritten ws row) :
    EndsWord row := by
  cases h with
  | nil => intro c hc; cases hc
  | cons hne hblanks =>
    obtain ⟨b, blanks, rfl⟩ := List.exists_cons_of_ne_nil hne
    intro c hc
    cases hc
    exact hblanks b (List.mem_cons_self ..)

/-- A text that begins and ends with a character that is no blank. -/
structure Trimmed (cs : List Char) : Prop where
  first : ∃ c more, cs = c :: more ∧ isBlank c = false
  last : ∃ front c, cs = front ++ [c] ∧ isBlank c = false

theorem Trimmed.of_blankless {cs : List Char} (hne : cs ≠ []) (hcs : ∀ c ∈ cs, isBlank c = false) :
    Trimmed cs := by
  constructor
  · obtain ⟨c, more, rfl⟩ := List.exists_cons_of_ne_nil hne
    exact ⟨c, more, rfl, hcs c (List.mem_cons_self ..)⟩
  · exact ⟨cs.dropLast, cs.getLast hne, (List.dropLast_append_getLast hne).symm,
      hcs _ (List.getLast_mem hne)⟩

theorem Trimmed.of_word {cs : List Char} (hne : cs ≠ []) (hcs : ∀ c ∈ cs, isWordChar c = true) :
    Trimmed cs :=
  .of_blankless hne fun c hc => isBlank_of_isWordChar (hcs c hc)

theorem Written.trimmed {w : Word} {cs : List Char} (h : w.Written cs) : Trimmed cs := by
  have hliteral : ∀ {l : Literal} {cs : List Char}, l.Written cs → Trimmed cs := by
    intro l cs h
    rcases h.cases_on with ⟨quote, s, hquote, -, rfl⟩ | ⟨hne, hcs, -⟩
    · have hblank : isBlank quote = false := by
        rcases isQuote_iff.1 hquote with rfl | rfl <;> decide
      exact ⟨⟨quote, _, rfl, hblank⟩, quote :: escapeQuoted quote s, quote, rfl, hblank⟩
    · exact .of_word hne hcs
  cases h with
  | positional h => exact hliteral h
  | @named key l cs hname h =>
    obtain ⟨c, more, hcons, hc⟩ := (Trimmed.of_word hname.ne_nil hname.isWordChar).first
    obtain ⟨front, d, rfl, hd⟩ := (hliteral h).last
    exact ⟨⟨c, more ++ '=' :: (front ++ [d]), by rw [hcons]; rfl, hc⟩,
      key.toList ++ '=' :: front, d, by simp, hd⟩

/-- Blanks in front go when a text is trimmed. -/
theorem Trimmed.trimStart_eq {cs blanks : List Char} (h : Trimmed cs)
    (hblanks : ∀ c ∈ blanks, isBlank c = true) (rest : List Char) :
    trimStart (blanks ++ (cs ++ rest)) = cs ++ rest := by
  obtain ⟨c, more, rfl, hc⟩ := h.first
  rw [trimStart, List.dropWhile_append_of_pos hblanks, List.cons_append,
    List.dropWhile_cons_of_neg (by simp [hc])]

theorem readAll_cons {y after : List Char} {w : Word} {ws : List Word}
    (hfirst : readFirst (trimStart y) = .ok (w, after)) (hrest : readAll after = .ok ws) :
    readAll y = .ok (w :: ws) := by
  have hne : trimStart y ≠ [] := by
    intro hnil
    rw [hnil] at hfirst
    cases hfirst
  rw [readAll, if_neg hne]
  split
  next heq => cases hfirst.symm.trans heq
  next heq =>
    cases hfirst.symm.trans heq
    rw [hrest]

/-- **A row of written words is read as these words.** -/
theorem readAll_row {ws : List Word} {row : List Char} (h : RowWritten ws row) :
    readAll row = .ok ws := by
  induction h with
  | nil => rw [readAll, if_pos (show trimStart [] = [] from rfl)]
  | @cons w ws blanks cs rest hne hblanks hw h ih =>
    refine readAll_cons ?_ ih
    rw [hw.trimmed.trimStart_eq hblanks]
    exact readFirst_written hw h.endsWord

theorem readAll_written {w : Word} {cs : List Char} (h : w.Written cs) : readAll cs = .ok [w] := by
  refine readAll_cons ?_ (readAll_row .nil)
  have hends : EndsWord [] := by simp [EndsWord]
  rw [← List.append_nil cs, ← List.nil_append (cs ++ []),
    h.trimmed.trimStart_eq (List.forall_mem_nil _) []]
  exact readFirst_written h hends

/-- The last character of a row is no blank. -/
theorem RowWritten.last {ws : List Word} {row : List Char} (h : RowWritten ws row) (hne : ws ≠ []) :
    ∃ front c, row = front ++ [c] ∧ isBlank c = false := by
  induction h with
  | nil => exact absurd rfl hne
  | @cons w ws blanks cs rest _ _ hw h ih =>
    cases ws with
    | nil =>
      cases h
      obtain ⟨front, c, rfl, hc⟩ := hw.trimmed.last
      exact ⟨blanks ++ front, c, by simp, hc⟩
    | cons w' ws =>
      obtain ⟨front, c, rfl, hc⟩ := ih (List.cons_ne_nil _ _)
      exact ⟨blanks ++ (cs ++ front), c, by simp, hc⟩

end Word

/-! ## Names -/

/-- A segment is read as a path of a single name, but for the word `this`. -/
theorem Path.read?_of_isSegment {name : String} (h : isSegment name.toList = true)
    (hthis : name ≠ "this") : read? name.toList = some (.named name []) :=
  read?_spelling (p := .named name []) ⟨hthis, List.forall_mem_singleton.2 h⟩

/-- **A name that a helper can go by is read as a path of that name.** -/
theorem IsHelperName.ofWord? {name : String} (h : IsHelperName name) :
    Param.ofWord? name.toList = some (.path (.named name [])) := by
  have hne : ∀ {fixed : List Char}, String.ofList fixed ∈
      ["this", "true", "false", "null", "undefined"] → name.toList ≠ fixed := by
    intro fixed hmem heq
    rw [← heq, String.ofList_toList] at hmem
    exact h.unreserved hmem
  have hthis : name ≠ "this" := fun heq => h.unreserved (by rw [heq]; decide)
  have hnumber : Param.readNumber? name.toList = none := by
    rw [Param.readNumber?, if_neg (by rw [h.not_numeric]; decide)]
  rw [Param.ofWord?, if_neg (hne (by decide)), if_neg (hne (by decide)),
    if_neg (not_or.2 ⟨hne (by decide), hne (by decide)⟩), hnumber,
    Path.read?_of_isSegment h.segment hthis]
  rfl

theorem IsName.isHelperName {name : String} (h : IsName name.toList)
    (hname : name ∉ ["this", "true", "false", "null", "undefined"]) : IsHelperName name := by
  refine ⟨Path.isSegment_iff.2 ⟨h.ne_nil, fun c hc => ?_⟩, hname, ?_⟩
  · exact of_isWordChar (by decide) (h.isWordChar c hc)
  · have hword := h.isWordChar
    obtain ⟨c, rest, heq, hc, -⟩ := h
    have hdigit : c.isDigit = false := by
      have hall := of_isWordChar (p := fun c => !(c.isAlpha || c == '_') || !c.isDigit) (by decide)
        (hword c (by simp [heq]))
      rcases hc with hc | rfl
      · simpa [hc] using hall
      · decide
    have hminus : c ≠ '-' := by
      rintro rfl
      revert hc
      decide
    rw [heq]
    unfold Param.looksNumeric
    split
    next heq' => exact absurd (List.cons.inj heq').1 hminus
    next => simp [hdigit]

namespace Word

/-- A helper's name in front of words. -/
theorem readAll_name {name : String} {ws : List Word} {rest : List Char} (hname : IsName name.toList)
    (hreserved : name ∉ ["this", "true", "false", "null", "undefined"]) (hends : EndsWord rest)
    (h : readAll rest = .ok ws) :
    readAll (name.toList ++ rest) = .ok (.positional (.path (.named name [])) :: ws) := by
  have hword := (hname.isHelperName hreserved).ofWord?
  have hfirst : readFirst (name.toList ++ rest) =
      .ok (.positional (.path (.named name [])), rest) := by
    rw [readFirst, splitKey?_of_word hname.isWordChar hends]
    simp only [readParam_of_word hname.ne_nil hname.isWordChar hword hends, Except.map]
  have htrimmed := Trimmed.of_word hname.ne_nil hname.isWordChar
  refine readAll_cons ?_ h
  rw [← List.nil_append (name.toList ++ rest), htrimmed.trimStart_eq (List.forall_mem_nil _) rest]
  exact hfirst

end Word

end Stencil
