import Stencil.Proofs.Concatenation
import Stencil.Proofs.WrittenWords
import Mathlib

/-!
# Tags as they are written

A literal, or a call with arguments, can be written in three forms of a tag, with blanks at both
ends. Whatever the texts among the arguments hold, the tag ends where it should: the walk to its end
goes through words that can be read without meeting a closing brace outside a literal (`Whole`).

> `WrittenTag.isTag`: in each form the tag is cut out whole and read as the expression it is.
> `CallText.parse_eq`: a call with any arguments that can be read is parsed as that call.
> `WrittenCall.parse_eq`, `Literal.Written.parse_eq`: what a call with literals and a literal alone
> are parsed as.
> `render_call`: a call that stands alone shows what its helper comes to, so a helper that answers its
> argument prints a literal as it stands for itself (`render_identity`).
> `literals_come_back`: all of this about a template.
-/

namespace Stencil

open Text

/-! ## The end of a tag -/

/-- **The walk finds the first closing braces behind a guarded text** that it comes out of. -/
theorem cutAt_of_guarded {state : Quoting} {content : List Char} (h : Guarded state content)
    (hrun : Quoting.run state content = .outside) (closing after : List Char) :
    cutAt ('\x7d' :: closing) state (content ++ ('\x7d' :: closing ++ after)) =
      some (content, after) := by
  induction content generalizing state with
  | nil =>
    obtain rfl : state = .outside := hrun
    rw [List.nil_append, List.cons_append, cutAt, if_pos]
    · simp
    · exact ⟨rfl, List.isPrefixOf_iff_prefix.2 ⟨after, rfl⟩⟩
  | cons c content ih =>
    obtain ⟨hc, hcontent⟩ := h
    rw [List.cons_append, cutAt, if_neg, ih hcontent hrun]
    · rfl
    · rintro ⟨hstate, hprefix⟩
      obtain ⟨more, hmore⟩ := List.isPrefixOf_iff_prefix.1 hprefix
      exact hc hstate (List.cons.inj hmore).1.symm

/-! ## Forms of a tag -/

/-- The forms in which an expression is written as a tag, and whether its text is escaped. -/
inductive WrittenTag (x : List Char) : Bool → List Char → Prop where
  | plain {lead trail : List Char} (hlead : ∀ c ∈ lead, isBlank c = true)
      (htrail : ∀ c ∈ trail, isBlank c = true) :
      WrittenTag x true ("\x7b\x7b".toList ++ (lead ++ x ++ trail) ++ "\x7d\x7d".toList)
  | raw {lead trail : List Char} (hlead : ∀ c ∈ lead, isBlank c = true)
      (htrail : ∀ c ∈ trail, isBlank c = true) :
      WrittenTag x false ("\x7b\x7b\x7b".toList ++ (lead ++ x ++ trail) ++ "\x7d\x7d\x7d".toList)
  | ampersand {front lead trail : List Char} (hfront : ∀ c ∈ front, isBlank c = true)
      (hlead : ∀ c ∈ lead, isBlank c = true) (htrail : ∀ c ∈ trail, isBlank c = true) :
      WrittenTag x false
        ("\x7b\x7b".toList ++ (front ++ '&' :: (lead ++ x ++ trail)) ++ "\x7d\x7d".toList)

/-- The characters that stand for another kind of tag at the start of one. -/
def tagMarks : List Char := ['!', '\x7b', '#', '/', '>', '&']

theorem notMem_tagMarks_of_isWordChar {c : Char} (h : isWordChar c = true) : c ∉ tagMarks :=
  of_decide_eq_true (of_isWordChar (p := fun c => decide (c ∉ tagMarks)) (by decide) h)

/-- An expression that can be written as a tag in each of the forms: blanks may stand around it, and
it does not begin with a mark that stands for another kind of tag. -/
structure Expressive (x : List Char) : Prop where
  whole : Whole x
  trimmed : Word.Trimmed x
  unmarked : ∀ c ∈ x.head?, c ∉ tagMarks
  ne_else : x ≠ "else".toList

theorem trim_of_blanks {lead x trail : List Char} (hlead : ∀ c ∈ lead, isBlank c = true)
    (htrail : ∀ c ∈ trail, isBlank c = true) (hx : Word.Trimmed x) :
    trim (lead ++ x ++ trail) = x := by
  obtain ⟨front, d, hlast, hd⟩ := hx.last
  have htrail' : ∀ c ∈ trail.reverse, isBlank c = true := fun c hc =>
    htrail c (List.mem_reverse.1 hc)
  rw [List.append_assoc, trim, hx.trimStart_eq hlead, trimEnd, List.reverse_append,
    List.dropWhile_append_of_pos htrail', hlast, List.reverse_append, List.reverse_singleton,
    List.singleton_append, List.dropWhile_cons_of_neg (by simp [hd]), List.reverse_cons,
    List.reverse_reverse]

/-- A whole text in double braces is a plain tag, if it does not begin like a tag of another form. -/
theorem isTag_plain {content : List Char} (h : Whole content)
    (hfirst : ∃ c more, content = c :: more ∧ c ≠ '!' ∧ c ≠ '\x7b') :
    IsTag ("\x7b\x7b".toList ++ content ++ "\x7d\x7d".toList) .plain content := by
  obtain ⟨c, more, rfl, hnote, hraw⟩ := hfirst
  refine ⟨c :: more ++ "\x7d\x7d".toList, rfl, ?_⟩
  have hcut := cutAt_of_guarded h.guarded h.run ['\x7d'] []
  rw [List.append_nil] at hcut
  exact (cut_plain hnote hraw).2 ⟨rfl, hcut⟩

theorem isTag_raw {content : List Char} (h : Whole content) :
    IsTag ("\x7b\x7b\x7b".toList ++ content ++ "\x7d\x7d\x7d".toList) .raw content := by
  refine ⟨'\x7b' :: (content ++ "\x7d\x7d\x7d".toList), rfl, ?_⟩
  have hcut := cutAt_of_guarded h.guarded h.run ['\x7d', '\x7d'] []
  rw [List.append_nil] at hcut
  exact cut_raw.2 ⟨rfl, hcut⟩

/-- The first character behind blanks or, if there are any, the first blank. -/
theorem exists_first {P : Char → Prop} {front x : List Char} (hfront : ∀ c ∈ front, isBlank c = true)
    (hx : ∃ c more, x = c :: more ∧ P c) (hP : ∀ c, isBlank c = true → P c) :
    ∃ c more, front ++ x = c :: more ∧ P c := by
  cases front with
  | nil => exact hx
  | cons c front => exact ⟨c, front ++ x, rfl, hP c (hfront c (List.mem_cons_self ..))⟩

theorem ne_of_isBlank {c : Char} (h : isBlank c = true) : c ≠ '!' ∧ c ≠ '\x7b' := by
  refine ⟨?_, ?_⟩
  · rintro rfl
    cases h
  · rintro rfl
    cases h

namespace Expressive

variable {x lead trail : List Char} (hx : Expressive x) (hlead : ∀ c ∈ lead, isBlank c = true)
  (htrail : ∀ c ∈ trail, isBlank c = true)

include hx

theorem first : ∃ c more, x = c :: more ∧ c ∉ tagMarks := by
  obtain ⟨c, more, hcons, -⟩ := hx.trimmed.first
  exact ⟨c, more, hcons, hx.unmarked c (by rw [hcons]; rfl)⟩

include hlead htrail

theorem ofContent_plain :
    Tag.ofContent .plain (lead ++ x ++ trail) = Tag.ofExpression x true := by
  obtain ⟨c, more, hcons, hmark⟩ := hx.first
  have hnot : ∀ {mark : Char} {rest : List Char}, mark ∈ tagMarks → x ≠ mark :: rest := by
    rintro mark rest hmem heq
    obtain ⟨rfl, -⟩ := List.cons.inj (hcons.symm.trans heq)
    exact hmark hmem
  have htrim := trim_of_blanks hlead htrail hx.trimmed
  rw [Tag.ofContent_unmarked, htrim]
  all_goals rw [htrim]
  · exact fun _ => hnot (by decide)
  · exact fun _ => hnot (by decide)
  · exact fun _ => hnot (by decide)
  · exact fun _ => hnot (by decide)
  · exact hx.ne_else

/-- The ampersand goes before the words are read, and so do the blanks behind it. -/
theorem ofContent_ampersand {front : List Char} (hfront : ∀ c ∈ front, isBlank c = true) :
    Tag.ofContent .plain (front ++ '&' :: (lead ++ x ++ trail)) = Tag.ofExpression x false := by
  have htrimmed : Word.Trimmed ('&' :: (lead ++ x)) := by
    obtain ⟨before, d, hlast, hd⟩ := hx.trimmed.last
    exact ⟨⟨'&', lead ++ x, rfl, by decide⟩, '&' :: (lead ++ before), d, by rw [hlast]; simp, hd⟩
  have htrim := trim_of_blanks hfront htrail htrimmed
  rw [List.append_assoc, List.cons_append] at htrim
  have hstart := hx.trimmed.trimStart_eq hlead []
  rw [List.append_nil] at hstart
  rw [Tag.ofContent, htrim]
  simp only [hstart]

end Expressive

/-- **In each of its forms an expression is a tag**, and it is read as that expression. -/
theorem WrittenTag.isTag {x text : List Char} {escape : Bool} (h : WrittenTag x escape text)
    (hx : Expressive x) :
    ∃ form content, IsTag text form content ∧
      Tag.ofContent form content = Tag.ofExpression x escape := by
  cases h with
  | @plain lead trail hlead htrail =>
    obtain ⟨c, more, hcons, hmark⟩ := hx.first
    have hc : c ≠ '!' ∧ c ≠ '\x7b' := by
      simp only [tagMarks, List.mem_cons, not_or] at hmark
      exact ⟨hmark.1, hmark.2.1⟩
    refine ⟨.plain, _, isTag_plain (hx.whole.padded hlead htrail) ?_,
      hx.ofContent_plain hlead htrail⟩
    rw [List.append_assoc]
    exact exists_first hlead ⟨c, more ++ trail, by rw [hcons]; rfl, hc⟩ fun _ => ne_of_isBlank
  | @raw lead trail hlead htrail =>
    refine ⟨.raw, _, isTag_raw (hx.whole.padded hlead htrail), ?_⟩
    rw [Tag.ofContent, trim_of_blanks hlead htrail hx.trimmed]
  | @ampersand front lead trail hfront hlead htrail =>
    have hwhole : Whole ['&'] := whole_of_unquoted (Quoting.unquoted_of_all (by decide)) (by decide)
    have hcontent := (whole_of_blanks hfront).append (hwhole.append (hx.whole.padded hlead htrail))
    refine ⟨.plain, _, isTag_plain hcontent ?_, hx.ofContent_ampersand hlead htrail hfront⟩
    exact exists_first hfront ⟨'&', _, rfl, by decide⟩ fun _ => ne_of_isBlank

/-- A text that is a tag of its own is one piece. -/
theorem parse_of_isTag {text : List Char} {form : TagForm} {content : List Char} {t : Tag}
    {nodes : List Node} (h : IsTag text form content) (htag : Tag.ofContent form content = .ok t)
    (hline : t.takesLine = false)
    (htake : Outline.start.takeTag ⟨[], [], text, [], t⟩ = .ok ⟨nodes, []⟩) :
    parse (String.ofList text) = .ok nodes := by
  obtain ⟨inner, rfl, hcut⟩ := h
  have hscan : scan ('\x7b' :: '\x7b' :: inner) =
      ⟨[.tag ⟨[], [], '\x7b' :: '\x7b' :: inner, [], t⟩], none⟩ := by
    have htext := cut_eq hcut
    rw [List.append_nil] at htext
    rw [scan, scanFrom_shared hcut htag (by simp [hline]), scanFrom_nil, ← htext]
    rfl
  rw [parse, String.toList_ofList, hscan, Scanned.nodes]
  simp only [Outline.takeAll, Outline.take, htake, Outline.finish]

/-! ## Calls -/

namespace Word

theorem arguments_positional (ps ps' : List Param) :
    arguments (ps'.map .positional) ps [] = .ok (ps ++ ps', []) := by
  induction ps' generalizing ps with
  | nil => rw [List.map_nil, arguments, List.append_nil]
  | cons p ps' ih =>
    rw [List.map_cons, arguments, if_pos (show List.isEmpty [] = true from rfl), ih,
      List.append_assoc, List.singleton_append]

/-- Arguments under distinct names are written one behind the other. -/
theorem write_of_nodup {ns named : Table Param} (h : (ns ++ named).keys.Nodup) :
    write ns named = ns ++ named := by
  unfold write
  induction named generalizing ns with
  | nil => exact (List.append_nil ns).symm
  | cons e rest ih =>
    have hnew : e.1 ∉ ns.keys := by
      rw [Table.keys, List.map_append] at h
      exact fun hmem => (List.nodup_append.1 h).2.2 _ hmem _ (List.mem_cons_self ..) rfl
    rw [List.foldl_cons, Table.insert_of_new hnew, ih]
    · rw [List.append_assoc, List.singleton_append]
    · rwa [List.append_assoc, List.singleton_append]

end Word

theorem isName_else : IsName "else".toList :=
  ⟨'e', ['l', 's', 'e'], rfl, .inl rfl, fun d hd => .inl (List.all_eq_true.1 (by decide) d hd)⟩

theorem readAll_else :
    Word.readAll "else".toList = .ok [.positional (.path (.named "else" []))] := by
  have hends : Word.EndsWord [] := by simp [Word.EndsWord]
  simpa using Word.readAll_name isName_else (by decide) hends (Word.readAll_row .nil)

/-- Words that begin with a name can be written as a tag, but for `else` alone. -/
theorem IsName.expressive {name x : List Char} {words : List Word} (h : IsName name)
    (hstart : name <+: x) (hreads : Word.readAll x = .ok words)
    (hlast : ∃ front c, x = front ++ [c] ∧ isBlank c = false) (helse : x ≠ "else".toList) :
    Expressive x := by
  obtain ⟨rest, rfl⟩ := hstart
  obtain ⟨c, more, rfl, hc⟩ := (Word.Trimmed.of_word h.ne_nil h.isWordChar).first
  refine ⟨Word.whole_of_readAll hreads, ⟨⟨c, more ++ rest, rfl, hc⟩, hlast⟩, ?_, helse⟩
  intro d hd
  cases hd
  exact notMem_tagMarks_of_isWordChar (h.isWordChar c (List.mem_cons_self ..))

/-- How a call is written: the name of a helper, and behind a blank words that are its arguments. -/
structure CallText (name : String) (params : List Param) (named : Table Param) (x : List Char) :
    Prop where
  isName : IsName name.toList
  unreserved : name ∉ ["this", "true", "false", "null", "undefined"]
  spelled : ∃ row words, x = name.toList ++ row ∧ Word.EndsWord row ∧
    Word.readAll row = .ok words ∧ words ≠ [] ∧ Word.arguments words [] [] = .ok (params, named)
  last : ∃ front c, x = front ++ [c] ∧ isBlank c = false

namespace CallText

variable {name : String} {params : List Param} {named : Table Param} {x : List Char}

theorem expressive (h : CallText name params named x) : Expressive x := by
  obtain ⟨row, words, rfl, hends, hreads, hwords, -⟩ := h.spelled
  have hall := Word.readAll_name h.isName h.unreserved hends hreads
  refine h.isName.expressive (List.prefix_append ..) hall h.last fun helse => ?_
  rw [helse, readAll_else] at hall
  exact hwords (List.cons.inj (Except.ok.inj hall)).2.symm

/-- The text of a call is read as a call of the helper with these arguments. -/
theorem ofExpression_eq (h : CallText name params named x) (escape : Bool) :
    Tag.ofExpression x escape = .ok (.call name params named escape) := by
  obtain ⟨row, words, rfl, hends, hreads, hwords, harguments⟩ := h.spelled
  exact Tag.ofExpression_call (Word.readAll_name h.isName h.unreserved hends hreads) hwords harguments

/-- **The text of a call is parsed as that call**, in each form of a tag. -/
theorem parse_eq (h : CallText name params named x) {escape : Bool} {text : List Char}
    (htext : WrittenTag x escape text) :
    parse (String.ofList text) = .ok [.call name params named escape] := by
  obtain ⟨form, content, hisTag, htag⟩ := htext.isTag h.expressive
  exact parse_of_isTag hisTag (htag.trans (h.ofExpression_eq escape)) rfl rfl

end CallText

/-- How a call is written with literals for arguments: the name of a helper, then the arguments,
those under a name last, each behind blanks. -/
structure WrittenCall (name : String) (params : List Literal) (named : List (String × Literal))
    (x : List Char) : Prop where
  isName : IsName name.toList
  unreserved : name ∉ ["this", "true", "false", "null", "undefined"]
  distinct : (named.map Prod.fst).Nodup
  someArgument : params ≠ [] ∨ named ≠ []
  spelled : ∃ row, x = name.toList ++ row ∧
    Word.RowWritten (params.map (fun l => .positional (.literal l)) ++
      named.map fun e => .named e.1 (.literal e.2)) row

namespace WrittenCall

variable {name : String} {params : List Literal} {named : List (String × Literal)} {x : List Char}

/-- Literals in a row, and named ones behind them, are the arguments of a call as they are. -/
theorem arguments_eq (h : (named.map Prod.fst).Nodup) :
    Word.arguments (params.map (fun l => .positional (.literal l)) ++
        named.map fun e => .named e.1 (.literal e.2)) [] [] =
      .ok (params.map .literal, named.map fun e => (e.1, .literal e.2)) := by
  have hpositional := Word.arguments_positional [] (params.map .literal)
  have hnamed :=
    Word.arguments_named (named.map fun e => (e.1, .literal e.2)) (params.map .literal) []
  have hkeys : Table.keys ([] ++ named.map fun e => (e.1, Param.literal e.2)) =
      named.map Prod.fst := by
    rw [List.nil_append, Table.keys, List.map_map]
    rfl
  rw [Word.write_of_nodup (by rwa [hkeys]), List.map_map] at hnamed
  rw [List.map_map] at hpositional
  rw [Word.arguments_append]
  exact (congrArg (Except.bind · _) hpositional).trans hnamed

theorem callText (h : WrittenCall name params named x) :
    CallText name (params.map .literal) (named.map fun e => (e.1, .literal e.2)) x := by
  obtain ⟨row, rfl, hrow⟩ := h.spelled
  have hwords : params.map (fun l => Word.positional (.literal l)) ++
      named.map (fun e => Word.named e.1 (.literal e.2)) ≠ [] := by
    simpa [← not_and_or] using h.someArgument
  obtain ⟨front, d, hlast, hd⟩ := hrow.last hwords
  exact
    { isName := h.isName
      unreserved := h.unreserved
      spelled :=
        ⟨row, _, rfl, hrow.endsWord, Word.readAll_row hrow, hwords, arguments_eq h.distinct⟩
      last := ⟨name.toList ++ front, d, by rw [hlast, List.append_assoc], hd⟩ }

/-- **A written call is parsed as that call.** -/
theorem parse_eq (h : WrittenCall name params named x) {escape : Bool} {text : List Char}
    (htext : WrittenTag x escape text) :
    parse (String.ofList text) = .ok [.call name (params.map .literal)
      (named.map fun e => (e.1, .literal e.2)) escape] :=
  h.callText.parse_eq htext

/-- A text in single quotes behind a name. -/
theorem of_text (hname : IsName name.toList)
    (hreserved : name ∉ ["this", "true", "false", "null", "undefined"]) (s : List Char) :
    WrittenCall name [.text (String.ofList s)] []
      (name.toList ++ ' ' :: '\x27' :: (escapeQuoted '\x27' s ++ ['\x27'])) := by
  have hblank : ∀ c ∈ [' '], isBlank c = true := List.forall_mem_singleton.2 (by decide)
  have hrow := Word.RowWritten.cons (List.cons_ne_nil ' ' []) hblank
    (.positional (.text (show Word.isQuote '\x27' = true by decide) s)) .nil
  rw [List.append_nil] at hrow
  exact ⟨hname, hreserved, .nil, .inl (List.cons_ne_nil _ _), _, rfl, hrow⟩

end WrittenCall

/-! ## Literals on their own -/

namespace Literal.Written

variable {l : Literal} {cs : List Char}

theorem expressive (h : l.Written cs) : Expressive cs := by
  have hword := Word.Written.positional h
  refine ⟨Word.whole_of_readAll (Word.readAll_written hword), hword.trimmed, ?_, ?_⟩
  · rcases h.cases_on with ⟨quote, s, hquote, -, rfl⟩ | ⟨-, hcs, -⟩
    · intro d hd
      cases hd
      rcases Word.isQuote_iff.1 hquote with rfl | rfl <;> decide
    · exact fun d hd => notMem_tagMarks_of_isWordChar (hcs d (List.mem_of_head? hd))
  · rintro rfl
    have hreads := Word.readAll_written hword
    rw [readAll_else] at hreads
    cases hreads

/-- **A written literal is parsed as its text.** -/
theorem parse_eq (h : l.Written cs) {escape : Bool} {text : List Char}
    (htext : WrittenTag cs escape text) :
    parse (String.ofList text) = .ok [.text (Outline.literalText l escape)] := by
  obtain ⟨form, content, hisTag, htag⟩ := htext.isTag h.expressive
  have hexpression : Tag.ofExpression cs escape = .ok (.literal l escape) := by
    rw [Tag.ofExpression, Word.readAll_written (.positional h)]
  exact parse_of_isTag hisTag (htag.trans hexpression) rfl rfl

end Literal.Written

/-! ## Rendering -/

/-- What a script comes to in a tag without a body: a body that it has rendered is empty. -/
def Script.alone : Script → Except Fault Value
  | .done result => result
  | .body _ resume | .inverse resume => (resume (.ok "")).alone

theorem Script.run_alone (script : Script) (p : Progress) :
    script.run (fun _ => Step.pure "") (Step.pure "") p = some (script.alone, p) := by
  induction script with
  | done result => rfl
  | body subject resume ih => exact ih (.ok "")
  | inverse resume ih => exact ih (.ok "")

/-- A literal is its own value, also where null counts as no value. -/
theorem Scopes.evalOrNull_literal (scopes : Scopes) (chain : Chain) (l : Literal) :
    scopes.evalOrNull chain (.literal l) = l.value := by
  rw [Scopes.evalOrNull, Scopes.eval]
  cases l <;> rfl

/-- A value of a literal prints as the literal stands for itself. -/
theorem emit_literal (l : Literal) (escape : Bool) :
    emit l.value escape = Outline.literalText l escape := by
  cases l with
  | null => cases escape <;> rfl
  | _ => rfl

section

variable (setting : Setting) (scopes : Scopes) (shelf : Shelf)

theorem render_one {n : Node} {r : Except Fault String}
    (h : ∀ expand p, renderNode setting expand n scopes p = some (r, p)) :
    setting.render [n] scopes shelf = some (r, shelf) := by
  have hnodes : setting.expand expansionBudget [n] scopes (.start shelf) =
      some (r, .start shelf) := by
    change renderNodes setting (setting.expand 9999) [n] scopes (.start shelf) = _
    rw [renderNodes, Step.bind, h]
    cases r with
    | error e => rfl
    | ok s => simp only [renderNodes, Step.bind, Step.pure, String.append_empty]
  rw [render_eq, hnodes]
  rfl

/-- A call that stands alone shows what its helper comes to. -/
theorem render_call {name : String} {helper : Helper}
    (hhelper : setting.helpers.get? name = some helper) (params : List Param) (named : Table Param)
    (escape : Bool) :
    setting.render [.call name params named escape] scopes shelf =
      some ((helper (setting.call scopes name params named false)).alone.map (emit · escape),
        shelf) := by
  refine render_one setting scopes shelf fun expand p => ?_
  rw [renderNode, Step.bind, Setting.runHelper, hhelper]
  simp only [Script.run_alone]
  cases (helper (setting.call scopes name params named false)).alone with
  | error e => rfl
  | ok v => rfl

/-- A helper that answers its argument prints a literal as the literal stands for itself. -/
theorem render_identity {name : String} {helper : Helper}
    (hhelper : setting.helpers.get? name = some helper)
    (hidentity : ∀ c v, c.params = [v] → helper c = .answer v) (l : Literal) (escape : Bool) :
    setting.render [.call name [.literal l] [] escape] scopes shelf =
      some (.ok (Outline.literalText l escape), shelf) := by
  have hcall := hidentity (setting.call scopes name [.literal l] [] false) _ rfl
  rw [Scopes.evalOrNull_literal] at hcall
  rw [render_call setting scopes shelf hhelper, hcall, Script.answer, Script.alone, Except.map,
    emit_literal]

end

/-- **Literals come back from the syntax of tags.** A call that is written with literals for
arguments, in any of the forms of an expression, is parsed as the one call of that helper with those
arguments in order and under those names, to be escaped if the form says so. And a literal that
stands alone in a tag renders, in each form, the same text as the call of a helper that answers its
argument. -/
theorem literals_come_back :
    (∀ {name : String} {params : List Literal} {named : List (String × Literal)} {x text : List Char}
        {escape : Bool}, WrittenCall name params named x → WrittenTag x escape text →
      parse (String.ofList text) = .ok [.call name (params.map .literal)
        (named.map fun e => (e.1, .literal e.2)) escape]) ∧
    ∀ {name : String} {l : Literal} {cs x text text' : List Char} {escape : Bool},
      l.Written cs → WrittenTag cs escape text →
      WrittenCall name [l] [] x → WrittenTag x escape text' →
      ∃ nodes nodes', parse (String.ofList text) = .ok nodes ∧
        parse (String.ofList text') = .ok nodes' ∧
        ∀ (setting : Setting) (helper : Helper), setting.helpers.get? name = some helper →
          (∀ c v, c.params = [v] → helper c = .answer v) → ∀ scopes shelf, ∃ s,
            setting.render nodes scopes shelf = some (.ok s, shelf) ∧
              setting.render nodes' scopes shelf = some (.ok s, shelf) := by
  refine ⟨fun hcall htext => hcall.parse_eq htext, fun hl htext hcall htext' => ?_⟩
  refine ⟨_, _, hl.parse_eq htext, hcall.parse_eq htext', fun setting helper hhelper hidentity => ?_⟩
  intro scopes shelf
  refine ⟨_, ?_, render_identity setting scopes shelf hhelper hidentity _ _⟩
  exact render_one setting scopes shelf fun expand p => by rw [renderNode, Step.pure]

/-- A text with braces and an escaped quote, a number and a named literal; and a text alone. -/
theorem literals_come_back_of_braces :
    parse "\x7b\x7b& up '\x7d\x7d\\'' -5 key=null\x7d\x7d" =
      .ok [.call "up" [.literal (.text "\x7d\x7d'"), .literal (.int (-5))]
        [("key", .literal .null)] false] ∧
    ∃ nodes nodes', parse "\x7b\x7b'<'\x7d\x7d" = .ok nodes ∧
      parse "\x7b\x7bid '<'\x7d\x7d" = .ok nodes' ∧
      ∀ (setting : Setting) (helper : Helper), setting.helpers.get? "id" = some helper →
        (∀ c v, c.params = [v] → helper c = .answer v) → ∀ scopes shelf, ∃ s,
          setting.render nodes scopes shelf = some (.ok s, shelf) ∧
            setting.render nodes' scopes shelf = some (.ok s, shelf) := by
  have hblank : ∀ c ∈ [' '], isBlank c = true := List.forall_mem_singleton.2 (by decide)
  have hnone : ∀ c ∈ ([] : List Char), isBlank c = true := List.forall_mem_nil _
  have hname : ∀ {c : Char} {rest : List Char}, c.isAlpha = true → rest.all Char.isAlphanum = true →
      IsName (c :: rest) := fun hc hrest =>
    ⟨_, _, rfl, .inl hc, fun d hd => .inl (List.all_eq_true.1 hrest d hd)⟩
  have htext : (Literal.text "\x7d\x7d'").Written "'\x7d\x7d\\''".toList :=
    .text (by decide) ['\x7d', '\x7d', '\x27']
  have hnumber : (Literal.int (-5)).Written "-5".toList :=
    .negative (by decide) (List.all_eq_true.1 (by decide)) (by decide)
  have hkey : Word.Written (.named "key" (.literal .null)) "key=null".toList :=
    .named (hname (by decide) (by decide)) .null
  have hup : WrittenCall "up" [.text "\x7d\x7d'", .int (-5)] [("key", .null)]
      "up '\x7d\x7d\\'' -5 key=null".toList := by
    refine ⟨hname (by decide) (by decide), by decide, by simp, .inl (by simp), _, rfl, ?_⟩
    exact .cons (List.cons_ne_nil ' ' []) hblank (.positional htext)
      (.cons (List.cons_ne_nil ' ' []) hblank (.positional hnumber)
        (.cons (List.cons_ne_nil ' ' []) hblank hkey .nil))
  have hless : (Literal.text "<").Written "'<'".toList := .text (by decide) ['<']
  have hid : WrittenCall "id" [.text "<"] [] "id '<'".toList := by
    refine ⟨hname (by decide) (by decide), by decide, by simp, .inl (by simp), _, rfl, ?_⟩
    exact .cons (List.cons_ne_nil ' ' []) hblank (.positional hless) .nil
  exact ⟨literals_come_back.1 hup (.ampersand hnone hblank hnone),
    literals_come_back.2 hless (.plain hnone hnone) hid (.plain hnone hnone)⟩

end Stencil
