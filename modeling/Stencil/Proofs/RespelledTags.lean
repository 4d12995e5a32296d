import Stencil.Proofs.MovedTags
import Stencil.Proofs.Rearranged
import Mathlib

/-!
# Tags with their named arguments in another order

A tag may give its named arguments in any order. Two texts of one tag (`Respelling`) read as the
same words, but for the order of the named arguments at the end; only where a name is there twice
the order of its arguments matters. A text may be respelled tag by tag (`Respelled`) while
everything between the tags stays as it is. Then

> `Word.Reordered.arguments`: the words give the same positional and the same named arguments;
> `PlacedTag.Fits.respell`: both are the same tag, up to the order of its named arguments;
> `Laid.respell`: the two texts are laid out in the same pieces, up to these tags;
> `parse_respelled`: so the second text can be read if the first one can, and the nodes are alike.
-/

namespace Stencil

open Text

/-- The same arguments under the same names, in whatever order. -/
abbrev SameNamed : Table Param → Table Param → Prop := Table.Rearranged Eq

/-! ## Words -/

namespace Word

/-- A named argument as a word. -/
def ofNamed (e : String × Param) : Word := .named e.1 e.2

/-- The named arguments under one name, in their order. -/
def under (key : String) (named : List (String × Param)) : List (String × Param) :=
  named.filter fun e => e.1 = key

/-- The same words, but for the order of the named arguments at the end: under each name they are
in the same order, and where each name is there once, they are in any order. -/
inductive Reordered : List Word → List Word → Prop where
  | intro (front : List Word) {named named' : List (String × Param)}
      (h : ∀ key, under key named = under key named') :
      Reordered (front ++ named.map ofNamed) (front ++ named'.map ofNamed)

/-- Arguments under distinct names may be in any order. -/
theorem Reordered.of_perm (front : List Word) {named named' : List (String × Param)}
    (hkeys : (named.map Prod.fst).Nodup) (hperm : named.Perm named') :
    Reordered (front ++ named.map ofNamed) (front ++ named'.map ofNamed) := by
  have hkeys' : (named'.map Prod.fst).Nodup := (hperm.map Prod.fst).nodup hkeys
  refine .intro front fun key => ?_
  have hdistinct : ∀ {l : List (String × Param)}, (l.map Prod.fst).Nodup →
      (under key l).Pairwise fun e f => e.1 ≠ f.1 :=
    fun h => (List.pairwise_map.1 h).filter _
  have hkey : ∀ {l : List (String × Param)}, ∀ e ∈ under key l, e.1 = key :=
    fun e he => of_decide_eq_true (List.mem_filter.1 he).2
  refine (hperm.filter _).eq_of_pairwise ?_ (hdistinct hkeys) (hdistinct hkeys')
  intro e f he hf hne _
  exact absurd ((hkey e he).trans (hkey f hf).symm) hne

theorem Reordered.refl (words : List Word) : Reordered words words := by
  have h := Reordered.intro words fun key => Eq.refl (under key [])
  rwa [List.map_nil, List.append_nil] at h

theorem eq_nil_of_under {named : List (String × Param)} (h : ∀ key, under key named = []) :
    named = [] := by
  cases named with
  | nil => rfl
  | cons e rest =>
    have hmem : e ∈ under e.1 (e :: rest) :=
      List.mem_filter.2 ⟨List.mem_cons_self .., decide_eq_true rfl⟩
    rw [h e.1] at hmem
    cases hmem

theorem Reordered.eq_nil_iff {words words' : List Word} (h : Reordered words words') :
    words = [] ↔ words' = [] := by
  obtain ⟨front, h⟩ := h
  rw [List.append_eq_nil_iff, List.append_eq_nil_iff, List.map_eq_nil_iff, List.map_eq_nil_iff]
  refine and_congr_right fun _ => ⟨?_, ?_⟩
  · rintro rfl
    exact eq_nil_of_under fun key => (h key).symm
  · rintro rfl
    exact eq_nil_of_under h

theorem Reordered.nil {words : List Word} (h : Reordered [] words) : words = [] :=
  h.eq_nil_iff.1 rfl

/-- What is not a named argument stays where it is. -/
theorem Reordered.positional {p : Param} {rest words : List Word}
    (h : Reordered (.positional p :: rest) words) :
    ∃ rest', words = .positional p :: rest' ∧ Reordered rest rest' := by
  generalize hfirst : Word.positional p :: rest = whole at h
  obtain @⟨front, named, named', h⟩ := h
  cases front with
  | nil =>
    cases named with
    | nil => cases hfirst
    | cons e named => cases hfirst
  | cons w front =>
    obtain ⟨rfl, rfl⟩ := List.cons.inj hfirst
    exact ⟨_, rfl, .intro front h⟩

/-- Words that are not named stay as they are. -/
theorem Reordered.of_positional {ps : List Param} {words : List Word}
    (h : Reordered (ps.map .positional) words) : words = ps.map .positional := by
  induction ps generalizing words with
  | nil => exact h.nil
  | cons p ps ih =>
    obtain ⟨rest', rfl, hrest⟩ := h.positional
    rw [ih hrest]
    rfl

theorem eq_of_identifier? {w : Word} {name : String} (h : w.identifier? = some name) :
    w = .positional (.path (.named name [])) := by
  unfold identifier? at h
  split at h
  next =>
    cases h
    rfl
  next => cases h

/-- Writes a row of named arguments. -/
def write (ns : Table Param) (named : List (String × Param)) : Table Param :=
  named.foldl (fun t e => t.insert e.1 e.2) ns

theorem arguments_named (named : List (String × Param)) (ps : List Param) (ns : Table Param) :
    arguments (named.map ofNamed) ps ns = .ok (ps, write ns named) := by
  induction named generalizing ns with
  | nil => rfl
  | cons e rest ih =>
    rw [List.map_cons, ofNamed, arguments, ih]
    rfl

theorem arguments_append (front rest : List Word) (ps : List Param) (ns : Table Param) :
    arguments (front ++ rest) ps ns =
      (arguments front ps ns).bind fun r => arguments rest r.1 r.2 := by
  induction front generalizing ps ns with
  | nil => rfl
  | cons w front ih =>
    cases w with
    | positional p =>
      rw [List.cons_append, arguments, arguments]
      split
      next => exact ih _ _
      next => rfl
    | named key p =>
      rw [List.cons_append, arguments, arguments]
      exact ih _ _

theorem nodup_keys_write {ns : Table Param} (h : ns.keys.Nodup) (named : List (String × Param)) :
    (write ns named).keys.Nodup := by
  unfold write
  induction named generalizing ns with
  | nil => exact h
  | cons e rest ih => exact ih (Table.nodup_keys_insert h e.1 e.2)

/-- No name is there twice among the arguments of a tag. -/
theorem nodup_keys_arguments {words : List Word} {ps params : List Param} {ns named : Table Param}
    (h : arguments words ps ns = .ok (params, named)) (hns : ns.keys.Nodup) :
    named.keys.Nodup := by
  induction words generalizing ps ns with
  | nil =>
    cases h
    exact hns
  | cons w rest ih =>
    cases w with
    | positional p =>
      rw [arguments] at h
      split at h
      next => exact ih h hns
      next => cases h
    | named key p =>
      rw [arguments] at h
      exact ih h (Table.nodup_keys_insert hns key p)

/-- Under each name the last argument counts. -/
theorem get?_write (ns : Table Param) (named : List (String × Param)) (key : String) :
    (write ns named).get? key =
      ((under key named).getLast?.map Prod.snd).or (ns.get? key) := by
  unfold write
  induction named generalizing ns with
  | nil => rfl
  | cons e rest ih =>
    rw [List.foldl_cons, ih, Table.get?_insert]
    by_cases hkey : e.1 = key
    · have hunder : under key (e :: rest) = e :: under key rest :=
        List.filter_cons_of_pos (decide_eq_true hkey)
      rw [if_pos hkey, hunder, List.getLast?_cons]
      cases (under key rest).getLast? <;> rfl
    · have hunder : under key (e :: rest) = under key rest :=
        List.filter_cons_of_neg (by simpa using hkey)
      rw [if_neg hkey, hunder]

/-- What is written does not depend on the order of different names. -/
theorem write_reordered {ns : Table Param} (hns : ns.keys.Nodup)
    {named named' : List (String × Param)} (h : ∀ key, under key named = under key named') :
    SameNamed (write ns named) (write ns named') := by
  refine ⟨nodup_keys_write hns named, nodup_keys_write hns named', fun key => ?_⟩
  rw [get?_write, get?_write, h key]
  cases ((under key named').getLast?.map Prod.snd).or (ns.get? key) with
  | none => exact .none
  | some p => exact .some rfl

/-- Reordered words give the same arguments. -/
theorem Reordered.arguments {words words' : List Word} (hwords : Reordered words words')
    {params : List Param} {ns : Table Param}
    (h : Word.arguments words [] [] = .ok (params, ns)) :
    ∃ ns', Word.arguments words' [] [] = .ok (params, ns') ∧ SameNamed ns ns' := by
  obtain ⟨front, hnamed⟩ := hwords
  rw [arguments_append] at h ⊢
  cases hfront : Word.arguments front [] [] with
  | error e =>
    rw [hfront] at h
    cases h
  | ok r =>
    obtain ⟨ps, ns₀⟩ := r
    rw [hfront] at h
    have hns₀ := nodup_keys_arguments hfront List.nodup_nil
    simp only [Except.bind, arguments_named] at h ⊢
    cases h
    exact ⟨_, rfl, write_reordered hns₀ hnamed⟩

end Word

/-! ## Tags as words -/

/-- What a name and arguments open does not depend on the order of the named ones. -/
theorem opening_like {name : String} {params : List Param} {named named' : Table Param}
    {o : Opening} (hnamed : SameNamed named named') (h : Tag.opening name params named = .ok o) :
    ∃ o', Tag.opening name params named' = .ok o' ∧ o.Like SameNamed o' := by
  -- Blocks of the language only ask whether there are named arguments at all.
  have hempty : named.isEmpty = named'.isEmpty :=
    Value.isEmpty_of_isSome fun key => isSome_eq_of_rel (hnamed.get? key)
  unfold Tag.opening at h ⊢
  rw [← hempty]
  split at h
  next k hk =>
    split at h
    next => cases h
    next hnone =>
      split at h
      next p =>
        cases h
        simp only [hnone]
        exact ⟨_, rfl, .keyword k p⟩
      next => cases h
  next hk =>
    split at h
    next hregion =>
      split at h
      next => cases h
      next hnone =>
        split at h
        next region hname =>
          cases h
          simp only [hregion, hnone, if_true]
          refine ⟨_, rfl, ?_⟩
          split
          next => exact .region region
          next => exact .override region
        next => cases h
    next hregion =>
      cases h
      simp only [hregion, if_false]
      exact ⟨_, rfl, .helper name params hnamed⟩

namespace Tag

/-- The kinds of tags that are made of words. -/
inductive Kind where
  | expression (escape : Bool)
  | opener
  | inclusion

/-- What a tag made of words is, and the text of its words. -/
def words? (form : TagForm) (content : List Char) : Option (Kind × List Char) :=
  match form with
  | .note | .longNote => none
  | .raw => some (.expression false, trim content)
  | .plain =>
    match trim content with
    | '#' :: rest => some (.opener, trimStart rest)
    | '/' :: _ => none
    | '>' :: rest => some (.inclusion, trimStart rest)
    | '&' :: rest => some (.expression false, trimStart rest)
    | ['e', 'l', 's', 'e'] => none
    | content => some (.expression true, content)

/-- The tag of a kind that has a text of words. -/
def ofKind : Kind → List Char → Except SyntaxCause Tag
  | .expression escape, x => ofExpression x escape
  | .opener, x => ofOpener x
  | .inclusion, x => ofInclude x

/-- A plain tag without a mark in front that is no `else` is an expression. -/
theorem ofContent_unmarked {content : List Char} (hopener : ∀ rest, trim content ≠ '#' :: rest)
    (hcloser : ∀ rest, trim content ≠ '/' :: rest)
    (hinclusion : ∀ rest, trim content ≠ '>' :: rest)
    (hraw : ∀ rest, trim content ≠ '&' :: rest) (helse : trim content ≠ ['e', 'l', 's', 'e']) :
    ofContent .plain content = ofExpression (trim content) true := by
  rw [ofContent]
  split
  next rest heq => exact absurd heq (hopener rest)
  next rest heq => exact absurd heq (hcloser rest)
  next rest heq => exact absurd heq (hinclusion rest)
  next rest heq => exact absurd heq (hraw rest)
  next heq => exact absurd heq helse
  next => rfl

theorem ofContent_eq_ofKind {form : TagForm} {content x : List Char} {kind : Kind}
    (h : words? form content = some (kind, x)) : ofContent form content = ofKind kind x := by
  unfold words? at h
  cases form with
  | note | longNote => cases h
  | raw =>
    cases h
    rfl
  | plain =>
    dsimp only at h
    split at h
    next rest heq =>
      cases h
      simp only [ofContent, heq, ofKind]
    next => cases h
    next rest heq =>
      cases h
      simp only [ofContent, heq, ofKind]
    next rest heq =>
      cases h
      simp only [ofContent, heq, ofKind]
    next => cases h
    next hopener hcloser hinclusion hraw helse =>
      cases h
      exact ofContent_unmarked hopener hcloser hinclusion hraw helse

/-- A tag that is not made of words is a comment, a closer or an `else`. -/
theorem ofContent_wordless {form : TagForm} {content : List Char}
    (h : words? form content = none) :
    ((form = .note ∨ form = .longNote) ∧ ofContent form content = .ok comment) ∨
      form = .plain ∧ ((∃ rest, trim content = '/' :: rest ∧
          ofContent form content = .ok (closer (String.ofList (trim rest)))) ∨
        trim content = ['e', 'l', 's', 'e'] ∧ ofContent form content = .ok otherwise) := by
  cases form with
  | note => exact .inl ⟨.inl rfl, rfl⟩
  | longNote => exact .inl ⟨.inr rfl, rfl⟩
  | raw => cases h
  | plain =>
    refine .inr ⟨rfl, ?_⟩
    unfold words? at h
    unfold ofContent
    generalize trim content = inner at h
    dsimp only at h
    split at h
    next => cases h
    next rest => exact .inl ⟨rest, rfl, rfl⟩
    next => cases h
    next => cases h
    next => exact .inr ⟨rfl, rfl⟩
    next => cases h

theorem ofKind_of_error {x : List Char} {e : SyntaxCause} (h : Word.readAll x = .error e)
    (kind : Kind) : ofKind kind x = .error e := by
  cases kind with
  | expression escape => rw [ofKind, ofExpression, h]
  | opener => rw [ofKind, ofOpener, h]
  | inclusion => rw [ofKind, ofInclude, h]

section

variable {x x' : List Char} {words words' : List Word} {t : Tag}

/-- An expression that can be read is a path, a literal, or a name with arguments. -/
theorem ofExpression_eq_ok {escape : Bool} (hreads : Word.readAll x = .ok words)
    (h : ofExpression x escape = .ok t) :
    (∃ p, words = [.positional (.path p)] ∧ t = lookup p escape) ∨
      (∃ l, words = [.positional (.literal l)] ∧ t = literal l escape) ∨
      ∃ name rest params named, words = .positional (.path (.named name [])) :: rest ∧
        rest ≠ [] ∧ Word.arguments rest [] [] = .ok (params, named) ∧
        t = call name params named escape := by
  unfold ofExpression at h
  rw [hreads] at h
  split at h
  next heq => cases heq
  next heq => cases h
  next p heq =>
    cases heq
    cases h
    exact .inl ⟨p, rfl, rfl⟩
  next l heq =>
    cases heq
    cases h
    exact .inr (.inl ⟨l, rfl, rfl⟩)
  next heq => cases h
  next first rest hpath hliteral hnamed heq =>
    cases heq
    split at h
    next => cases h
    next name hname =>
      obtain rfl := Word.eq_of_identifier? hname
      cases harguments : Word.arguments rest [] [] with
      | error e =>
        rw [harguments] at h
        cases h
      | ok r =>
        rw [harguments] at h
        cases h
        refine .inr (.inr ⟨name, rest, r.1, r.2, rfl, ?_, harguments, rfl⟩)
        rintro rfl
        exact hpath _ rfl rfl

theorem ofExpression_call {escape : Bool} {name : String} {rest : List Word}
    {params : List Param} {named : Table Param}
    (hreads : Word.readAll x = .ok (.positional (.path (.named name [])) :: rest))
    (hrest : rest ≠ []) (harguments : Word.arguments rest [] [] = .ok (params, named)) :
    ofExpression x escape = .ok (call name params named escape) := by
  obtain ⟨w, rest, rfl⟩ := List.exists_cons_of_ne_nil hrest
  unfold ofExpression
  rw [hreads]
  simp only [Word.identifier?, harguments, Except.map]

theorem ofOpener_eq_ok (hreads : Word.readAll x = .ok words) (h : ofOpener x = .ok t) :
    ∃ name rest params named o, words = .positional (.path (.named name [])) :: rest ∧
      Word.arguments rest [] [] = .ok (params, named) ∧ opening name params named = .ok o ∧
      t = opener o := by
  unfold ofOpener at h
  rw [hreads] at h
  split at h
  next heq => cases heq
  next => cases h
  next first rest heq =>
    cases heq
    split at h
    next => cases h
    next name hname =>
      obtain rfl := Word.eq_of_identifier? hname
      split at h
      next => cases h
      next params named harguments =>
        cases hopening : opening name params named with
        | error e =>
          rw [hopening] at h
          cases h
        | ok o =>
          rw [hopening] at h
          cases h
          exact ⟨name, rest, params, named, o, rfl, harguments, hopening, rfl⟩

theorem ofOpener_call {name : String} {rest : List Word} {params : List Param}
    {named : Table Param} {o : Opening}
    (hreads : Word.readAll x = .ok (.positional (.path (.named name [])) :: rest))
    (harguments : Word.arguments rest [] [] = .ok (params, named))
    (hopening : opening name params named = .ok o) : ofOpener x = .ok (opener o) := by
  unfold ofOpener
  rw [hreads]
  simp only [Word.identifier?, harguments, hopening, Except.map]

/-- An include that can be read has no named arguments. -/
theorem ofInclude_eq_ok (hreads : Word.readAll x = .ok words) (h : ofInclude x = .ok t) :
    (∃ name context, t = inclusion name context) ∧
      ∃ ps : List Param, words = ps.map .positional := by
  unfold ofInclude at h
  rw [hreads] at h
  dsimp only at h
  split at h
  next => cases h
  next first rest =>
    cases first with
    | named key p => cases h
    | positional p =>
      split at h
      next => cases h
      next name hname =>
        cases h
        exact ⟨⟨_, _, rfl⟩, [p], rfl⟩
      next name q hname =>
        cases h
        exact ⟨⟨_, _, rfl⟩, [p, q], rfl⟩
      next => cases h
      next => cases h

/-- **Reordered words make the same tag**, up to the order of its named arguments. -/
theorem ofKind_like {kind : Kind} (hreads : Word.readAll x = .ok words)
    (hreads' : Word.readAll x' = .ok words') (hwords : Word.Reordered words words')
    (h : ofKind kind x = .ok t) : ∃ t', ofKind kind x' = .ok t' ∧ t.Like SameNamed t' := by
  cases kind with
  | expression escape =>
    rcases ofExpression_eq_ok hreads h with ⟨p, rfl, rfl⟩ | ⟨l, rfl, rfl⟩ |
      ⟨name, rest, params, named, rfl, hrest, harguments, rfl⟩
    · obtain ⟨rest', rfl, hrest⟩ := hwords.positional
      obtain rfl := hrest.nil
      refine ⟨_, ?_, .lookup p escape⟩
      rw [ofKind, ofExpression, hreads']
    · obtain ⟨rest', rfl, hrest⟩ := hwords.positional
      obtain rfl := hrest.nil
      refine ⟨_, ?_, .literal l escape⟩
      rw [ofKind, ofExpression, hreads']
    · obtain ⟨rest', rfl, hreordered⟩ := hwords.positional
      obtain ⟨named', harguments', hnamed⟩ := hreordered.arguments harguments
      have hrest' := fun hnil => hrest (hreordered.eq_nil_iff.2 hnil)
      exact ⟨_, ofExpression_call hreads' hrest' harguments', .call name params escape hnamed⟩
  | opener =>
    obtain ⟨name, rest, params, named, o, rfl, harguments, hopening, rfl⟩ :=
      ofOpener_eq_ok hreads h
    obtain ⟨rest', rfl, hreordered⟩ := hwords.positional
    obtain ⟨named', harguments', hnamed⟩ := hreordered.arguments harguments
    obtain ⟨o', hopening', hlike⟩ := opening_like hnamed hopening
    exact ⟨_, ofOpener_call hreads' harguments' hopening', .opener hlike⟩
  | inclusion =>
    -- Nothing can be reordered here.
    obtain ⟨⟨name, context, rfl⟩, ps, rfl⟩ := ofInclude_eq_ok hreads h
    obtain rfl := hwords.of_positional
    refine ⟨_, ?_, .inclusion name context⟩
    rw [ofKind, ofInclude, hreads']
    rw [ofKind, ofInclude, hreads] at h
    exact h

end

/-- A tag is like itself: no name is there twice among its arguments. -/
theorem like_self {form : TagForm} {content : List Char} {t : Tag}
    (h : ofContent form content = .ok t) : t.Like SameNamed t := by
  cases hwords : words? form content with
  | some made =>
    obtain ⟨kind, x⟩ := made
    rw [ofContent_eq_ofKind hwords] at h
    cases hreads : Word.readAll x with
    | error e =>
      rw [ofKind_of_error hreads] at h
      cases h
    | ok words =>
      obtain ⟨t', ht', hlike⟩ := ofKind_like hreads hreads (.refl words) h
      rw [h] at ht'
      cases ht'
      exact hlike
  | none =>
    rcases ofContent_wordless hwords with ⟨-, hcomment⟩ | ⟨-, ⟨rest, -, hcloser⟩ | ⟨-, helse⟩⟩
    · cases hcomment.symm.trans h
      exact .comment
    · cases hcloser.symm.trans h
      exact .closer _
    · cases helse.symm.trans h
      exact .otherwise

end Tag

/-! ## Texts of tags -/

/-- The text is that of a tag: the tag is cut out of it, and nothing is left. -/
def IsTag (text : List Char) (form : TagForm) (content : List Char) : Prop :=
  ∃ inner, text = '\x7b' :: '\x7b' :: inner ∧ cut inner = .ok ⟨form, content, []⟩

/-- The text is that of a tag of a kind that is made of these words. -/
def IsTagOf (text : List Char) (kind : Tag.Kind) (words : List Word) : Prop :=
  ∃ form content x, IsTag text form content ∧ Tag.words? form content = some (kind, x) ∧
    Word.readAll x = .ok words

/-- Two texts of one tag, with its named arguments in whatever order. -/
def Respelling (text text' : List Char) : Prop :=
  ∃ kind words words', IsTagOf text kind words ∧ IsTagOf text' kind words' ∧
    Word.Reordered words words'

/-- The text of a tag in its place, taken by itself. -/
theorem PlacedTag.Fits.isTag {placed : PlacedTag} {before after : List Char}
    (h : placed.Fits before after) :
    ∃ form content, IsTag placed.text form content ∧
      Tag.ofContent form content = .ok placed.tag := by
  obtain ⟨inner, c, -, hcut, htext, htag⟩ := h.reads
  refine ⟨c.form, c.content, ⟨c.inner, htext.symm.trans c.text_eq, ?_⟩, htag⟩
  have halone := cut_of_text hcut []
  rwa [List.append_nil] at halone

theorem IsTag.unique {text : List Char} {form form' : TagForm} {content content' : List Char}
    (h : IsTag text form content) (h' : IsTag text form' content') :
    form = form' ∧ content = content' := by
  obtain ⟨inner, rfl, hcut⟩ := h
  obtain ⟨inner', heq, hcut'⟩ := h'
  cases heq
  rw [hcut] at hcut'
  cases hcut'
  exact ⟨rfl, rfl⟩

/-- The text of a tag begins and ends with a brace. -/
theorem IsTagOf.braces {text : List Char} {kind : Tag.Kind} {words : List Word}
    (h : IsTagOf text kind words) :
    (∃ more, text = '\x7b' :: more) ∧ ∃ front, text = front ++ ['\x7d'] := by
  obtain ⟨form, content, -, ⟨inner, rfl, hcut⟩, -⟩ := h
  refine ⟨⟨_, rfl⟩, ?_⟩
  obtain ⟨front, hfront⟩ := cut_text_ends ⟨form, content, []⟩
  have htext := cut_eq hcut
  rw [List.append_nil] at htext
  exact ⟨front, htext.trans hfront⟩

section

variable {text text' : List Char} (h : Respelling text text')

include h

theorem Respelling.head?_eq (a a' : List Char) : (text ++ a).head? = (text' ++ a').head? := by
  obtain ⟨_, _, _, hleft, hright, _⟩ := h
  obtain ⟨⟨more, rfl⟩, -⟩ := hleft.braces
  obtain ⟨⟨more', rfl⟩, -⟩ := hright.braces
  rfl

theorem Respelling.sameEnd (a a' : List Char) : SameEnd (text ++ a) (text' ++ a') := by
  obtain ⟨_, _, _, hleft, hright, _⟩ := h
  obtain ⟨⟨more, rfl⟩, -⟩ := hleft.braces
  obtain ⟨⟨more', rfl⟩, -⟩ := hright.braces
  exact sameEnd_brace _ _

theorem Respelling.sameStart (b b' : List Char) :
    SameStart (text.reverse ++ b) (text'.reverse ++ b') := by
  obtain ⟨_, _, _, hleft, hright, _⟩ := h
  obtain ⟨-, front, rfl⟩ := hleft.braces
  obtain ⟨-, front', rfl⟩ := hright.braces
  rw [List.reverse_append, List.reverse_append]
  exact sameStart_brace _ _

end

/-- **Both texts of a tag are the same tag**, up to the order of its named arguments; it fits in
the place in either spelling. -/
theorem PlacedTag.Fits.respell {placed : PlacedTag} {before after text' : List Char}
    (h : placed.Fits before after) (hrespelling : Respelling placed.text text') :
    ∃ tag', placed.tag.Like SameNamed tag' ∧
      PlacedTag.Fits { placed with text := text', tag := tag' } before after := by
  obtain ⟨kind, words, words', ⟨form, content, x, hplaced, hkind, hreads⟩,
    ⟨form', content', x', hisTag, hkind', hreads'⟩, hwords⟩ := hrespelling
  obtain ⟨form₀, content₀, hplaced₀, htag⟩ := h.isTag
  obtain ⟨rfl, rfl⟩ := hplaced.unique hplaced₀
  rw [Tag.ofContent_eq_ofKind hkind] at htag
  obtain ⟨tag', htag', hlike⟩ := Tag.ofKind_like hreads hreads' hwords htag
  rw [← Tag.ofContent_eq_ofKind hkind'] at htag'
  refine ⟨tag', hlike, ⟨h.place, ?_, ?_, ?_⟩⟩
  · obtain ⟨inner, rfl, hcut⟩ := hisTag
    have hinner := cut_inner hcut
    rw [List.append_nil] at hinner
    have hplaced' := cut_of_text hcut (placed.lineEnd ++ after)
    rw [← hinner] at hplaced'
    refine ⟨_, _, rfl, hplaced', ?_, htag'⟩
    rw [Cut.text_eq]
    show '\x7b' :: '\x7b' :: (Cut.mk form' content' []).inner = _
    rw [← hinner]
  · rw [← hlike.takesLine_eq]
    exact h.alone
  · rw [← hlike.takesLine_eq]
    exact h.shared

/-- A text of pieces in which some tags are respelled. -/
inductive Respells : List Piece → List Char → Prop where
  | nil : Respells [] []
  | keep (p : Piece) {ps : List Piece} {rest : List Char} (h : Respells ps rest) :
      Respells (p :: ps) (p.source ++ rest)
  | tag (placed : PlacedTag) {text' : List Char} (htext : Respelling placed.text text')
      {ps : List Piece} {rest : List Char} (h : Respells ps rest) :
      Respells (.tag placed :: ps) (placed.indent ++ (text' ++ (placed.lineEnd ++ rest)))

/-- A text with the named arguments of some tags in another order. All between these tags is as
it was. -/
def Respelled (text text' : String) : Prop :=
  ∃ ps, Laid [] text.toList ps ∧ Respells ps text'.toList

theorem respells_source (ps : List Piece) : Respells ps (ps.flatMap Piece.source) := by
  induction ps with
  | nil => exact .nil
  | cons p ps ih => exact .keep p ih

/-! ## Layouts -/

/-- Whether a stretch of text is plain depends on the first character behind it alone. -/
theorem plain_congr {chars after after' : List Char} (h : Plain chars after)
    (hhead : after.head? = after'.head?) : Plain chars after' := by
  intro a b hab hb hbraces
  refine h a b hab hb ?_
  match b with
  | [] => exact absurd rfl hb
  | [c] =>
    obtain ⟨hc, hrest⟩ := List.cons_prefix_cons.1 hbraces
    refine List.cons_prefix_cons.2 ⟨hc, ?_⟩
    cases after' with
    | nil => exact absurd (List.prefix_nil.1 hrest) (List.cons_ne_nil _ _)
    | cons d rest' =>
      obtain ⟨rfl, -⟩ := List.cons_prefix_cons.1 hrest
      cases after with
      | nil => cases hhead
      | cons d rest =>
        cases hhead
        exact List.cons_prefix_cons.2 ⟨rfl, List.nil_prefix⟩
  | c :: d :: b =>
    obtain ⟨hc, hrest⟩ := List.cons_prefix_cons.1 hbraces
    obtain ⟨hd, -⟩ := List.cons_prefix_cons.1 hrest
    exact List.cons_prefix_cons.2 ⟨hc, List.cons_prefix_cons.2 ⟨hd, List.nil_prefix⟩⟩

theorem head?_append_congr {front a b : List Char} (h : a.head? = b.head?) :
    (front ++ a).head? = (front ++ b).head? := by
  cases front with
  | nil => exact h
  | cons c front => rfl

/-- What a text and a respelled text of it have in common: they begin and go on alike, and are laid
out in the same pieces, up to the order of named arguments. -/
theorem Laid.respell {before rest : List Char} {ps : List Piece} (h : Laid before rest ps)
    {before' rest' : List Char} (hrespells : Respells ps rest')
    (hstart : SameStart before before') :
    rest.head? = rest'.head? ∧ SameEnd rest rest' ∧
      ∃ qs, Laid before' rest' qs ∧ List.Forall₂ (Piece.Like SameNamed) ps qs := by
  induction h generalizing before' rest' with
  | done =>
    cases hrespells
    exact ⟨rfl, .refl _, [], .done, .nil⟩
  | @text before chars rest pieces hne hplain hmax _ ih =>
    cases hrespells with
    | keep _ hrest =>
      obtain ⟨hhead, hend, qs, hqs, hlike⟩ := ih hrest (hstart.append chars.reverse)
      rw [startsText_eq_of_forall₂ hlike] at hmax
      refine ⟨head?_append_congr hhead, hend.append chars, _, ?_, .cons (.text chars) hlike⟩
      exact .text hne (plain_congr hplain hhead) hmax hqs
  | @tag before rest pieces placed hfits _ ih =>
    have hplace : SameStart placed.before (placed.indent.reverse ++ before') := by
      rw [hfits.place]
      exact hstart.append _
    cases hrespells with
    | keep _ hrest =>
      obtain ⟨form, content, -, htag⟩ := hfits.isTag
      obtain ⟨hhead, hend, qs, hqs, hlike⟩ :=
        ih hrest ((hplace.append placed.text.reverse).append placed.lineEnd.reverse)
      have hmoved := Laid.tag (hfits.move hplace (hend.append _)) hqs
      rw [Piece.source, List.append_assoc, List.append_assoc]
      refine ⟨?_, ?_, _, hmoved, .cons (.tag (Tag.like_self htag)) hlike⟩
      · exact head?_append_congr (head?_append_congr (head?_append_congr hhead))
      · exact ((hend.append _).append _).append _
    | @tag _ text' htext _ _ hrest =>
      -- Both texts of the tag begin and end with a brace, so nothing beyond them is seen.
      have hbehind := htext.sameStart placed.before (placed.indent.reverse ++ before')
      obtain ⟨hhead, hend, qs, hqs, hlike⟩ := ih hrest (hbehind.append placed.lineEnd.reverse)
      obtain ⟨tag', htag, hfits'⟩ := (hfits.move hplace (hend.append _)).respell htext
      refine ⟨head?_append_congr (htext.head?_eq _ _), (htext.sameEnd _ _).append _, _,
        .tag hfits' hqs, .cons (.tag htag) hlike⟩

/-! ## Reading -/

/-- **A respelled template is read alike.** If a template can be read, then it can be read with
named arguments in another order as well, and the nodes are the same up to this order. -/
theorem parse_respelled {text text' : String} {ns : List Node} (hparse : parse text = .ok ns)
    (h : Respelled text text') : ∃ ms, parse text' = .ok ms ∧ Node.Like SameNamed ns ms := by
  obtain ⟨ps, hlaid, hderives⟩ := derives_of_parse hparse
  obtain ⟨ps', hlaid', hrespells⟩ := h
  have hpieces : ps = ps' := by
    have hscan := scan_eq_iff.2 hlaid
    rw [scan_eq_iff.2 hlaid'] at hscan
    cases hscan
    rfl
  subst hpieces
  obtain ⟨-, -, qs, hqs, hlike⟩ := hlaid.respell hrespells (.refl [])
  obtain ⟨ms, hms, hnodes⟩ := hderives.like hlike
  refine ⟨ms, ?_, hnodes⟩
  rw [parse, scan_eq_iff.2 hqs, Scanned.nodes_of_derives hms]

/-- A text that can be read is a respelling of itself. -/
theorem Respelled.refl {text : String} {ns : List Node} (h : parse text = .ok ns) :
    Respelled text text := by
  obtain ⟨ps, hlaid, -⟩ := derives_of_parse h
  have hrespells := respells_source ps
  rw [laid_source hlaid] at hrespells
  exact ⟨ps, hlaid, hrespells⟩

/-- Nodes that were read are like themselves: no name is there twice among the arguments of a
call. -/
theorem parse_like_self {text : String} {ns : List Node} (h : parse text = .ok ns) :
    Node.Like SameNamed ns ns := by
  obtain ⟨ms, hms, hnodes⟩ := parse_respelled h (.refl h)
  rw [h] at hms
  cases hms
  exact hnodes

end Stencil
