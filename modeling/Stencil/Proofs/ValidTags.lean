import Stencil.Proofs.RespelledTags

/-!
# What a tag can hold

Reading checks a tag word by word. Whatever it lets through is in good form:

> `Path.valid_of_read?`: a path has segments, and a name that is looked up from the current subject
> outward does not begin with `this`.
> `Param.isHelperName_of_ofWord?`: a single name is neither a fixed word nor a number, which are read
> as literals. For numbers this rests on every row of digits being one (`isSome_readFloat?`).
> `Tag.valid_of_ofContent`: so each kind of tag has what it needs.

The characters of a bare word are those of paths (`Param.isPathChar_of_ofWord?`): no blank, no quote
and no brace is among them.
-/

namespace Stencil

open Text

/-! ## Paths -/

namespace Path

/-- A path that can be written: its segments are segments, and a name that is looked up from the
current subject outward does not begin with `this`. -/
def Valid : Path → Prop
  | this segments => ∀ s ∈ segments, isSegment s.toList = true
  | bound name => isSegment name.toList = true
  | named head rest => head ≠ "this" ∧ ∀ s ∈ head :: rest, isSegment s.toList = true

instance : DecidablePred Valid
  | this segments => inferInstanceAs (Decidable (∀ s ∈ segments, isSegment s.toList = true))
  | bound name => inferInstanceAs (Decidable (isSegment name.toList = true))
  | named head rest =>
    inferInstanceAs (Decidable (head ≠ "this" ∧ ∀ s ∈ head :: rest, isSegment s.toList = true))

theorem isSegment_iff {cs : List Char} :
    isSegment cs = true ↔ cs ≠ [] ∧ ∀ c ∈ cs, isSegmentChar c = true := by
  rw [isSegment, Bool.and_eq_true, List.all_eq_true, Bool.not_eq_true', List.isEmpty_eq_false_iff]

/-- The parts between the dots of a word spell the word. -/
theorem joinDots_splitDots (cs : List Char) :
    joinDots (splitDots cs).1 (splitDots cs).2 = cs := by
  induction cs with
  | nil => rfl
  | cons c rest ih =>
    unfold splitDots
    by_cases hc : c = '.'
    · simp only [hc, if_true, joinDots, List.nil_append, ih]
    · simp only [hc, if_false]
      generalize (splitDots rest).1 = head at ih
      generalize (splitDots rest).2 = tail at ih
      rw [← ih]
      cases tail <;> rfl

/-- What is read as dotted segments is their spelling. -/
theorem segments?_eq_some {cs : List Char} {head : String} {tail : List String}
    (h : segments? cs = some (head, tail)) :
    cs = joinDots head.toList (tail.map String.toList) ∧
      ∀ s ∈ head :: tail, isSegment s.toList = true := by
  have hjoin := joinDots_splitDots cs
  unfold segments? at h
  dsimp only at h
  split at h
  next hvalid =>
    cases h
    rw [Bool.and_eq_true, List.all_eq_true] at hvalid
    obtain ⟨hhead, htail⟩ := hvalid
    constructor
    · rw [List.map_map, String.toList_ofList]
      have hid : (splitDots cs).2.map (String.toList ∘ String.ofList) = (splitDots cs).2 :=
        List.map_id'' (fun x => String.toList_ofList) _
      rw [hid, hjoin]
    · intro s hs
      rcases List.mem_cons.1 hs with rfl | hs
      · rwa [String.toList_ofList]
      · obtain ⟨part, hpart, rfl⟩ := List.mem_map.1 hs
        rw [String.toList_ofList]
        exact htail part hpart
  next => cases h

/-- A word that begins with `this` and goes on with a dot, if it goes on, is no plain name. -/
theorem joinDots_this (tail : List (List Char)) :
    joinDots "this".toList tail = ['t', 'h', 'i', 's'] ∨
      ∃ rest, joinDots "this".toList tail = 't' :: 'h' :: 'i' :: 's' :: '.' :: rest := by
  cases tail with
  | nil => exact .inl rfl
  | cons next rest => exact .inr ⟨_, rfl⟩

/-- **A word that is read as a path is read as a valid one.** -/
theorem valid_of_read? {cs : List Char} {p : Path} (h : read? cs = some p) : p.Valid := by
  unfold read? at h
  split at h
  next =>
    cases h
    intro s hs
    cases hs
  next =>
    cases h
    intro s hs
    cases hs
  next name =>
    split at h
    next hname =>
      cases h
      show isSegment (String.ofList name).toList = true
      rwa [String.toList_ofList]
    next => cases h
  next rest =>
    obtain ⟨⟨head, tail⟩, hsegments, rfl⟩ := Option.map_eq_some_iff.1 h
    exact (segments?_eq_some hsegments).2
  next rest =>
    obtain ⟨⟨head, tail⟩, hsegments, rfl⟩ := Option.map_eq_some_iff.1 h
    exact (segments?_eq_some hsegments).2
  next cs hthis _ _ hbelow _ =>
    obtain ⟨⟨head, tail⟩, hsegments, rfl⟩ := Option.map_eq_some_iff.1 h
    obtain ⟨hcs, hvalid⟩ := segments?_eq_some hsegments
    refine ⟨?_, hvalid⟩
    rintro rfl
    rcases joinDots_this (tail.map String.toList) with hthis' | ⟨rest, hbelow'⟩
    · exact hthis (hcs.trans hthis')
    · exact hbelow rest (hcs.trans hbelow')

theorem mem_joinDots {c : Char} {head : List Char} {tail : List (List Char)}
    (h : c ∈ joinDots head tail) : c = '.' ∨ ∃ part ∈ head :: tail, c ∈ part := by
  induction tail generalizing head with
  | nil => exact .inr ⟨head, List.mem_cons_self .., h⟩
  | cons next rest ih =>
    rcases List.mem_append.1 h with hhead | hrest
    · exact .inr ⟨head, List.mem_cons_self .., hhead⟩
    · rcases List.mem_cons.1 hrest with rfl | hrest
      · exact .inl rfl
      · rcases ih hrest with hdot | ⟨part, hpart, hc⟩
        · exact .inl hdot
        · exact .inr ⟨part, List.mem_cons_of_mem _ hpart, hc⟩

/-- The characters of a path: those of segments, the dot, and the mark of bound names. -/
def isPathChar (c : Char) : Bool := isSegmentChar c || c == '.' || c == '@'

theorem isPathChar_of_segments? {cs : List Char} {segments : String × List String}
    (h : segments? cs = some segments) : ∀ c ∈ cs, isPathChar c = true := by
  obtain ⟨head, tail⟩ := segments
  obtain ⟨rfl, hvalid⟩ := segments?_eq_some h
  intro c hc
  rcases mem_joinDots hc with rfl | ⟨part, hpart, hc⟩
  · decide
  · rw [← List.map_cons] at hpart
    obtain ⟨s, hs, rfl⟩ := List.mem_map.1 hpart
    have hsegment := (isSegment_iff.1 (hvalid s hs)).2 c hc
    simp only [isPathChar, hsegment, Bool.true_or]

theorem isPathChar_of_read? {cs : List Char} {p : Path} (h : read? cs = some p) :
    ∀ c ∈ cs, isPathChar c = true := by
  unfold read? at h
  split at h
  next => exact List.all_eq_true.1 (by decide)
  next => exact List.all_eq_true.1 (by decide)
  next name =>
    split at h
    next hname =>
      intro c hc
      rcases List.mem_cons.1 hc with rfl | hc
      · decide
      · simp only [isPathChar, (isSegment_iff.1 hname).2 c hc, Bool.true_or]
    next => cases h
  next rest =>
    obtain ⟨_, hsegments, -⟩ := Option.map_eq_some_iff.1 h
    exact List.forall_mem_append.2
      ⟨List.all_eq_true.1 (show ['t', 'h', 'i', 's', '.'].all isPathChar = true by decide),
        isPathChar_of_segments? hsegments⟩
  next rest =>
    obtain ⟨_, hsegments, -⟩ := Option.map_eq_some_iff.1 h
    exact List.forall_mem_append.2
      ⟨List.all_eq_true.1 (show ['.', '/'].all isPathChar = true by decide),
        isPathChar_of_segments? hsegments⟩
  next =>
    obtain ⟨_, hsegments, -⟩ := Option.map_eq_some_iff.1 h
    exact isPathChar_of_segments? hsegments

/-- Only a word of dotted segments is a name that is looked up from the current subject outward,
and the word is the spelling of the segments. -/
theorem eq_joinDots_of_read? {cs : List Char} {head : String} {tail : List String}
    (h : read? cs = some (named head tail)) :
    cs = joinDots head.toList (tail.map String.toList) := by
  unfold read? at h
  split at h
  next => cases h
  next => cases h
  next => split at h <;> cases h
  next =>
    obtain ⟨_, -, heq⟩ := Option.map_eq_some_iff.1 h
    cases heq
  next =>
    obtain ⟨_, -, heq⟩ := Option.map_eq_some_iff.1 h
    cases heq
  next =>
    obtain ⟨⟨head', tail'⟩, hsegments, heq⟩ := Option.map_eq_some_iff.1 h
    cases heq
    exact (segments?_eq_some hsegments).1

end Path

/-! ## Numbers -/

theorem isSome_readDecimal? {cs : List Char} (hne : cs ≠ []) (hdigits : cs.all Char.isDigit = true) :
    (Number.readDecimal? cs).isSome = true := by
  have hspan : cs.span Char.isDigit = (cs, []) := by
    rw [List.span_eq_takeWhile_dropWhile, List.takeWhile_eq_self_iff.2 (List.all_eq_true.1 hdigits),
      List.dropWhile_eq_nil_iff.2 (List.all_eq_true.1 hdigits)]
  unfold Number.readDecimal?
  rw [hspan]
  dsimp only
  rw [if_neg fun hnil => hne hnil.1]
  rfl

/-- A word that is written like a number: its sign, and its digits and points. -/
theorem exists_of_looksNumeric {word : List Char} (h : Param.looksNumeric word = true) :
    ∃ sign c rest, word = sign ++ c :: rest ∧ (sign = [] ∨ sign = ['-']) ∧ c.isDigit = true ∧
      (c :: rest).all (fun c => c.isDigit || c == '.') = true := by
  unfold Param.looksNumeric at h
  split at h
  next body =>
    dsimp only at h
    split at h
    next c rest =>
      rw [Bool.and_eq_true] at h
      exact ⟨['-'], c, rest, rfl, .inr rfl, h⟩
    next => cases h
  next =>
    dsimp only at h
    split at h
    next c rest _ =>
      rw [Bool.and_eq_true] at h
      exact ⟨[], c, rest, rfl, .inl rfl, h⟩
    next => cases h

/-- A text denotes a number if what stands behind its sign is a decimal number. -/
theorem isSome_readBinary? {f : Number.BinaryFormat} {cs : List Char}
    (h : (Number.readDecimal? (match cs with
      | '-' :: r => (f.signWeight, r)
      | '+' :: r => (0, r)
      | r => (0, r)).2).isSome = true) :
    (Number.readBinary? f cs).isSome = true := by
  unfold Number.readBinary?
  split
  next sign body heq =>
    have hbody : (Number.readDecimal? body).isSome = true := by
      rw [show body = _ from (congrArg Prod.snd heq).symm]
      exact h
    dsimp only
    split
    next => rfl
    next =>
      split
      next => rfl
      next =>
        rw [Option.isSome_map]
        exact hbody

/-- Digits behind at most one minus denote a number. -/
theorem isSome_readFloat? {word : List Char} (h : Param.looksNumeric word = true)
    (hdot : '.' ∉ word) : (Number.readFloat? word).isSome = true := by
  obtain ⟨sign, c, rest, rfl, hsign, hc, hall⟩ := exists_of_looksNumeric h
  have hdigits : (c :: rest).all Char.isDigit = true := by
    rw [List.all_eq_true] at hall ⊢
    intro d hd
    have hne : d ≠ '.' := fun heq => hdot (heq ▸ List.mem_append_right _ hd)
    simpa [hne] using hall d hd
  have hdecimal := isSome_readDecimal? (List.cons_ne_nil _ _) hdigits
  unfold Number.readFloat?
  rw [Option.isSome_map]
  refine isSome_readBinary? ?_
  rcases hsign with rfl | rfl
  · rw [List.nil_append]
    split
    next hcons =>
      cases hcons
      cases hc
    next hcons =>
      cases hcons
      cases hc
    next => exact hdecimal
  · exact hdecimal

/-! ## Arguments -/

/-- The values that can be written as literals. -/
def Value.IsLiteral : Value → Prop
  | .null | .bool _ | .str _ | .i64 _ | .f64 _ => True
  | .u64 _ | .decimal _ | .date _ | .time _ | .dateTime _ | .dateTimeUtc _ | .list _ | .map _
  | .object .. => False

theorem Literal.isLiteral_value (l : Literal) : l.value.IsLiteral := by
  cases l <;> exact True.intro

/-- A name that a tag can call a helper by: one segment that stands for nothing else. -/
structure IsHelperName (name : String) : Prop where
  segment : Path.isSegment name.toList = true
  unreserved : name ∉ ["this", "true", "false", "null", "undefined"]
  not_numeric : Param.looksNumeric name.toList = false

namespace Param

/-- An argument that can be written. A path of a single name is a helper's name as well. -/
def Valid : Param → Prop
  | path p => p.Valid ∧ ∀ name, p = .named name [] → IsHelperName name
  | literal l => l.value.IsLiteral

/-- A bare word is a literal, or a path where it is neither a fixed word nor a number. -/
theorem ofWord?_eq_some {word : List Char} {p : Param} (h : ofWord? word = some p) :
    (∃ l, p = literal l) ∨ ∃ q, p = path q ∧ Path.read? word = some q ∧
      word ∉ ["true".toList, "false".toList, "null".toList, "undefined".toList] ∧
      readNumber? word = none := by
  unfold ofWord? at h
  split at h
  next =>
    cases h
    exact .inl ⟨_, rfl⟩
  next htrue =>
    split at h
    next =>
      cases h
      exact .inl ⟨_, rfl⟩
    next hfalse =>
      split at h
      next =>
        cases h
        exact .inl ⟨_, rfl⟩
      next hnull =>
        split at h
        next l _ =>
          cases h
          exact .inl ⟨l, rfl⟩
        next hnumber =>
          obtain ⟨q, hq, rfl⟩ := Option.map_eq_some_iff.1 h
          refine .inr ⟨q, rfl, hq, ?_, hnumber⟩
          intro hmem
          simp only [List.mem_cons, List.not_mem_nil, or_false] at hmem
          rcases hmem with rfl | rfl | rfl | rfl
          · exact htrue rfl
          · exact hfalse rfl
          · exact hnull (.inl rfl)
          · exact hnull (.inr rfl)

/-- Digits behind at most one minus are read as a number. -/
theorem readNumber?_ne_none {word : List Char} (h : looksNumeric word = true) (hdot : '.' ∉ word) :
    readNumber? word ≠ none := by
  unfold readNumber?
  rw [if_pos h]
  split
  next => simp
  next =>
    obtain ⟨x, hx⟩ := Option.isSome_iff_exists.1 (isSome_readFloat? h hdot)
    simp [hx]

/-- **A single name is a helper's name.** It is not `this`, which is a path of another kind, and
neither a fixed word nor a number, which are read as literals. -/
theorem isHelperName_of_ofWord? {word : List Char} {name : String}
    (h : ofWord? word = some (path (.named name []))) : IsHelperName name := by
  rcases ofWord?_eq_some h with ⟨l, heq⟩ | ⟨q, heq, hread, hfixed, hnumber⟩
  · cases heq
  · cases heq
    obtain ⟨hthis, hsegments⟩ := Path.valid_of_read? hread
    have hsegment := hsegments name (List.mem_cons_self ..)
    obtain rfl : word = name.toList := Path.eq_joinDots_of_read? hread
    refine ⟨hsegment, ?_, ?_⟩
    · intro hmem
      rcases List.mem_cons.1 hmem with rfl | hmem
      · exact hthis rfl
      · exact hfixed (List.mem_map_of_mem hmem)
    · -- A word like a number would be read as one: a segment has no point in it.
      cases hnumeric : looksNumeric name.toList with
      | false => rfl
      | true =>
        have hdot : '.' ∉ name.toList := fun hmem =>
          absurd ((Path.isSegment_iff.1 hsegment).2 '.' hmem) (by decide)
        exact absurd hnumber (readNumber?_ne_none hnumeric hdot)

theorem valid_of_ofWord? {word : List Char} {p : Param} (h : ofWord? word = some p) : p.Valid := by
  rcases ofWord?_eq_some h with ⟨l, rfl⟩ | ⟨q, rfl, hread, -, -⟩
  · exact l.isLiteral_value
  · refine ⟨Path.valid_of_read? hread, ?_⟩
    rintro name rfl
    exact isHelperName_of_ofWord? h

theorem isPathChar_of_looksNumeric {word : List Char} (h : looksNumeric word = true) :
    ∀ c ∈ word, Path.isPathChar c = true := by
  obtain ⟨sign, c, rest, rfl, hsign, -, hall⟩ := exists_of_looksNumeric h
  refine List.forall_mem_append.2 ⟨?_, ?_⟩
  · rcases hsign with rfl | rfl
    · intro d hd
      cases hd
    · exact List.all_eq_true.1 (by decide)
  · intro d hd
    have hboth := List.all_eq_true.1 hall d hd
    rw [Bool.or_eq_true] at hboth
    rcases hboth with hdigit | hdot
    · have halnum : isAlphanumeric d = true :=
        isAlphanumeric_of_isAlphanum (by rw [Char.isAlphanum, hdigit, Bool.or_true])
      simp only [Path.isPathChar, Path.isSegmentChar, halnum, Bool.true_or]
    · obtain rfl := eq_of_beq hdot
      decide

/-- The characters of a bare word are those of paths. -/
theorem isPathChar_of_ofWord? {word : List Char} {p : Param} (h : ofWord? word = some p) :
    ∀ c ∈ word, Path.isPathChar c = true := by
  unfold ofWord? at h
  split at h
  next heq => exact heq ▸ List.all_eq_true.1 (by decide)
  next =>
    split at h
    next heq => exact heq ▸ List.all_eq_true.1 (by decide)
    next =>
      split at h
      next heq =>
        rcases heq with rfl | rfl
        · exact List.all_eq_true.1 (by decide)
        · exact List.all_eq_true.1 (by decide)
      next =>
        split at h
        next l hnumber =>
          unfold readNumber? at hnumber
          split at hnumber
          next hnumeric => exact isPathChar_of_looksNumeric hnumeric
          next => cases hnumber
        next =>
          obtain ⟨q, hq, -⟩ := Option.map_eq_some_iff.1 h
          exact Path.isPathChar_of_read? hq

end Param

/-! ## Words -/

namespace Word

/-- A word that can be written. -/
def Valid : Word → Prop
  | positional p => p.Valid
  | named key p => key ≠ "" ∧ p.Valid

/-- An argument is a text literal, which ends at its closing quote, or a bare word, which ends at
the first blank. -/
theorem readParam_eq_ok {cs after : List Char} {p : Param} (h : readParam cs = .ok (p, after)) :
    (∃ quote rest s, cs = quote :: rest ∧ isQuote quote = true ∧
      readQuoted quote rest = some (s, after) ∧ p = .literal (.text (String.ofList s))) ∨
    ∃ word, cs = word ++ after ∧ Param.ofWord? word = some p := by
  unfold readParam at h
  split at h
  next => cases h
  next c rest =>
    split at h
    next hquote =>
      split at h
      next s after' hread =>
        cases h
        exact .inl ⟨c, rest, s, rfl, hquote, hread, rfl⟩
      next => cases h
    next =>
      dsimp only [splitBlank] at h
      split at h
      next p' hword =>
        cases h
        exact .inr ⟨_, List.takeWhile_append_dropWhile.symm, hword⟩
      next => cases h

theorem splitKey?_eq_some {cs key rest : List Char} (h : splitKey? cs = some (key, rest)) :
    cs = key ++ '=' :: rest ∧ key ≠ [] ∧ ∀ c ∈ key, isKeyChar c = true := by
  unfold splitKey? at h
  split at h
  next c key' rest' hkey hrest =>
    cases h
    refine ⟨?_, List.cons_ne_nil _ _, ?_⟩
    · rw [← hkey, ← hrest, List.takeWhile_append_dropWhile]
    · intro d hd
      rw [← hkey] at hd
      exact List.mem_takeWhile_imp hd
  next => cases h

theorem readFirst_eq_ok {cs after : List Char} {w : Word} (h : readFirst cs = .ok (w, after)) :
    (∃ key rest p, splitKey? cs = some (key, rest) ∧ readParam rest = .ok (p, after) ∧
      w = named (String.ofList key) p) ∨
    ∃ p, splitKey? cs = none ∧ readParam cs = .ok (p, after) ∧ w = positional p := by
  unfold readFirst at h
  split at h
  next key rest hkey =>
    obtain ⟨⟨p, after'⟩, hparam, heq⟩ := of_map_eq_ok h
    cases heq
    exact .inl ⟨key, rest, p, hkey, hparam, rfl⟩
  next hkey =>
    obtain ⟨⟨p, after'⟩, hparam, heq⟩ := of_map_eq_ok h
    cases heq
    exact .inr ⟨p, hkey, hparam, rfl⟩

theorem valid_of_readParam {cs after : List Char} {p : Param}
    (h : readParam cs = .ok (p, after)) : p.Valid := by
  rcases readParam_eq_ok h with ⟨_, _, s, -, -, -, rfl⟩ | ⟨word, -, hword⟩
  · exact (Literal.text (String.ofList s)).isLiteral_value
  · exact Param.valid_of_ofWord? hword

theorem valid_of_readFirst {cs after : List Char} {w : Word}
    (h : readFirst cs = .ok (w, after)) : w.Valid := by
  rcases readFirst_eq_ok h with ⟨key, rest, p, hkey, hparam, rfl⟩ | ⟨p, -, hparam, rfl⟩
  · refine ⟨?_, valid_of_readParam hparam⟩
    obtain ⟨-, hne, -⟩ := splitKey?_eq_some hkey
    intro hempty
    rw [String.ofList_eq_empty_iff] at hempty
    exact hne hempty
  · exact valid_of_readParam hparam

theorem valid_of_readAll {cs : List Char} {words : List Word} (h : readAll cs = .ok words) :
    ∀ w ∈ words, w.Valid := by
  fun_induction readAll cs generalizing words with
  | case1 =>
    cases h
    intro w hw
    cases hw
  | case2 => cases h
  | case3 => cases h
  | case4 cs _ w after hfirst _ ws hrest ih =>
    cases h
    exact List.forall_mem_cons.2 ⟨valid_of_readFirst hfirst, ih hrest⟩

theorem isHelperName_of_identifier? {w : Word} {name : String} (hvalid : w.Valid)
    (h : w.identifier? = some name) : IsHelperName name := by
  obtain rfl := eq_of_identifier? h
  exact hvalid.2 name rfl

end Word

/-- The arguments of a tag can be written, and no named one has an empty name. -/
structure ValidArguments (params : List Param) (named : Table Param) : Prop where
  params : ∀ p ∈ params, p.Valid
  named : ∀ e ∈ named, e.1 ≠ "" ∧ e.2.Valid

theorem Table.of_mem_insert {α : Type} {t : Table α} {key : String} {value : α} {e : String × α}
    (h : e ∈ t.insert key value) : e = (key, value) ∨ e ∈ t := by
  induction t with
  | nil => exact .inl (List.mem_singleton.1 h)
  | cons d rest ih =>
    obtain ⟨k, v⟩ := d
    rw [Table.insert] at h
    split at h
    next heq =>
      rcases List.mem_cons.1 h with rfl | hrest
      · exact .inl (by rw [heq])
      · exact .inr (List.mem_cons_of_mem _ hrest)
    next =>
      rcases List.mem_cons.1 h with rfl | hrest
      · exact .inr (List.mem_cons_self ..)
      · exact (ih hrest).imp_right (List.mem_cons_of_mem _)

namespace Word

theorem valid_of_arguments {words : List Word} {ps params : List Param} {ns named : Table Param}
    (h : arguments words ps ns = .ok (params, named)) (hwords : ∀ w ∈ words, w.Valid)
    (hvalid : ValidArguments ps ns) : ValidArguments params named := by
  induction words generalizing ps ns with
  | nil =>
    cases h
    exact hvalid
  | cons w rest ih =>
    obtain ⟨hw, hrest⟩ := List.forall_mem_cons.1 hwords
    cases w with
    | positional p =>
      rw [arguments] at h
      split at h
      next =>
        refine ih h hrest ⟨List.forall_mem_append.2 ⟨hvalid.params, ?_⟩, hvalid.named⟩
        intro q hq
        rwa [List.mem_singleton.1 hq]
      next => cases h
    | named key p =>
      rw [arguments] at h
      refine ih h hrest ⟨hvalid.params, fun e he => ?_⟩
      rcases Table.of_mem_insert he with rfl | he
      · exact hw
      · exact hvalid.named e he

/-- No argument is lost altogether. -/
theorem ne_nil_of_arguments {words : List Word} {ps params : List Param} {ns named : Table Param}
    (h : arguments words ps ns = .ok (params, named)) (hne : words ≠ [] ∨ ps ≠ [] ∨ ns ≠ []) :
    params ≠ [] ∨ named ≠ [] := by
  induction words generalizing ps ns with
  | nil =>
    cases h
    exact hne.resolve_left fun hnil => hnil rfl
  | cons w rest ih =>
    cases w with
    | positional p =>
      rw [arguments] at h
      split at h
      next => exact ih h (.inr (.inl (List.append_ne_nil_of_right_ne_nil _ (List.cons_ne_nil _ _))))
      next => cases h
    | named key p =>
      rw [arguments] at h
      exact ih h (.inr (.inr (Table.insert_ne_nil ns key p)))

end Word

/-! ## Tags -/

/-- The words that open a block of the language, a region or an override. -/
def builtInBlocks : List String := ["if", "unless", "each", "with", "block", "partial"]

/-- An opener that can be written. -/
def Opening.Valid : Opening → Prop
  | keyword _ param => param.Valid
  | helper name params named =>
    IsHelperName name ∧ name ∉ builtInBlocks ∧ ValidArguments params named
  | region _ | override _ => True

/-- A tag that can be written. -/
def Tag.Valid : Tag → Prop
  | lookup path _ => path.Valid
  | literal l _ => l.value.IsLiteral
  | call name params named _ =>
    IsHelperName name ∧ (params ≠ [] ∨ named ≠ []) ∧ ValidArguments params named
  | inclusion _ context => ∀ p ∈ context, p.Valid
  | opener o => o.Valid
  | comment | otherwise | closer _ => True

namespace Keyword

theorem spelling_of_ofName? {name : String} {k : Keyword} (h : ofName? name = some k) :
    k.spelling = name := by
  unfold ofName? at h
  split at h
  next hname =>
    cases h
    exact hname.symm
  next =>
    split at h
    next hname =>
      cases h
      exact hname.symm
    next =>
      split at h
      next hname =>
        cases h
        exact hname.symm
      next =>
        split at h
        next hname =>
          cases h
          exact hname.symm
        next => cases h

theorem ofName?_eq_none {name : String} (h : ofName? name = none) :
    name ∉ ["if", "unless", "each", "with"] := by
  intro hmem
  simp only [List.mem_cons, List.not_mem_nil, or_false] at hmem
  rcases hmem with rfl | rfl | rfl | rfl <;> cases h

end Keyword

namespace Tag

/-- What a name and arguments open is closed under the same name, and can be written. -/
theorem valid_of_opening {name : String} {params : List Param} {named : Table Param} {o : Opening}
    (h : opening name params named = .ok o) (hname : IsHelperName name)
    (hvalid : ValidArguments params named) : o.closer = name ∧ o.Valid := by
  unfold opening at h
  split at h
  next k hk =>
    split at h
    next => cases h
    next =>
      split at h
      next p =>
        cases h
        exact ⟨Keyword.spelling_of_ofName? hk, hvalid.params p (List.mem_cons_self ..)⟩
      next => cases h
  next hk =>
    split at h
    next hregion =>
      split at h
      next => cases h
      next =>
        split at h
        next region _ =>
          cases h
          split
          next hblock => exact ⟨hblock.symm, True.intro⟩
          next hblock => exact ⟨(hregion.resolve_left hblock).symm, True.intro⟩
        next => cases h
    next hregion =>
      cases h
      refine ⟨rfl, hname, ?_, hvalid⟩
      rw [builtInBlocks]
      have := Keyword.ofName?_eq_none hk
      simp only [List.mem_cons, List.not_mem_nil, or_false, not_or] at this hregion ⊢
      exact ⟨this.1, this.2.1, this.2.2.1, this.2.2.2, hregion.1, hregion.2⟩

/-- The argument of an include is one of its words. -/
theorem valid_of_ofInclude {x : List Char} {words : List Word} {t : Tag}
    (hreads : Word.readAll x = .ok words) (h : ofInclude x = .ok t)
    (hwords : ∀ w ∈ words, w.Valid) : t.Valid := by
  unfold ofInclude at h
  rw [hreads] at h
  dsimp only at h
  split at h
  next => cases h
  next first rest =>
    split at h
    next => cases h
    next =>
      cases h
      intro p hp
      cases hp
    next =>
      cases h
      intro p hp
      cases hp
      exact hwords _ (List.mem_cons_of_mem _ (List.mem_cons_self ..))
    next => cases h
    next => cases h

theorem valid_of_ofKind {kind : Kind} {x : List Char} {t : Tag} (h : ofKind kind x = .ok t) :
    t.Valid := by
  cases hreads : Word.readAll x with
  | error e =>
    rw [ofKind_of_error hreads] at h
    cases h
  | ok words =>
    have hwords := Word.valid_of_readAll hreads
    cases kind with
    | expression escape =>
      rcases ofExpression_eq_ok hreads h with ⟨p, rfl, rfl⟩ | ⟨l, rfl, rfl⟩ |
        ⟨name, rest, params, named, rfl, hrest, harguments, rfl⟩
      · exact (hwords _ (List.mem_singleton_self _)).1
      · exact l.isLiteral_value
      · obtain ⟨hfirst, hothers⟩ := List.forall_mem_cons.1 hwords
        exact ⟨Word.isHelperName_of_identifier? hfirst rfl,
          Word.ne_nil_of_arguments harguments (.inl hrest),
          Word.valid_of_arguments harguments hothers ⟨by simp, by simp⟩⟩
    | opener =>
      obtain ⟨name, rest, params, named, o, rfl, harguments, hopening, rfl⟩ :=
        ofOpener_eq_ok hreads h
      obtain ⟨hfirst, hothers⟩ := List.forall_mem_cons.1 hwords
      exact (valid_of_opening hopening (Word.isHelperName_of_identifier? hfirst rfl)
        (Word.valid_of_arguments harguments hothers ⟨by simp, by simp⟩)).2
    | inclusion => exact valid_of_ofInclude hreads h hwords

/-- **A tag that is read can be written.** -/
theorem valid_of_ofContent {form : TagForm} {content : List Char} {t : Tag}
    (h : ofContent form content = .ok t) : t.Valid := by
  cases hwords : words? form content with
  | some made =>
    rw [ofContent_eq_ofKind hwords] at h
    exact valid_of_ofKind h
  | none =>
    rcases ofContent_wordless hwords with ⟨-, hcomment⟩ | ⟨-, ⟨rest, -, hcloser⟩ | ⟨-, helse⟩⟩
    · cases hcomment.symm.trans h
      exact True.intro
    · cases hcloser.symm.trans h
      exact True.intro
    · cases helse.symm.trans h
      exact True.intro

end Tag

end Stencil
