import Mathlib
import Stencil.Data.Conversion
import Stencil.Proofs.TagEnds
import Stencil.Proofs.WrittenTags

/-!
# Integers out of values

A helper may ask for an argument as an integer of any of the ten kinds, and the argument may be a
signed or an unsigned word of 64 bits or a text. Whatever it is, the helper gets the number that the
argument shows or none at all. What a text shows is said here without reading it: the digits count
by their places (`Number.DigitsDenote`), a sign may stand in front of them, and blanks around both
(`Value.ShowsInt`); and the numbers of a kind are given by their bounds (`IntKind.range`).

> `Number.readInt?_eq_some`: reading a text gives what its digits and its sign say.
> `Value.integer?_eq_some`: a value shows at most one integer, of any size.
> `conversions_never_wrap`: asking for an integer of a kind gives this number if it is in the range
> of the kind, and otherwise a fault about types.
-/

namespace Stencil

open Text

namespace Number

/-! ## Digits and signs -/

/-- The number that a row of ASCII digits denotes: each digit counts by its place. -/
inductive DigitsDenote : List Char → Nat → Prop where
  | nil : DigitsDenote [] 0
  | cons {c : Char} {cs : List Char} {n : Nat} (hc : c.isDigit = true) (h : DigitsDenote cs n) :
    DigitsDenote (c :: cs) ((c.toNat - '0'.toNat) * 10 ^ cs.length + n)

/-- The integer that a text denotes: at least one digit, behind a sign or none. A minus is a sign
only where there are negative numbers. -/
inductive Denotes (signed : Bool) : List Char → Int → Prop where
  | plain {cs : List Char} {n : Nat} (hne : cs ≠ []) (h : DigitsDenote cs n) : Denotes signed cs n
  | plus {cs : List Char} {n : Nat} (hne : cs ≠ []) (h : DigitsDenote cs n) : Denotes signed ('+' :: cs) n
  | minus {cs : List Char} {n : Nat} (hsigned : signed = true) (hne : cs ≠ []) (h : DigitsDenote cs n) :
    Denotes signed ('-' :: cs) (-n)

variable {signed : Bool} {cs : List Char}

theorem DigitsDenote.isDigit {n : Nat} (h : DigitsDenote cs n) : ∀ c ∈ cs, c.isDigit = true := by
  induction h with
  | nil => simp
  | cons hc _ ih => exact List.forall_mem_cons.2 ⟨hc, ih⟩

/-- Reading on from a number shifts it by as many places as there are digits. -/
theorem DigitsDenote.foldl_eq {n : Nat} (h : DigitsDenote cs n) (start : Nat) :
    cs.foldl (fun n c => n * 10 + (c.toNat - '0'.toNat)) start = start * 10 ^ cs.length + n := by
  induction h generalizing start with
  | nil => simp
  | @cons c cs n _ _ ih =>
    rw [List.foldl_cons, ih, List.length_cons]
    ring

theorem exists_digitsDenote (h : ∀ c ∈ cs, c.isDigit = true) : ∃ n, DigitsDenote cs n := by
  induction cs with
  | nil => exact ⟨0, .nil⟩
  | cons c cs ih =>
    obtain ⟨hc, hcs⟩ := List.forall_mem_cons.1 h
    obtain ⟨n, hn⟩ := ih hcs
    exact ⟨_, .cons hc hn⟩

theorem readDigits?_eq_some {n : Nat} : readDigits? cs = some n ↔ cs ≠ [] ∧ DigitsDenote cs n := by
  unfold readDigits?
  constructor
  · intro h
    split at h
    next hcs =>
      obtain ⟨m, hm⟩ := exists_digitsDenote (List.all_eq_true.1 hcs.2)
      have hn := hm.foldl_eq 0
      rw [Nat.zero_mul, Nat.zero_add, Option.some.inj h] at hn
      exact ⟨hcs.1, hn ▸ hm⟩
    next => cases h
  · rintro ⟨hne, h⟩
    rw [if_pos ⟨hne, List.all_eq_true.2 h.isDigit⟩, h.foldl_eq, Nat.zero_mul, Nat.zero_add]

/-- A sign is no digit. -/
theorem DigitsDenote.head_ne {c : Char} {n : Nat} (h : DigitsDenote (c :: cs) n) : c ≠ '+' ∧ c ≠ '-' := by
  have hc := h.isDigit c (List.mem_cons_self ..)
  constructor
  · rintro rfl
    cases hc
  · rintro rfl
    cases hc

theorem readInt?_minus :
    readInt? true ('-' :: cs) = (readDigits? cs).map fun n : Nat => -(n : Int) := by
  rw [readInt?, if_pos rfl]
  cases readDigits? cs with
  | none => rfl
  | some n => rfl

/-- Reading a text gives what its digits and its sign say. -/
theorem readInt?_eq_some {n : Int} : readInt? signed cs = some n ↔ Denotes signed cs n := by
  constructor
  · intro h
    unfold readInt? at h
    split at h
    next rest =>
      obtain ⟨m, hm, rfl⟩ := Option.map_eq_some_iff.1 h
      obtain ⟨hne, hdigits⟩ := readDigits?_eq_some.1 hm
      exact .plus hne hdigits
    next rest =>
      split at h
      next hsigned =>
        subst hsigned
        obtain ⟨m, hm, rfl⟩ := Option.map_eq_some_iff.1 (readInt?_minus.symm.trans h)
        obtain ⟨hne, hdigits⟩ := readDigits?_eq_some.1 hm
        exact .minus rfl hne hdigits
      next => cases h
    next =>
      obtain ⟨m, hm, rfl⟩ := Option.map_eq_some_iff.1 h
      obtain ⟨hne, hdigits⟩ := readDigits?_eq_some.1 hm
      exact .plain hne hdigits
  · intro h
    cases h with
    | @plain _ n hne hdigits =>
      unfold readInt?
      split
      next => exact absurd rfl hdigits.head_ne.1
      next => exact absurd rfl hdigits.head_ne.2
      next => rw [readDigits?_eq_some.2 ⟨hne, hdigits⟩]; rfl
    | plus hne hdigits =>
      rw [readInt?, readDigits?_eq_some.2 ⟨hne, hdigits⟩]
      rfl
    | minus hsigned hne hdigits =>
      rw [readInt?, if_pos hsigned, readDigits?_eq_some.2 ⟨hne, hdigits⟩]
      rfl

/-- No blank stands among the digits and the sign. -/
theorem Denotes.trimmed {n : Int} (h : Denotes signed cs n) : Word.Trimmed cs := by
  have hdigit : ∀ c : Char, c.isDigit = true → isBlank c = false := fun c hc =>
    isBlank_of_isWordChar (by simp [isWordChar, Char.isAlphanum, hc])
  cases h with
  | plain hne h => exact .of_blankless hne fun c hc => hdigit c (h.isDigit c hc)
  | plus hne h | minus _ hne h =>
    exact .of_blankless (List.cons_ne_nil _ _)
      (List.forall_mem_cons.2 ⟨by decide, fun c hc => hdigit c (h.isDigit c hc)⟩)

end Number

/-! ## What a value shows -/

namespace Value

/-- The integer that a value shows: a word is its number, and a text shows what it denotes, with or
without blanks around it. -/
inductive ShowsInt (signed : Bool) : Value → Int → Prop where
  | i64 (n : Int64) : ShowsInt signed (.i64 n) n.toInt
  | u64 (n : UInt64) : ShowsInt signed (.u64 n) n.toNat
  | str {s : String} {lead cs trail : List Char} {n : Int} (hs : s.toList = lead ++ cs ++ trail)
    (hlead : ∀ c ∈ lead, isBlank c = true) (htrail : ∀ c ∈ trail, isBlank c = true)
    (h : Number.Denotes signed cs n) : ShowsInt signed (.str s) n

/-- The integer that a value shows, if it shows one. -/
def integer? (signed : Bool) : Value → Option Int
  | .i64 n => some n.toInt
  | .u64 n => some n.toNat
  | .str s => Number.readInt? signed (trim s.toList)
  | _ => none

/-- A value shows at most one integer, of any size. -/
theorem integer?_eq_some {signed : Bool} {v : Value} {n : Int} :
    v.integer? signed = some n ↔ v.ShowsInt signed n := by
  constructor
  · intro h
    cases v with
    | i64 m =>
      cases h
      exact .i64 m
    | u64 m =>
      cases h
      exact .u64 m
    | str s =>
      obtain ⟨lead, hs, hlead⟩ := Word.trimStart_append s.toList
      obtain ⟨trail, htext, htrail⟩ := trimEnd_append (trimStart s.toList)
      have hparts : s.toList = lead ++ trim s.toList ++ trail := by
        rw [trim, List.append_assoc, ← htext, ← hs]
      exact .str hparts hlead htrail (Number.readInt?_eq_some.1 h)
    | _ => cases h
  · intro h
    cases h with
    | i64 m | u64 m => rfl
    | str hs hlead htrail h =>
      rw [integer?, hs, trim_of_blanks hlead htrail h.trimmed, Number.readInt?_eq_some.2 h]

end Value

/-! ## Integers of a kind -/

namespace IntKind

/-- The numbers of a kind. -/
def range : IntKind → Set Int
  | i8 => Set.Ico (-2 ^ 7) (2 ^ 7)
  | i16 => Set.Ico (-2 ^ 15) (2 ^ 15)
  | i32 => Set.Ico (-2 ^ 31) (2 ^ 31)
  | i64 | isize => Set.Ico (-2 ^ 63) (2 ^ 63)
  | u8 => Set.Ico 0 (2 ^ 8)
  | u16 => Set.Ico 0 (2 ^ 16)
  | u32 => Set.Ico 0 (2 ^ 32)
  | u64 | usize => Set.Ico 0 (2 ^ 64)

variable {k : IntKind} {n : Int}

theorem mem_range : n ∈ k.range ↔ k.Holds n := by
  have hbounds : k.range = Set.Ico k.least (k.greatest + 1) := by
    cases k <;> rfl
  rw [hbounds, Set.mem_Ico, Int.lt_add_one_iff]
  exact Iff.rfl

theorem ofInt?_eq_some {m : Int} {x : k.Num} : k.ofInt? m = some x ↔ m = x.val := by
  unfold ofInt?
  constructor
  · intro h
    split at h
    next =>
      cases h
      rfl
    next => cases h
  · rintro rfl
    exact dif_pos x.property

/-- Asking for an integer of a kind comes down to the number that the value shows; without one in
range there is a fault about types. -/
theorem ofValue_eq (k : IntKind) (v : Value) :
    ∃ e : Fault, e.kind = .typeMismatch ∧
      k.ofValue v = (((v.integer? k.signed).bind k.ofInt?).map .ok).getD (.error e) := by
  cases v with
  | i64 n => exact ⟨.outOfRange n.toInt k, rfl, rfl⟩
  | u64 n => exact ⟨.outOfRange n.toNat k, rfl, rfl⟩
  | str s => exact ⟨.unreadable s k.name, rfl, rfl⟩
  | _ => exact ⟨.unexpected "numeric value" _, rfl, rfl⟩

/-- **Integer conversions never wrap.** For each of the ten kinds and every value: asking the value
for an integer of the kind gives a number exactly if the value shows this number, as a word or in a
text, and the number is in the range of the kind. Every other value gives a fault about types. -/
theorem conversions_never_wrap (k : IntKind) (v : Value) :
    (∀ n : Int, (k.ofValue v).map Subtype.val = .ok n ↔ v.ShowsInt k.signed n ∧ n ∈ k.range) ∧
      ((∀ n ∈ k.range, ¬ v.ShowsInt k.signed n) →
        ∃ e, k.ofValue v = .error e ∧ e.kind = .typeMismatch) := by
  obtain ⟨e, he, hvalue⟩ := ofValue_eq k v
  constructor
  · intro n
    constructor
    · intro h
      obtain ⟨x, hx, rfl⟩ := of_map_eq_ok h
      rw [hvalue] at hx
      cases hfound : (v.integer? k.signed).bind k.ofInt? with
      | none =>
        rw [hfound] at hx
        cases hx
      | some y =>
        rw [hfound] at hx
        cases hx
        obtain ⟨m, hm, hy⟩ := Option.bind_eq_some_iff.1 hfound
        rw [ofInt?_eq_some.1 hy] at hm
        exact ⟨Value.integer?_eq_some.1 hm, mem_range.2 x.property⟩
    · rintro ⟨hshows, hrange⟩
      have hfound : k.ofInt? n = some ⟨n, mem_range.1 hrange⟩ := ofInt?_eq_some.2 rfl
      rw [hvalue, Value.integer?_eq_some.2 hshows, Option.bind_some, hfound]
      rfl
  · intro hnone
    refine ⟨e, ?_, he⟩
    have hfound : (v.integer? k.signed).bind k.ofInt? = none := by
      rw [Option.bind_eq_none_iff]
      intro m hm
      refine Option.eq_none_iff_forall_ne_some.2 fun x hx => ?_
      have hx := ofInt?_eq_some.1 hx
      exact hnone m (mem_range.2 (hx ▸ x.property)) (Value.integer?_eq_some.1 hm)
    rw [hvalue, hfound]
    rfl

/-- The greatest number of eight bits with a plus, zeros and blanks around it, and an unsigned word
that is one more than the greatest signed one. -/
theorem conversions_never_wrap_of_extremes :
    let text : Value := .str " \t+000255\n"
    let word : Value := .u64 9223372036854775808
    text.ShowsInt false 255 ∧ (255 : Int) ∈ u8.range ∧
      (u8.ofValue text).map Subtype.val = .ok 255 ∧
      (∀ n ∈ i64.range, ¬ word.ShowsInt true n) ∧
      ∃ e, i64.ofValue word = .error e ∧ e.kind = .typeMismatch := by
  intro text word
  have htext : text.ShowsInt false 255 := Value.integer?_eq_some.1 (by decide)
  have hrange : (255 : Int) ∈ u8.range := mem_range.2 (by decide)
  have hword : ∀ n ∈ i64.range, ¬ word.ShowsInt true n := by
    intro n hn h
    obtain rfl : 9223372036854775808 = n := Option.some.inj (Value.integer?_eq_some.2 h)
    exact absurd (mem_range.1 hn) (by decide)
  exact ⟨htext, hrange, ((conversions_never_wrap u8 text).1 255).2 ⟨htext, hrange⟩, hword,
    (conversions_never_wrap i64 word).2 hword⟩

end IntKind

end Stencil
