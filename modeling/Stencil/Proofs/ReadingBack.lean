import Mathlib
import Stencil.Data.Conversion

/-!
# Data that comes back from a value

Data is shown to templates as values (`DataType.toValue`), and a helper may ask for a value as data
again (`DataType.ofValue`). For scalars this is a matter of widths: each integer kind fits the
64 bits of the value that shows it, and what was shown is in range when it is read.

Null stands for missing optional data, so an optional must not stand on a type that shows null as
data of its own. In readable types that is another optional, or a value.

> `IntKind.ofValue_toValue`: an integer of any kind comes back.
> `comes_back_iff`: all data of a type comes back exactly if no optional in it, at any depth, stands
> on an optional or on a value.
-/

namespace Stencil

/-! ## Integers -/

namespace IntKind

variable {k : IntKind} {n : Int}

theorem Holds.fits_i64 (h : k.Holds n) (hk : k.signed = true) : -2 ^ 63 ≤ n ∧ n < 2 ^ 63 := by
  have hleast : -2 ^ 63 ≤ k.least := by
    cases k with
    | i8 | i16 | i32 | i64 | isize => decide
    | u8 | u16 | u32 | u64 | usize => cases hk
  have hgreatest : k.greatest < 2 ^ 63 := by
    cases k with
    | i8 | i16 | i32 | i64 | isize => decide
    | u8 | u16 | u32 | u64 | usize => cases hk
  exact ⟨Int.le_trans hleast h.1, Int.lt_of_le_of_lt h.2 hgreatest⟩

theorem Holds.fits_u64 (h : k.Holds n) (hk : k.signed = false) : 0 ≤ n ∧ n < 2 ^ 64 := by
  have hleast : 0 ≤ k.least := by
    cases k with
    | i8 | i16 | i32 | i64 | isize => cases hk
    | u8 | u16 | u32 | u64 | usize => decide
  have hgreatest : k.greatest < 2 ^ 64 := by
    cases k with
    | i8 | i16 | i32 | i64 | isize => cases hk
    | u8 | u16 | u32 | u64 | usize => decide
  exact ⟨Int.le_trans hleast h.1, Int.lt_of_le_of_lt h.2 hgreatest⟩

theorem ofInt?_val (n : k.Num) : k.ofInt? n.val = some n := dif_pos n.property

/-- The variant that shows an integer has room for it, and its range is checked against the
number that was shown. -/
theorem ofValue_toValue (k : IntKind) (n : k.Num) : k.ofValue (k.toValue n) = .ok n := by
  unfold toValue
  split
  next hk =>
    obtain ⟨hlow, hhigh⟩ := n.property.fits_i64 hk
    have hshown : (Int64.ofInt n.val).toInt = n.val := Int64.toInt_ofInt_of_le hlow hhigh
    simp only [ofValue, hshown, ofInt?_val, Option.map_some, Option.getD_some]
  next hk =>
    obtain ⟨hlow, hhigh⟩ := n.property.fits_u64 (Bool.not_eq_true _ ▸ hk)
    have hshown : ((UInt64.ofNat n.val.toNat).toNat : Int) = n.val := by
      rw [UInt64.toNat_ofNat']
      omega
    simp only [ofValue, hshown, ofInt?_val, Option.map_some, Option.getD_some]

end IntKind

/-! ## Nested types -/

namespace DataType

/-- Null is data of the type: it stands for missing data, or it is a value as it is. -/
def admitsNull : DataType → Bool
  | option _ | value => true
  | _ => false

/-- No optional of the type, at any depth, stands on a type that has null as data. -/
def optionsApart : DataType → Bool
  | option t => !t.admitsNull && t.optionsApart
  | reference t | list t | map t => t.optionsApart
  | _ => true

variable {t : DataType}

/-- Of the readable types, only those that have null as data show null. -/
theorem toValue_not_null (h : t.readable = true) (ht : t.admitsNull = false) (x : t.Carrier) :
    (t.toValue x).isNull = false := by
  cases t with
  | int k =>
    simp only [toValue, IntKind.toValue]
    split
    next => rfl
    next => rfl
  | float | bool | text | decimal | date | dateTime | dateTimeUtc | list | map => rfl
  | float32 | char | unit | time | reference => cases h
  | value | option => cases ht

/-- Where null is data, some data of the type is shown as null. -/
theorem exists_toValue_null (ht : t.admitsNull = true) :
    ∃ x : t.Carrier, t.toValue x = .null := by
  cases t with
  | value => exact ⟨.null, rfl⟩
  | option t => exact ⟨none, rfl⟩
  | _ => cases ht

theorem convertItems_map {f : Value → Except Fault t.Carrier} (xs : List t.Carrier)
    (h : ∀ x ∈ xs, f (t.toValue x) = .ok x) : convertItems f (xs.map t.toValue) = .ok xs := by
  induction xs with
  | nil => rfl
  | cons x rest ih =>
    have hrest := ih fun y hy => h y (List.mem_cons_of_mem x hy)
    simp only [List.map_cons, convertItems, h x (List.mem_cons_self ..), hrest]

theorem convertEntries_mapValues {f : Value → Except Fault t.Carrier} (entries : Table t.Carrier)
    (h : ∀ e ∈ entries, f (t.toValue e.2) = .ok e.2) :
    convertEntries f (entries.mapValues t.toValue) = .ok entries := by
  induction entries with
  | nil => rfl
  | cons e rest ih =>
    have hrest := ih fun e' he => h e' (List.mem_cons_of_mem e he)
    simp only [Table.mapValues] at hrest
    simp only [Table.mapValues, List.map_cons, convertEntries, h e (List.mem_cons_self ..), hrest]

/-- Reading present optional data whose value is not null reads the data. -/
theorem ofValue_toValue_some (h : t.readable = true) (ht : t.admitsNull = false) (x : t.Carrier) :
    t.option.ofValue h (t.option.toValue (some x)) = (t.ofValue h (t.toValue x)).map some := by
  change (if (t.toValue x).isNull then _ else _) = _
  rw [toValue_not_null h ht x]
  rfl

theorem ofValue_toValue (h : t.readable = true) (ht : t.optionsApart = true) (x : t.Carrier) :
    t.ofValue h (t.toValue x) = .ok x := by
  induction t with
  | int k => exact k.ofValue_toValue x
  | float | bool | text | decimal | date | dateTime | dateTimeUtc | value => rfl
  | float32 | char | unit | time | reference => cases h
  | option t ih =>
    cases x with
    | none => rfl
    | some x =>
      obtain ⟨hnull, ht⟩ := Bool.and_eq_true_iff.1 ht
      rw [ofValue_toValue_some (t := t) h (Bool.not_eq_true' _ ▸ hnull), ih h ht x]
      rfl
  | list t ih => exact convertItems_map x fun y _ => ih h ht y
  | map t ih => exact convertEntries_mapValues x fun e _ => ih h ht e.2

/-- An optional on a type that has null as data loses something: present null becomes missing. -/
theorem exists_lost (h : t.readable = true) (ht : t.optionsApart = false) :
    ∃ x : t.Carrier, t.ofValue h (t.toValue x) ≠ .ok x := by
  induction t with
  | option t ih =>
    cases hnull : t.admitsNull with
    | true =>
      -- Null that is present and data that is missing are the same value.
      obtain ⟨x, hx⟩ := exists_toValue_null hnull
      refine ⟨some x, fun hback => ?_⟩
      change (if (t.toValue x).isNull then _ else _) = _ at hback
      rw [hx] at hback
      cases hback
    | false =>
      have ht' : t.optionsApart = false := by simpa [optionsApart, hnull] using ht
      obtain ⟨x, hx⟩ := ih h ht'
      refine ⟨some x, fun hback => hx ?_⟩
      rw [ofValue_toValue_some (t := t) h hnull] at hback
      cases hread : t.ofValue h (t.toValue x) with
      | error e =>
        rw [hread] at hback
        cases hback
      | ok y =>
        rw [hread] at hback
        cases hback
        rfl
  | list t ih =>
    obtain ⟨x, hx⟩ := ih h ht
    refine ⟨[x], fun hback => hx ?_⟩
    change convertItems (t.ofValue h) [t.toValue x] = _ at hback
    unfold convertItems at hback
    split at hback
    next => cases hback
    next hread =>
      cases hback
      exact hread
  | map t ih =>
    obtain ⟨x, hx⟩ := ih h ht
    refine ⟨[("", x)], fun hback => hx ?_⟩
    change convertEntries (t.ofValue h) [("", t.toValue x)] = _ at hback
    unfold convertEntries at hback
    split at hback
    next => cases hback
    next hread =>
      cases hback
      exact hread
  | float32 | char | unit | time | reference => cases h
  | int | float | bool | text | decimal | date | dateTime | dateTimeUtc | value => cases ht

/-- **Data comes back from its value.** Of a readable type, all data shown as a value is read back
as the same data exactly if no optional in the type, at any depth, stands directly on an optional
or on a value. -/
theorem comes_back_iff (t : DataType) (h : t.readable = true) :
    (∀ x, t.ofValue h (t.toValue x) = .ok x) ↔ t.optionsApart = true := by
  constructor
  · intro hback
    cases ht : t.optionsApart with
    | true => rfl
    | false =>
      obtain ⟨x, hx⟩ := exists_lost h ht
      exact absurd (hback x) hx
  · exact fun ht => ofValue_toValue h ht

/-- Missing items and the numbers at both ends of a kind, in lists in a map; and present data that
is missing itself, which comes back as missing. -/
theorem comes_back_iff_of_nested :
    let t := DataType.map (.option (.list (.option (.int .i64))))
    let least : IntKind.Num .i64 := ⟨-9223372036854775808, by decide⟩
    let greatest : IntKind.Num .i64 := ⟨9223372036854775807, by decide⟩
    let x := [("a", some [some least, none, some greatest]), ("b", none)]
    ∃ h : t.readable = true, t.ofValue h (t.toValue x) = .ok x ∧
      ∃ h : (option (option bool)).readable = true,
        (option (option bool)).ofValue h ((option (option bool)).toValue (some none)) = .ok none ∧
          ¬ ∀ y, (option (option bool)).ofValue h ((option (option bool)).toValue y) = .ok y := by
  intro t least greatest x
  refine ⟨rfl, (comes_back_iff t rfl).2 rfl x, rfl, rfl, fun hback => ?_⟩
  exact absurd ((comes_back_iff (option (option bool)) rfl).1 hback) Bool.false_ne_true

end DataType

end Stencil
