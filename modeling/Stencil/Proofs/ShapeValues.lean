import Mathlib
import Stencil.Data.Shape
import Stencil.Proofs.ReadingBack

/-!
# What a shape shows, and what it cannot show

A shape becomes a value part by part, and the first part that cannot be kept stops the whole of it.
There are three such parts: a signed and an unsigned integer too wide for 64 bits, and a map with a
key by which no template could ask for its entry (`Shape.Loses`). Anywhere else nothing is lost: what
a value has to show of its shape is said here without converting anything (`Shape.Shows`).

The statements are for data that reports what it holds (`Shape.Standard`): it neither fails by itself
nor fills a map by single calls out of turn. Calls in turn are a map (`toValue_mapCalls`).

> `error_step`: a fault is about the shape itself or comes from a part right inside it.
> `shows_step`: a value shows the shape, if the values of the parts show the parts.
> `fails_or_shows`: a shape fails exactly if something in it cannot be kept, and else its value shows
> all of it in plain data.
-/

namespace Stencil

/-! ## Tables that keep what was written last -/

namespace Table

variable {α : Type}

/-- The table has one entry for each key that was written, with the last value written under it. -/
structure Keeps (writes : List (String × α)) (t : Table α) : Prop where
  nodup : t.keys.Nodup
  last : ∀ key, t.get? key = get? writes.reverse key

theorem nodup_keys_foldl (writes : List (String × α)) {t : Table α} (h : t.keys.Nodup) :
    (keys (writes.foldl (fun t w => t.insert w.1 w.2) t)).Nodup := by
  induction writes generalizing t with
  | nil => exact h
  | cons w rest ih => exact ih (nodup_keys_insert h w.1 w.2)

theorem keeps_ofWrites (writes : List (String × α)) : Keeps writes (ofWrites writes) where
  nodup := nodup_keys_foldl writes .nil
  last key := by rw [ofWrites, get?_foldl, get?, Option.or_none]

end Table

/-! ## Plain values -/

namespace Value

/-- Entries of a map can be asked for by the text of such a value. -/
def isKey : Value → Bool
  | str _ | i64 _ | u64 _ | bool _ => true
  | null | f64 _ | decimal _ | date _ | time _ | dateTime _ | dateTimeUtc _ | list _ | map _
  | object .. => false

/-- The value is this integer. -/
inductive IsInt : Value → Int → Prop where
  | signed (m : Int64) : IsInt (.i64 m) m.toInt
  | unsigned (m : UInt64) : IsInt (.u64 m) m.toNat

/-- No record, decimal or calendar value is in the value, at any depth. -/
inductive Plain : Value → Prop where
  | null : Plain .null
  | bool (b : Bool) : Plain (.bool b)
  | str (s : String) : Plain (.str s)
  | i64 (n : Int64) : Plain (.i64 n)
  | u64 (n : UInt64) : Plain (.u64 n)
  | f64 (x : Float) : Plain (.f64 x)
  | list {items : List Value} (h : ∀ v ∈ items, Plain v) : Plain (.list items)
  | map {entries : Table Value} (h : ∀ e ∈ entries, Plain e.2) : Plain (.map entries)

theorem isInt_i64 {n : Int} (h : -2 ^ 63 ≤ n ∧ n < 2 ^ 63) : IsInt (.i64 (Int64.ofInt n)) n := by
  have hm := IsInt.signed (Int64.ofInt n)
  rwa [Int64.toInt_ofInt_of_le h.1 h.2] at hm

theorem isInt_u64 {n : Nat} (h : n < 2 ^ 64) : IsInt (.u64 (UInt64.ofNat n)) n := by
  have hm := IsInt.unsigned (UInt64.ofNat n)
  rwa [UInt64.toNat_ofNat', Nat.mod_eq_of_lt h] at hm

theorem IsInt.plain {v : Value} {n : Int} (h : v.IsInt n) : v.Plain := by
  cases h with
  | signed m => exact .i64 m
  | unsigned m => exact .u64 m

end Value

theorem IntKind.isInt_toValue (k : IntKind) (n : k.Num) : (k.toValue n).IsInt n.val := by
  unfold toValue
  split
  next hk => exact Value.isInt_i64 (n.property.fits_i64 hk)
  next hk =>
    obtain ⟨hlow, hhigh⟩ := n.property.fits_u64 (Bool.not_eq_true _ ▸ hk)
    have hint := Value.isInt_u64 (n := n.val.toNat) (by omega)
    rwa [Int.toNat_of_nonneg hlow] at hint

namespace Shape

/-! ## Parts -/

/-- The shapes right inside a shape. -/
def parts : Shape → List Shape
  | present s | newtypeStruct s | newtypeVariant _ s => [s]
  | seq items | tuple items | tupleStruct items | tupleVariant _ items => items
  | map entries => entries.map Prod.fst ++ entries.map Prod.snd
  | struct fields | structVariant _ fields => fields.map Prod.snd
  | mapCalls calls => calls.map Prod.snd
  | bool _ | int .. | wideSigned _ | wideUnsigned _ | float32 _ | float _ | char _ | text _ | bytes _
  | absent | unit | unitStruct | unitVariant _ | failing _ => []

/-- A shape that has its parts in order: neither a report that fails nor single calls. -/
def orderly : Shape → Bool
  | mapCalls _ | failing _ => false
  | _ => true

/-- The shape is orderly, and so are all shapes inside. -/
inductive Standard : Shape → Prop where
  | mk {s : Shape} (h : s.orderly = true) (hparts : ∀ part ∈ s.parts, Standard part) : Standard s

/-- A shape stands in a shape: it is the shape, or stands in one of its parts. -/
inductive Occurs (p : Shape) : Shape → Prop where
  | here : Occurs p p
  | inside {s part : Shape} (hpart : part ∈ s.parts) (h : Occurs p part) : Occurs p s

/-- Something of the shape cannot be kept, whatever becomes of its parts. -/
inductive Loses : Shape → Prop where
  | wideSigned {n : Int} (h : ¬ (-2 ^ 63 ≤ n ∧ n < 2 ^ 64)) : Loses (.wideSigned n)
  | wideUnsigned {n : Nat} (h : ¬ n < 2 ^ 64) : Loses (.wideUnsigned n)
  | map {entries : List (Shape × Shape)} {k : Shape} {v : Value} (hk : k ∈ entries.map Prod.fst)
    (hv : k.toValue = .ok v) (h : v.isKey = false) : Loses (.map entries)

/-- The value shows everything that the shape reports. -/
inductive Shows : Shape → Value → Prop where
  | bool (b : Bool) : Shows (.bool b) (.bool b)
  | int {kind : IntKind} {n : kind.Num} {v : Value} (h : v.IsInt n.val) : Shows (.int kind n) v
  | wideSigned {n : Int} {v : Value} (h : v.IsInt n) : Shows (.wideSigned n) v
  | wideUnsigned {n : Nat} {v : Value} (h : v.IsInt n) : Shows (.wideUnsigned n) v
  | float32 (x : Float32) : Shows (.float32 x) (.f64 x.toFloat)
  | float (x : Float) : Shows (.float x) (.f64 x)
  | char (c : Char) : Shows (.char c) (.str (String.singleton c))
  | text (s : String) : Shows (.text s) (.str s)
  | bytes {bs : List UInt8} {vs : List Value}
    (h : List.Forall₂ (fun b v => Value.IsInt v b.toNat) bs vs) : Shows (.bytes bs) (.list vs)
  | absent : Shows .absent .null
  | present {s : Shape} {v : Value} (h : Shows s v) : Shows (.present s) v
  | unit : Shows .unit .null
  | unitStruct : Shows .unitStruct .null
  | unitVariant (variant : String) : Shows (.unitVariant variant) (.str variant)
  | newtypeStruct {s : Shape} {v : Value} (h : Shows s v) : Shows (.newtypeStruct s) v
  | newtypeVariant {variant : String} {s : Shape} {v : Value} (h : Shows s v) :
    Shows (.newtypeVariant variant s) (.map [(variant, v)])
  | seq {items : List Shape} {vs : List Value} (h : List.Forall₂ Shows items vs) :
    Shows (.seq items) (.list vs)
  | tuple {items : List Shape} {vs : List Value} (h : List.Forall₂ Shows items vs) :
    Shows (.tuple items) (.list vs)
  | tupleStruct {items : List Shape} {vs : List Value} (h : List.Forall₂ Shows items vs) :
    Shows (.tupleStruct items) (.list vs)
  | tupleVariant {variant : String} {items : List Shape} {vs : List Value}
    (h : List.Forall₂ Shows items vs) :
    Shows (.tupleVariant variant items) (.map [(variant, .list vs)])
  | map {entries : List (Shape × Shape)} {ks vs : List Value} {t : Table Value}
    (hks : List.Forall₂ Shows (entries.map Prod.fst) ks) (hkeys : ∀ k ∈ ks, k.isKey = true)
    (hvs : List.Forall₂ Shows (entries.map Prod.snd) vs)
    (h : Table.Keeps ((ks.map Value.display).zip vs) t) : Shows (.map entries) (.map t)
  | struct {fields : List (String × Shape)} {vs : List Value} {t : Table Value}
    (hvs : List.Forall₂ Shows (fields.map Prod.snd) vs)
    (h : Table.Keeps ((fields.map Prod.fst).zip vs) t) : Shows (.struct fields) (.map t)
  | structVariant {variant : String} {fields : List (String × Shape)} {vs : List Value}
    {t : Table Value} (hvs : List.Forall₂ Shows (fields.map Prod.snd) vs)
    (h : Table.Keeps ((fields.map Prod.fst).zip vs) t) :
    Shows (.structVariant variant fields) (.map [(variant, .map t)])

/-! ## Integers -/

/-- A signed integer of any width that becomes a value is in one of the two kinds of 64 bits. -/
theorem ofWideSigned_eq_ok {n : Int} {v : Value} (h : ofWideSigned n = .ok v) :
    (-2 ^ 63 ≤ n ∧ n < 2 ^ 64) ∧ v.IsInt n := by
  unfold ofWideSigned at h
  split at h
  next hi =>
    cases h
    have hfits := hi.fits_i64 rfl
    exact ⟨⟨hfits.1, by omega⟩, Value.isInt_i64 hfits⟩
  next =>
    split at h
    next hu =>
      cases h
      obtain ⟨hlow, hhigh⟩ := hu.fits_u64 rfl
      have hint := Value.isInt_u64 (n := n.toNat) (by omega)
      rw [Int.toNat_of_nonneg hlow] at hint
      exact ⟨⟨by omega, hhigh⟩, hint⟩
    next => cases h

theorem ofWideSigned_eq_error {n : Int} {f : Fault} (h : ofWideSigned n = .error f) :
    ¬ (-2 ^ 63 ≤ n ∧ n < 2 ^ 64) ∧ f.kind = .serialization := by
  unfold ofWideSigned at h
  split at h
  next => cases h
  next hi =>
    split at h
    next => cases h
    next hu =>
      cases h
      refine ⟨fun ⟨hlow, hhigh⟩ => ?_, rfl⟩
      -- A number below the unsigned kind is negative, and then it would be of the signed one.
      have hneg : n < 0 := by
        by_contra hn
        exact hu ⟨Int.not_lt.1 hn, Int.le_sub_one_of_lt hhigh⟩
      exact hi ⟨hlow, Int.le_sub_one_of_lt (by omega)⟩

theorem ofWideUnsigned_eq_ok {n : Nat} {v : Value} (h : ofWideUnsigned n = .ok v) :
    n < 2 ^ 64 ∧ v.IsInt n := by
  unfold ofWideUnsigned at h
  split at h
  next hu =>
    cases h
    have hfits : n < 2 ^ 64 := by exact_mod_cast (hu.fits_u64 rfl).2
    exact ⟨hfits, Value.isInt_u64 hfits⟩
  next => cases h

theorem ofWideUnsigned_eq_error {n : Nat} {f : Fault} (h : ofWideUnsigned n = .error f) :
    ¬ n < 2 ^ 64 ∧ f.kind = .serialization := by
  unfold ofWideUnsigned at h
  split at h
  next => cases h
  next hu =>
    cases h
    refine ⟨fun hn => hu ⟨Int.natCast_nonneg n, Int.le_sub_one_of_lt ?_⟩, rfl⟩
    exact_mod_cast hn

/-! ## Rows of parts -/

/-- The value of a shape is there, and it is this one. -/
def Becomes (s : Shape) (v : Value) : Prop := s.toValue = .ok v

variable {s p part : Shape} {v : Value} {f : Fault} {items : List Shape} {vs : List Value}
  {entries : List (Shape × Shape)} {fields : List (String × Shape)} {t t' : Table Value}

theorem keyText_eq_ok {key : String} (h : keyText v = .ok key) :
    v.isKey = true ∧ key = v.display := by
  cases v with
  | str s =>
    cases h
    exact ⟨rfl, by rw [Value.display]⟩
  | i64 n | u64 n | bool b =>
    cases h
    exact ⟨rfl, rfl⟩
  | _ => cases h

theorem keyText_eq_error (h : keyText v = .error f) : v.isKey = false ∧ f.kind = .serialization := by
  cases v with
  | str s | i64 n | u64 n | bool b => cases h
  | _ =>
    cases h
    exact ⟨rfl, rfl⟩

theorem becomes_of_toItems (h : toItems items = .ok vs) : List.Forall₂ Becomes items vs := by
  induction items generalizing vs with
  | nil =>
    rw [toItems] at h
    cases h
    exact .nil
  | cons s rest ih =>
    rw [toItems] at h
    split at h
    next => cases h
    next v hv =>
      obtain ⟨vs', hvs, rfl⟩ := of_map_eq_ok h
      exact .cons hv (ih hvs)

theorem error_of_toItems (h : toItems items = .error f) : ∃ s ∈ items, s.toValue = .error f := by
  induction items with
  | nil =>
    rw [toItems] at h
    cases h
  | cons s rest ih =>
    rw [toItems] at h
    split at h
    next e he =>
      cases h
      exact ⟨s, List.mem_cons_self .., he⟩
    next =>
      obtain ⟨s', hs', he⟩ := ih (of_map_eq_error h)
      exact ⟨s', List.mem_cons_of_mem _ hs', he⟩

theorem becomes_of_toFields (h : toFields fields t = .ok t') :
    ∃ vs, List.Forall₂ Becomes (fields.map Prod.snd) vs ∧
      t' = ((fields.map Prod.fst).zip vs).foldl (fun t w => t.insert w.1 w.2) t := by
  induction fields generalizing t with
  | nil =>
    rw [toFields] at h
    cases h
    exact ⟨[], .nil, rfl⟩
  | cons field rest ih =>
    rw [toFields] at h
    split at h
    next => cases h
    next v hv =>
      obtain ⟨vs, hvs, rfl⟩ := ih h
      exact ⟨v :: vs, .cons hv hvs, rfl⟩

theorem error_of_toFields (h : toFields fields t = .error f) :
    ∃ s ∈ fields.map Prod.snd, s.toValue = .error f := by
  induction fields generalizing t with
  | nil =>
    rw [toFields] at h
    cases h
  | cons field rest ih =>
    rw [toFields] at h
    split at h
    next e he =>
      cases h
      exact ⟨_, List.mem_cons_self .., he⟩
    next =>
      obtain ⟨s, hs, he⟩ := ih h
      exact ⟨s, List.mem_cons_of_mem _ hs, he⟩

theorem becomes_of_toEntries (h : toEntries entries t = .ok t') :
    ∃ ks vs, List.Forall₂ Becomes (entries.map Prod.fst) ks ∧ (∀ k ∈ ks, k.isKey = true) ∧
      List.Forall₂ Becomes (entries.map Prod.snd) vs ∧
      t' = ((ks.map Value.display).zip vs).foldl (fun t w => t.insert w.1 w.2) t := by
  induction entries generalizing t with
  | nil =>
    rw [toEntries] at h
    cases h
    exact ⟨[], [], .nil, List.forall_mem_nil _, .nil, rfl⟩
  | cons entry rest ih =>
    rw [toEntries] at h
    split at h
    next => cases h
    next k hk =>
      split at h
      next => cases h
      next key hkey =>
        split at h
        next => cases h
        next v hv =>
          obtain ⟨hkeyK, rfl⟩ := keyText_eq_ok hkey
          obtain ⟨ks, vs, hks, hkeys, hvs, rfl⟩ := ih h
          exact ⟨k :: ks, v :: vs, .cons hk hks, List.forall_mem_cons.2 ⟨hkeyK, hkeys⟩, .cons hv hvs,
            rfl⟩

/-- The first fault in a map is that of a key, of a value, or that a key cannot be asked for. -/
theorem error_of_toEntries (h : toEntries entries t = .error f) :
    (∃ s ∈ entries.map Prod.fst ++ entries.map Prod.snd, s.toValue = .error f) ∨
      f.kind = .serialization ∧ (map entries).Loses := by
  induction entries generalizing t with
  | nil =>
    rw [toEntries] at h
    cases h
  | cons entry rest ih =>
    rw [toEntries] at h
    split at h
    next e he =>
      cases h
      exact .inl ⟨entry.1, by simp, he⟩
    next k hk =>
      split at h
      next e he =>
        cases h
        obtain ⟨hkey, hkind⟩ := keyText_eq_error he
        exact .inr ⟨hkind, .map (List.mem_cons_self ..) hk hkey⟩
      next key hkey =>
        split at h
        next e he =>
          cases h
          exact .inl ⟨entry.2, by simp, he⟩
        next v hv =>
          rcases ih h with ⟨s, hs, he⟩ | ⟨hkind, hloses⟩
          · refine .inl ⟨s, ?_, he⟩
            rw [List.mem_append] at hs
            rw [List.map_cons, List.map_cons, List.mem_append]
            exact hs.imp (List.mem_cons_of_mem _) (List.mem_cons_of_mem _)
          · cases hloses with
            | map hk hv hkey => exact .inr ⟨hkind, .map (List.mem_cons_of_mem _ hk) hv hkey⟩

/-- Single calls that give each key its value at once fill a map as its entries do. -/
theorem toValue_mapCalls (entries : List (Shape × Shape)) :
    (mapCalls (entries.flatMap fun e => [(.key, e.1), (.value, e.2)])).toValue =
      (map entries).toValue := by
  have hcalls : ∀ t, runCalls (entries.flatMap fun e => [(.key, e.1), (.value, e.2)]) none t =
      toEntries entries t := by
    induction entries with
    | nil => exact fun t => by rw [List.flatMap_nil, runCalls, toEntries]
    | cons entry rest ih =>
      intro t
      simp only [List.flatMap_cons, List.cons_append, List.nil_append, runCalls, toEntries, ih]
  rw [toValue, toValue, hcalls]

/-! ## One shape -/

/-- **Where a fault comes from.** -/
theorem error_step (hs : s.orderly = true) (h : s.toValue = .error f) :
    (∃ part ∈ s.parts, part.toValue = .error f) ∨ f.kind = .serialization ∧ s.Loses := by
  cases s with
  | wideSigned n =>
    rw [toValue] at h
    obtain ⟨hwide, hkind⟩ := ofWideSigned_eq_error h
    exact .inr ⟨hkind, .wideSigned hwide⟩
  | wideUnsigned n =>
    rw [toValue] at h
    obtain ⟨hwide, hkind⟩ := ofWideUnsigned_eq_error h
    exact .inr ⟨hkind, .wideUnsigned hwide⟩
  | present content | newtypeStruct content =>
    rw [toValue] at h
    exact .inl ⟨content, List.mem_singleton.2 rfl, h⟩
  | newtypeVariant variant content =>
    rw [toValue] at h
    exact .inl ⟨content, List.mem_singleton.2 rfl, of_map_eq_error h⟩
  | seq items | tuple items | tupleStruct items | tupleVariant variant items =>
    rw [toValue] at h
    exact .inl (error_of_toItems (of_map_eq_error h))
  | map entries =>
    rw [toValue] at h
    exact error_of_toEntries (of_map_eq_error h)
  | struct fields | structVariant variant fields =>
    rw [toValue] at h
    exact .inl (error_of_toFields (of_map_eq_error h))
  | mapCalls calls | failing reason => cases hs
  | bool | int | float32 | float | char | text | bytes | absent | unit | unitStruct | unitVariant =>
    rw [toValue] at h
    cases h

theorem exists_of_becomes (h : List.Forall₂ Becomes items vs) :
    ∀ part ∈ items, ∃ v, part.toValue = .ok v := by
  induction h with
  | nil => exact List.forall_mem_nil _
  | cons hv _ ih => exact List.forall_mem_cons.2 ⟨⟨_, hv⟩, ih⟩

theorem mem_of_becomes (h : List.Forall₂ Becomes items vs) (hpart : part ∈ items)
    (hv : part.toValue = .ok v) : v ∈ vs := by
  induction h with
  | nil => cases hpart
  | @cons s w rest vs hw _ ih =>
    rcases List.mem_cons.1 hpart with rfl | hpart
    · rw [Becomes, hv, Except.ok.injEq] at hw
      exact hw ▸ List.mem_cons_self ..
    · exact List.mem_cons_of_mem _ (ih hpart)

theorem forall₂_of_becomes {R : Shape → Value → Prop} (h : List.Forall₂ Becomes items vs)
    (hR : ∀ part ∈ items, ∀ v, part.toValue = .ok v → R part v) : List.Forall₂ R items vs := by
  induction h with
  | nil => exact .nil
  | @cons s v rest vs hv _ ih =>
    obtain ⟨hs, hrest⟩ := List.forall_mem_cons.1 hR
    exact .cons (hs v hv) (ih hrest)

/-- **What a value shows.** -/
theorem shows_step (hs : s.orderly = true)
    (hparts : ∀ part ∈ s.parts, ∀ v, part.toValue = .ok v → part.Shows v)
    (h : s.toValue = .ok v) : s.Shows v := by
  cases s with
  | int kind n =>
    rw [toValue] at h
    cases h
    exact .int (kind.isInt_toValue n)
  | wideSigned n =>
    rw [toValue] at h
    exact .wideSigned (ofWideSigned_eq_ok h).2
  | wideUnsigned n =>
    rw [toValue] at h
    exact .wideUnsigned (ofWideUnsigned_eq_ok h).2
  | bytes bs =>
    rw [toValue] at h
    cases h
    refine .bytes (List.forall₂_map_right_iff.2 (List.forall₂_same.2 fun b _ => ?_))
    exact .unsigned b.toUInt64
  | present content =>
    rw [toValue] at h
    exact .present (hparts content (List.mem_singleton.2 rfl) v h)
  | newtypeStruct content =>
    rw [toValue] at h
    exact .newtypeStruct (hparts content (List.mem_singleton.2 rfl) v h)
  | newtypeVariant variant content =>
    rw [toValue] at h
    obtain ⟨w, hw, rfl⟩ := of_map_eq_ok h
    exact .newtypeVariant (hparts content (List.mem_singleton.2 rfl) w hw)
  | seq items | tuple items | tupleStruct items | tupleVariant variant items =>
    rw [toValue] at h
    obtain ⟨vs, hvs, rfl⟩ := of_map_eq_ok h
    have hrow : List.Forall₂ Shows items vs :=
      forall₂_of_becomes (becomes_of_toItems hvs) hparts
    constructor
    exact hrow
  | map entries =>
    rw [toValue] at h
    obtain ⟨t, ht, rfl⟩ := of_map_eq_ok h
    obtain ⟨ks, vs, hks, hkeys, hvs, rfl⟩ := becomes_of_toEntries ht
    obtain ⟨hk, hv⟩ := List.forall_mem_append.1 hparts
    exact .map (forall₂_of_becomes hks hk) hkeys (forall₂_of_becomes hvs hv) (Table.keeps_ofWrites _)
  | struct fields | structVariant variant fields =>
    rw [toValue] at h
    obtain ⟨t, ht, rfl⟩ := of_map_eq_ok h
    obtain ⟨vs, hvs, rfl⟩ := becomes_of_toFields ht
    have hrow : List.Forall₂ Shows (fields.map Prod.snd) vs := forall₂_of_becomes hvs hparts
    constructor
    · exact hrow
    · exact Table.keeps_ofWrites _
  | mapCalls calls | failing reason => cases hs
  | bool | float32 | float | char | text | absent | unit | unitStruct | unitVariant =>
    rw [toValue] at h
    cases h
    constructor

/-- **A value is there only if all parts have one, and nothing of the shape itself is lost.** -/
theorem whole_step (hs : s.orderly = true) (h : s.toValue = .ok v) :
    (∀ part ∈ s.parts, ∃ w, part.toValue = .ok w) ∧ ¬ s.Loses := by
  cases s with
  | wideSigned n =>
    rw [toValue] at h
    refine ⟨List.forall_mem_nil _, fun hloses => ?_⟩
    cases hloses with
    | wideSigned hwide => exact hwide (ofWideSigned_eq_ok h).1
  | wideUnsigned n =>
    rw [toValue] at h
    refine ⟨List.forall_mem_nil _, fun hloses => ?_⟩
    cases hloses with
    | wideUnsigned hwide => exact hwide (ofWideUnsigned_eq_ok h).1
  | present content | newtypeStruct content =>
    rw [toValue] at h
    exact ⟨List.forall_mem_singleton.2 ⟨v, h⟩, nofun⟩
  | newtypeVariant variant content =>
    rw [toValue] at h
    obtain ⟨w, hw, -⟩ := of_map_eq_ok h
    exact ⟨List.forall_mem_singleton.2 ⟨w, hw⟩, nofun⟩
  | seq items | tuple items | tupleStruct items | tupleVariant variant items =>
    rw [toValue] at h
    obtain ⟨vs, hvs, -⟩ := of_map_eq_ok h
    exact ⟨exists_of_becomes (becomes_of_toItems hvs), nofun⟩
  | map entries =>
    rw [toValue] at h
    obtain ⟨t, ht, -⟩ := of_map_eq_ok h
    obtain ⟨ks, vs, hks, hkeys, hvs, -⟩ := becomes_of_toEntries ht
    refine ⟨List.forall_mem_append.2 ⟨exists_of_becomes hks, exists_of_becomes hvs⟩, fun hloses => ?_⟩
    cases hloses with
    | map hk hw hkey =>
      exact Bool.false_ne_true (hkey.symm.trans (hkeys _ (mem_of_becomes hks hk hw)))
  | struct fields | structVariant variant fields =>
    rw [toValue] at h
    obtain ⟨t, ht, -⟩ := of_map_eq_ok h
    obtain ⟨vs, hvs, -⟩ := becomes_of_toFields ht
    exact ⟨exists_of_becomes hvs, nofun⟩
  | mapCalls calls | failing reason => cases hs
  | bool | int | float32 | float | char | text | bytes | absent | unit | unitStruct | unitVariant =>
    exact ⟨List.forall_mem_nil _, nofun⟩

/-! ## Plain values -/

theorem plain_of_forall₂ {α : Type} {R : α → Value → Prop} {xs : List α} (h : List.Forall₂ R xs vs)
    (hR : ∀ x ∈ xs, ∀ v, R x v → v.Plain) : ∀ v ∈ vs, v.Plain := by
  induction h with
  | nil => exact List.forall_mem_nil _
  | @cons x v rest vs hv _ ih =>
    obtain ⟨hx, hrest⟩ := List.forall_mem_cons.1 hR
    exact List.forall_mem_cons.2 ⟨hx v hv, ih hrest⟩

theorem plain_of_keeps {keys : List String} (h : Table.Keeps (keys.zip vs) t)
    (hvs : ∀ v ∈ vs, v.Plain) : (Value.map t).Plain := by
  refine .map fun e he => ?_
  have hlast := h.last e.1
  rw [Table.get?_of_mem h.nodup he] at hlast
  exact hvs _ (List.of_mem_zip (List.mem_reverse.1 (Table.mem_of_get? hlast.symm))).2

theorem plain_underVariant (variant : String) (h : v.Plain) : (Value.map [(variant, v)]).Plain :=
  .map (List.forall_mem_singleton.2 h)

theorem plain_step (hparts : ∀ part ∈ s.parts, ∀ v, part.Shows v → v.Plain) (h : s.Shows v) :
    v.Plain := by
  cases h with
  | bool b => exact .bool b
  | int h | wideSigned h | wideUnsigned h => exact h.plain
  | float32 x => exact .f64 _
  | float x => exact .f64 x
  | char c => exact .str _
  | text s => exact .str s
  | bytes h => exact .list (plain_of_forall₂ h fun _ _ _ hb => hb.plain)
  | absent | unit | unitStruct => exact .null
  | unitVariant variant => exact .str variant
  | present h | newtypeStruct h => exact hparts _ (List.mem_singleton.2 rfl) v h
  | newtypeVariant h => exact plain_underVariant _ (hparts _ (List.mem_singleton.2 rfl) _ h)
  | seq h | tuple h | tupleStruct h => exact .list (plain_of_forall₂ h hparts)
  | tupleVariant h => exact plain_underVariant _ (.list (plain_of_forall₂ h hparts))
  | map hks hkeys hvs ht =>
    exact plain_of_keeps ht (plain_of_forall₂ hvs (List.forall_mem_append.1 hparts).2)
  | struct hvs ht => exact plain_of_keeps ht (plain_of_forall₂ hvs hparts)
  | structVariant hvs ht =>
    exact plain_underVariant _ (plain_of_keeps ht (plain_of_forall₂ hvs hparts))

/-! ## Whole shapes -/

/-- A fault is about serialization, and something in the shape cannot be kept. -/
theorem Standard.of_error (hs : s.Standard) (h : s.toValue = .error f) :
    f.kind = .serialization ∧ ∃ p : Shape, p.Occurs s ∧ p.Loses := by
  induction hs with
  | @mk s horderly _ ih =>
    rcases error_step horderly h with ⟨part, hpart, he⟩ | ⟨hkind, hloses⟩
    · obtain ⟨hkind, p, hp, hloses⟩ := ih part hpart he
      exact ⟨hkind, p, .inside hpart hp, hloses⟩
    · exact ⟨hkind, s, .here, hloses⟩

/-- Where there is a value, all that is in the shape was kept. -/
theorem Standard.not_loses (hs : s.Standard) (h : s.toValue = .ok v)
    (hp : p.Occurs s) : ¬ p.Loses := by
  induction hp generalizing v with
  | here =>
    obtain ⟨horderly, -⟩ := hs
    exact (whole_step horderly h).2
  | @inside s part hpart _ ih =>
    obtain ⟨horderly, hparts⟩ := hs
    obtain ⟨w, hw⟩ := (whole_step horderly h).1 part hpart
    exact ih (hparts part hpart) hw

theorem Standard.shows (hs : s.Standard) (h : s.toValue = .ok v) : s.Shows v := by
  induction hs generalizing v with
  | mk horderly _ ih => exact shows_step horderly (fun part hpart w hw => ih part hpart hw) h

theorem Standard.plain (hs : s.Standard) (h : s.Shows v) : v.Plain := by
  induction hs generalizing v with
  | mk _ _ ih => exact plain_step (fun part hpart w hw => ih part hpart hw) h

/-- **A shape fails, or its value shows all of it.** Of a shape that is made of scalars, optional data,
wrappers, sequences, maps, structures and variants, nested in any way, there is no value if and only
if an integer too wide for 64 bits is in it, or a map one of whose keys becomes a value that is no
text, integer or truth value. The fault is one of serialization.

Otherwise the value is plain data, and it shows the shape: each integer is exactly its number, rows
keep their items in order, each map and each structure has one entry for each text of its keys, with
the value that was given for it last, and a variant with data is a map of one entry under its name. -/
theorem fails_or_shows (s : Shape) (hs : s.Standard) :
    ((∃ f, s.toValue = .error f) ↔ ∃ p : Shape, p.Occurs s ∧ p.Loses) ∧
      (∀ f, s.toValue = .error f → f.kind = .serialization) ∧
      ∀ v, s.toValue = .ok v → v.Plain ∧ s.Shows v := by
  refine ⟨⟨fun ⟨f, h⟩ => (hs.of_error h).2, fun ⟨p, hp, hloses⟩ => ?_⟩,
    fun f h => (hs.of_error h).1, fun v h => ⟨hs.plain (hs.shows h), hs.shows h⟩⟩
  cases h : s.toValue with
  | error f => exact ⟨f, rfl⟩
  | ok v => exact absurd hloses (hs.not_loses h hp)

/-- Two keys of one text, the widest integer in a variant, and one that is too wide. -/
theorem fails_or_shows_of_collision :
    let s : Shape := .structVariant "Entry" [("id", .wideUnsigned 18446744073709551615),
      ("of", .map [(.int .u8 ⟨1, by decide⟩, .absent), (.text "1", .char 'b')])]
    let wide : Shape := .tuple [.unit, .present (.wideUnsigned 18446744073709551616)]
    s.Standard ∧ wide.Standard ∧
      s.Shows (.map [("Entry",
        .map [("id", .u64 18446744073709551615), ("of", .map [("1", .str "b")])])]) ∧
      ∃ f, wide.toValue = .error f := by
  intro s wide
  have hleaf : ∀ p : Shape, p.orderly = true → p.parts = [] → p.Standard :=
    fun p horderly hparts => .mk horderly (hparts ▸ List.forall_mem_nil _)
  have hs : s.Standard := by
    refine .mk rfl (List.forall_mem_cons.2 ⟨hleaf _ rfl rfl, List.forall_mem_singleton.2 ?_⟩)
    refine .mk rfl fun p hp => ?_
    simp only [parts, List.map_cons, List.map_nil, List.cons_append, List.nil_append, List.mem_cons,
      List.not_mem_nil, or_false] at hp
    rcases hp with rfl | rfl | rfl | rfl <;> exact hleaf _ rfl rfl
  have hwide : wide.Standard := by
    refine .mk rfl (List.forall_mem_cons.2 ⟨hleaf _ rfl rfl, List.forall_mem_singleton.2 ?_⟩)
    exact .mk rfl (List.forall_mem_singleton.2 (hleaf _ rfl rfl))
  have hvalue : s.toValue = .ok (.map [("Entry",
      .map [("id", .u64 18446744073709551615), ("of", .map [("1", .str "b")])])]) := by
    simp only [s, toValue, toFields, toEntries]
    rfl
  have hlost : (Shape.wideUnsigned 18446744073709551616).Occurs wide :=
    .inside (List.mem_cons_of_mem _ (List.mem_cons_self ..)) (.inside (List.mem_cons_self ..) .here)
  exact ⟨hs, hwide, ((fails_or_shows s hs).2.2 _ hvalue).2,
    (fails_or_shows wide hwide).1.2 ⟨_, hlost, .wideUnsigned (by decide)⟩⟩

end Shape

end Stencil
