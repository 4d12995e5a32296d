/-!
# Tables: entries under text keys

A table is a list of entries in the order in which their keys first arrived. Writing under a
key that is there already replaces the value in place, so a table built by `insert` never
holds a key twice (`nodup_keys_insert`), and reading sees exactly the last write
(`get?_insert`).

The order of arrival is kept but nothing that a template prints depends on it: whatever lists
the entries of a table goes through `sorted`, the entries in ascending order of their keys
(the order of code points).
-/

namespace Stencil

/-- Entries under text keys, in order of arrival. -/
abbrev Table (α : Type) := List (String × α)

namespace Table

variable {α β : Type}

/-- The value under a key; the first entry counts if a key is there twice. -/
def get? : Table α → String → Option α
  | [], _ => none
  | (k, v) :: rest, key => if k = key then some v else get? rest key

/-- Writes a value under a key: in place where the key is there, at the end otherwise. -/
def insert : Table α → String → α → Table α
  | [], key, value => [(key, value)]
  | (k, v) :: rest, key, value =>
    if k = key then (k, value) :: rest else (k, v) :: insert rest key value

/-- The keys in order of arrival. -/
def keys (t : Table α) : List String := t.map Prod.fst

/-- The table that a list of writes leaves behind; the last write under a key wins. -/
def ofWrites (writes : List (String × α)) : Table α :=
  writes.foldl (fun t entry => t.insert entry.1 entry.2) []

/-- Whether some value stands under the key. -/
def has (t : Table α) (key : String) : Bool := (t.get? key).isSome

/-- Puts an entry before the first entry with a greater key. -/
def place (entry : String × α) : Table α → Table α
  | [] => [entry]
  | e :: rest => if entry.1 < e.1 then entry :: e :: rest else e :: place entry rest

/-- The entries in ascending order of their keys. -/
def sorted : Table α → Table α
  | [] => []
  | e :: rest => place e (sorted rest)

/-- The same keys with every value changed by `f`. -/
def mapValues (f : α → β) (t : Table α) : Table β := t.map fun entry => (entry.1, f entry.2)

theorem get?_insert (t : Table α) (key other : String) (value : α) :
    (t.insert key value).get? other = if key = other then some value else t.get? other := by
  induction t with
  | nil => simp [insert, get?]
  | cons e rest ih =>
    obtain ⟨k, v⟩ := e
    by_cases hk : k = key
    · subst hk
      by_cases ho : k = other <;> simp [insert, get?, ho]
    · by_cases ho : k = other
      · subst ho
        simp [insert, get?, hk, Ne.symm hk]
      · simp [insert, get?, hk, ho, ih]

theorem get?_append (t u : Table α) (key : String) :
    get? (t ++ u) key = (t.get? key).or (get? u key) := by
  induction t with
  | nil => rfl
  | cons e rest ih =>
    obtain ⟨k, v⟩ := e
    by_cases hk : k = key
    · simp [get?, hk]
    · simp [get?, hk, ih]

/-- What stands under a key is one of the entries. -/
theorem mem_of_get? {t : Table α} {key : String} {value : α} (h : t.get? key = some value) :
    (key, value) ∈ t := by
  induction t with
  | nil => cases h
  | cons e rest ih =>
    obtain ⟨k, v⟩ := e
    by_cases hk : k = key
    · simp only [get?, hk, if_true, Option.some.injEq] at h
      simp [hk, h]
    · simp only [get?, hk, if_false] at h
      exact List.mem_cons_of_mem _ (ih h)

theorem get?_mapValues (f : α → β) (t : Table α) (key : String) :
    get? (t.mapValues f) key = (t.get? key).map f := by
  induction t with
  | nil => rfl
  | cons e rest ih =>
    obtain ⟨k, v⟩ := e
    by_cases hk : k = key
    · simp [mapValues, get?, hk]
    · simpa [mapValues, get?, hk] using ih

/-- Under a key that is there, something is found. -/
theorem exists_get?_of_mem_keys {t : Table α} {key : String} (h : key ∈ t.keys) :
    ∃ value, t.get? key = some value := by
  induction t with
  | nil => cases h
  | cons e rest ih =>
    obtain ⟨k, v⟩ := e
    by_cases hk : k = key
    · exact ⟨v, by simp [get?, hk]⟩
    · simp only [keys, List.map_cons, List.mem_cons, Ne.symm hk, false_or] at h
      simpa [get?, hk] using ih h

theorem mem_keys_iff {t : Table α} {key : String} : key ∈ t.keys ↔ (t.get? key).isSome = true := by
  constructor
  · intro h
    obtain ⟨value, hvalue⟩ := exists_get?_of_mem_keys h
    rw [hvalue]
    rfl
  · intro h
    obtain ⟨value, hvalue⟩ := Option.isSome_iff_exists.1 h
    exact List.mem_map.2 ⟨_, mem_of_get? hvalue, rfl⟩

theorem get?_eq_none_iff {t : Table α} {key : String} : t.get? key = none ↔ key ∉ t.keys := by
  rw [mem_keys_iff, Option.not_isSome_iff_eq_none]

/-- Where no key is there twice, every entry is found. -/
theorem get?_of_mem {t : Table α} {key : String} {value : α} (h : t.keys.Nodup)
    (hmem : (key, value) ∈ t) : t.get? key = some value := by
  induction t with
  | nil => cases hmem
  | cons e rest ih =>
    obtain ⟨k, v⟩ := e
    simp only [keys, List.map_cons, List.nodup_cons] at h
    rcases List.mem_cons.1 hmem with heq | hmem
    · obtain ⟨rfl, rfl⟩ := Prod.mk.inj heq
      simp [get?]
    · have hne : k ≠ key := by
        rintro rfl
        exact h.1 (List.mem_map.2 ⟨_, hmem, rfl⟩)
      simpa [get?, hne] using ih h.2 hmem

/-- Where all entries under a key agree, their value is found. -/
theorem get?_of_agree {t : Table α} {key : String} {value : α} (hmem : (key, value) ∈ t)
    (hsame : ∀ e ∈ t, e.1 = key → e.2 = value) : t.get? key = some value := by
  obtain ⟨other, hother⟩ := exists_get?_of_mem_keys (t := t) (List.mem_map.2 ⟨_, hmem, rfl⟩)
  rw [hother]
  exact congrArg some (hsame _ (mem_of_get? hother) rfl)

theorem insert_ne_nil (t : Table α) (key : String) (value : α) : t.insert key value ≠ [] := by
  intro hnil
  have hfound := get?_insert t key key value
  rw [hnil, if_pos rfl] at hfound
  cases hfound

/-- Writing under a new key puts the entry at the end. -/
theorem insert_of_new {t : Table α} {key : String} (h : key ∉ t.keys) (value : α) :
    t.insert key value = t ++ [(key, value)] := by
  induction t with
  | nil => rfl
  | cons e rest ih =>
    obtain ⟨k, v⟩ := e
    simp only [keys, List.map_cons, List.mem_cons, not_or] at h
    rw [insert, if_neg (Ne.symm h.1), ih h.2]
    rfl

theorem mem_keys_insert {t : Table α} {key other : String} {value : α} :
    other ∈ (t.insert key value).keys ↔ other = key ∨ other ∈ t.keys := by
  induction t with
  | nil => simp [insert, keys]
  | cons e rest ih =>
    obtain ⟨k, v⟩ := e
    simp only [keys, List.mem_map] at ih
    by_cases hk : k = key
    · subst hk; simp [insert, keys]
    · simp only [insert, hk, keys, List.map_cons, List.mem_cons, List.mem_map, if_false, ih]
      constructor
      · rintro (h | h | h) <;> simp [h]
      · rintro (h | h | h) <;> simp [h]

theorem nodup_keys_insert {t : Table α} (h : t.keys.Nodup) (key : String) (value : α) :
    (t.insert key value).keys.Nodup := by
  induction t with
  | nil => simp [insert, keys]
  | cons e rest ih =>
    obtain ⟨k, v⟩ := e
    simp only [keys, List.map_cons, List.nodup_cons] at h
    by_cases hk : k = key
    · subst hk; simpa [insert, keys] using h
    · have hmem : k ∉ (insert rest key value).keys := by
        rw [mem_keys_insert]
        rintro (h' | h')
        · exact hk h'
        · exact h.1 h'
      have := ih h.2
      simp only [insert, hk, if_false]
      exact List.nodup_cons.2 ⟨hmem, this⟩

/-- Of a row of writes the last one under a key counts. -/
theorem get?_foldl (writes : List (String × α)) (t : Table α) (key : String) :
    get? (writes.foldl (fun t w => t.insert w.1 w.2) t) key =
      (get? writes.reverse key).or (t.get? key) := by
  induction writes generalizing t with
  | nil => rfl
  | cons w rest ih =>
    rw [List.foldl_cons, ih, get?_insert, List.reverse_cons, get?_append, Option.or_assoc, get?]
    by_cases hw : w.1 = key
    · rw [if_pos hw, if_pos hw]
      rfl
    · rw [if_neg hw, if_neg hw]
      rfl

/-- Writes of other keys leave what stands under a key. -/
theorem get?_foldl_insert_of_notMem {writes : List (String × α)} {key : String}
    (h : ∀ value, (key, value) ∉ writes) (t : Table α) :
    get? (writes.foldl (fun t w => t.insert w.1 w.2) t) key = t.get? key := by
  induction writes generalizing t with
  | nil => rfl
  | cons w rest ih =>
    have hw : w.1 ≠ key := by
      rintro rfl
      exact h w.2 (List.mem_cons_self ..)
    rw [List.foldl_cons, ih (fun value hmem => h value (List.mem_cons_of_mem _ hmem)),
      get?_insert, if_neg hw]

/-- Where all writes of a key agree, their value stands under the key in the end. -/
theorem get?_foldl_insert {writes : List (String × α)} {key : String} {value : α}
    (hmem : (key, value) ∈ writes) (hsame : ∀ other, (key, other) ∈ writes → other = value)
    (t : Table α) : get? (writes.foldl (fun t w => t.insert w.1 w.2) t) key = some value := by
  induction writes generalizing t with
  | nil => cases hmem
  | cons w rest ih =>
    rw [List.foldl_cons]
    by_cases hrest : (key, value) ∈ rest
    · exact ih hrest (fun other h => hsame other (List.mem_cons_of_mem _ h)) _
    · have hw : w = (key, value) := ((List.mem_cons.1 hmem).resolve_right hrest).symm
      have hnot : ∀ other, (key, other) ∉ rest := by
        intro other hother
        have := hsame other (List.mem_cons_of_mem _ hother)
        exact hrest (this ▸ hother)
      rw [get?_foldl_insert_of_notMem hnot, hw, get?_insert, if_pos rfl]

theorem mem_place {entry e : String × α} {t : Table α} :
    e ∈ place entry t ↔ e = entry ∨ e ∈ t := by
  induction t with
  | nil => simp [place]
  | cons x rest ih =>
    by_cases hlt : entry.1 < x.1
    · simp [place, hlt]
    · simp only [place, hlt, if_false, List.mem_cons, ih]
      constructor
      · rintro (h | h | h) <;> simp [h]
      · rintro (h | h | h) <;> simp [h]

theorem mem_sorted {e : String × α} {t : Table α} : e ∈ t.sorted ↔ e ∈ t := by
  induction t with
  | nil => simp [sorted]
  | cons x rest ih => simp [sorted, mem_place, ih]

theorem length_place (entry : String × α) (t : Table α) :
    (place entry t).length = t.length + 1 := by
  induction t with
  | nil => rfl
  | cons x rest ih =>
    by_cases hlt : entry.1 < x.1
    · simp [place, hlt]
    · simp [place, hlt, ih]

@[simp]
theorem length_sorted (t : Table α) : t.sorted.length = t.length := by
  induction t with
  | nil => rfl
  | cons x rest ih => simp [sorted, length_place, ih]

end Table

end Stencil
