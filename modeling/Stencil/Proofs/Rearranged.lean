import Stencil.Render
import Mathlib

/-!
# Values up to the order of entries

The entries of a map have an order, that of their arrival, and nobody should see it. Two values
are the same up to this order (`Value.Rearranged`) if they are built alike and each map in them,
at any depth, has the same keys with values that are the same again. What a template can ask of a
value is then the same:

> `Table.Rearranged.sorted`: the entries in ascending order of their keys correspond one by one.
> `Value.Rearranged.display`: so the two values have one text; they are true or false together.
> `iterations_rearranged`: loops over them go through the same scopes.
> `Scopes.Rearranged.lookup`: paths lead to the same places in them.

The last one is up to the resolvers: they must not see the order of entries either
(`Resolver.OrderBlind`), and those of the default chain do not.
-/

namespace Stencil

/-! ## Tables with the same keys -/

section

variable {α β : Type} {R : α → β → Prop}

theorem isSome_eq_of_rel {a : Option α} {b : Option β} (h : Option.Rel R a b) :
    a.isSome = b.isSome := by
  cases h <;> rfl

theorem rel_of_isSome {a : Option α} {b : Option β} (hsome : a.isSome = b.isSome)
    (h : ∀ v w, a = some v → b = some w → R v w) : Option.Rel R a b := by
  cases a with
  | none =>
    cases b with
    | none => exact .none
    | some w => cases hsome
  | some v =>
    cases b with
    | none => cases hsome
    | some w => exact .some (h v w rfl rfl)

theorem rel_map {γ δ : Type} {S : γ → δ → Prop} {f : α → γ} {g : β → δ} {a : Option α}
    {b : Option β} (h : Option.Rel R a b) (hfg : ∀ v w, R v w → S (f v) (g w)) :
    Option.Rel S (a.map f) (b.map g) := by
  cases h with
  | none => exact .none
  | some h => exact .some (hfg _ _ h)

theorem forall₂_of_index {as : List α} {bs : List β} (hlength : as.length = bs.length)
    (h : ∀ (i : Nat) v w, as[i]? = some v → bs[i]? = some w → R v w) : List.Forall₂ R as bs := by
  induction as generalizing bs with
  | nil =>
    rw [List.length_eq_zero_iff.1 hlength.symm]
    exact .nil
  | cons a as ih =>
    cases bs with
    | nil => cases hlength
    | cons b bs =>
      refine .cons (h 0 a b rfl rfl) (ih (Nat.succ.inj hlength) fun i v w hv hw => ?_)
      exact h (i + 1) v w hv hw

theorem map_eq_of_forall₂ {γ : Type} {f : α → γ} {g : β → γ} {as : List α} {bs : List β}
    (h : List.Forall₂ (fun a b => f a = g b) as bs) : as.map f = bs.map g := by
  induction h with
  | nil => rfl
  | cons hab _ ih => rw [List.map_cons, List.map_cons, hab, ih]

end

namespace Table

variable {α β : Type} {R : α → β → Prop}

/-- The same keys in whatever order, none of them twice, with related values. -/
structure Rearranged (R : α → β → Prop) (t : Table α) (u : Table β) : Prop where
  left : t.keys.Nodup
  right : u.keys.Nodup
  get? : ∀ key, Option.Rel R (t.get? key) (u.get? key)

theorem Rearranged.mem_keys {t : Table α} {u : Table β} (h : Rearranged R t u) (key : String) :
    key ∈ t.keys ↔ key ∈ u.keys := by
  rw [mem_keys_iff, mem_keys_iff, isSome_eq_of_rel (h.get? key)]

theorem perm_place (entry : String × α) (t : Table α) : (place entry t).Perm (entry :: t) := by
  induction t with
  | nil => exact .refl _
  | cons e rest ih =>
    rw [place]
    split
    next => exact .refl _
    next => exact (ih.cons e).trans (.swap _ _ _)

theorem perm_sorted (t : Table α) : t.sorted.Perm t := by
  induction t with
  | nil => exact .refl _
  | cons e rest ih => exact (perm_place e (sorted rest)).trans (ih.cons e)

/-- An entry is put in its place: the keys stay in ascending order. -/
theorem pairwise_place {entry : String × α} {t : Table α}
    (h : List.Pairwise (fun e f => e.1 < f.1) t) (hnew : entry.1 ∉ t.keys) :
    List.Pairwise (fun e f => e.1 < f.1) (place entry t) := by
  induction t with
  | nil => exact List.pairwise_singleton _ _
  | cons e rest ih =>
    obtain ⟨hhead, hrest⟩ := List.pairwise_cons.1 h
    simp only [keys, List.map_cons, List.mem_cons, not_or] at hnew
    rw [place]
    by_cases hlt : entry.1 < e.1
    · rw [if_pos hlt]
      refine List.pairwise_cons.2 ⟨fun f hf => ?_, h⟩
      rcases List.mem_cons.1 hf with rfl | hf
      · exact hlt
      · exact hlt.trans (hhead f hf)
    · rw [if_neg hlt]
      refine List.pairwise_cons.2 ⟨fun f hf => ?_, ih hrest hnew.2⟩
      rcases mem_place.1 hf with rfl | hf
      · exact lt_of_le_of_ne (not_lt.1 hlt) (Ne.symm hnew.1)
      · exact hhead f hf

theorem pairwise_sorted {t : Table α} (h : t.keys.Nodup) :
    List.Pairwise (fun e f => e.1 < f.1) t.sorted := by
  induction t with
  | nil => exact .nil
  | cons e rest ih =>
    simp only [keys, List.map_cons, List.nodup_cons] at h
    refine pairwise_place (ih h.2) fun hmem => h.1 ?_
    exact ((perm_sorted rest).map Prod.fst).subset hmem

/-- The keys in ascending order. -/
theorem Rearranged.keys_sorted {t : Table α} {u : Table β} (h : Rearranged R t u) :
    t.sorted.keys = u.sorted.keys := by
  have hperm : t.sorted.keys.Perm u.sorted.keys := by
    have hkeys : t.keys.Perm u.keys :=
      (List.perm_ext_iff_of_nodup h.left h.right).2 h.mem_keys
    exact ((perm_sorted t).map Prod.fst).trans (hkeys.trans ((perm_sorted u).map Prod.fst).symm)
  have hleft : t.sorted.keys.Pairwise (· < ·) := List.pairwise_map.2 (pairwise_sorted h.left)
  have hright : u.sorted.keys.Pairwise (· < ·) := List.pairwise_map.2 (pairwise_sorted h.right)
  exact hperm.eq_of_pairwise (fun a b _ _ hab hba => absurd hba hab.asymm) hleft hright

theorem keys_mapValues (f : α → β) (t : Table α) : (t.mapValues f).keys = t.keys := by
  unfold keys mapValues
  rw [List.map_map]
  rfl

theorem forall₂_of_keys {t : Table α} {u : Table β} (hkeys : t.keys = u.keys)
    (hvalues : ∀ e ∈ t, ∀ f ∈ u, e.1 = f.1 → R e.2 f.2) :
    List.Forall₂ (fun e f => e.1 = f.1 ∧ R e.2 f.2) t u := by
  induction t generalizing u with
  | nil =>
    rw [List.map_eq_nil_iff.1 hkeys.symm]
    exact .nil
  | cons e rest ih =>
    cases u with
    | nil => cases hkeys
    | cons f rest' =>
      obtain ⟨hkey, hrest⟩ := List.cons.inj hkeys
      have hhead := hvalues e (List.mem_cons_self ..) f (List.mem_cons_self ..) hkey
      refine .cons ⟨hkey, hhead⟩ (ih hrest fun e' he' f' hf' => ?_)
      exact hvalues e' (List.mem_cons_of_mem _ he') f' (List.mem_cons_of_mem _ hf')

/-- In ascending order of their keys, the entries of the two tables correspond one by one. -/
theorem Rearranged.sorted {t : Table α} {u : Table β} (h : Rearranged R t u) :
    List.Forall₂ (fun e f => e.1 = f.1 ∧ R e.2 f.2) t.sorted u.sorted := by
  have hvalues : ∀ e ∈ t.sorted, ∀ f ∈ u.sorted, e.1 = f.1 → R e.2 f.2 := by
    intro e he f hf hkey
    have hleft := get?_of_mem h.left (mem_sorted.1 he)
    have hright := get?_of_mem h.right (mem_sorted.1 hf)
    have hrel := h.get? e.1
    rw [hleft, hkey, hright] at hrel
    cases hrel with
    | some hrel => exact hrel
  exact forall₂_of_keys h.keys_sorted hvalues

theorem Rearranged.mapValues {γ δ : Type} {S : γ → δ → Prop} {f : α → γ} {g : β → δ}
    {t : Table α} {u : Table β} (h : Rearranged R t u) (hfg : ∀ v w, R v w → S (f v) (g w)) :
    Rearranged S (t.mapValues f) (u.mapValues g) where
  left := by
    rw [keys_mapValues]
    exact h.left
  right := by
    rw [keys_mapValues]
    exact h.right
  get? key := by
    rw [get?_mapValues, get?_mapValues]
    exact rel_map (h.get? key) hfg

/-- The same entries in whatever order are sorted alike. -/
theorem Rearranged.sorted_eq {t u : Table α} (h : Rearranged Eq t u) : t.sorted = u.sorted := by
  have hsorted := h.sorted
  have hentries : List.Forall₂ Eq t.sorted u.sorted :=
    hsorted.imp fun e f hef => Prod.ext hef.1 hef.2
  exact List.forall₂_eq_eq_eq ▸ hentries

/-- The same entries, in whatever order they have arrived. -/
theorem rearranged_of_perm {R : α → α → Prop} {t u : Table α} (h : t.keys.Nodup)
    (hperm : t.Perm u) (hrefl : ∀ v, R v v) : Rearranged R t u := by
  have hright : u.keys.Nodup := (hperm.map Prod.fst).nodup h
  refine ⟨h, hright, fun key => ?_⟩
  have heq : t.get? key = u.get? key := by
    cases hvalue : t.get? key with
    | some value => exact (get?_of_mem hright (hperm.subset (mem_of_get? hvalue))).symm
    | none =>
      cases hother : u.get? key with
      | none => rfl
      | some value =>
        rw [get?_of_mem h (hperm.symm.subset (mem_of_get? hother))] at hvalue
        cases hvalue
  rw [heq]
  cases u.get? key with
  | none => exact .none
  | some value => exact .some (hrefl value)

end Table

/-! ## Values -/

namespace Value

open Table (keys get?)

/-- Two values that are the same up to the order of the entries of maps, at every depth: in lists
and maps, and in what a record answers. -/
inductive Rearranged : Value → Value → Prop where
  | refl (v : Value) : Rearranged v v
  | list {items others : List Value} (hlength : items.length = others.length)
      (h : ∀ (i : Nat) v w, items[i]? = some v → others[i]? = some w → Rearranged v w) :
      Rearranged (.list items) (.list others)
  | map {entries others : List (String × Value)} (hleft : (keys entries).Nodup)
      (hright : (keys others).Nodup)
      (hkeys : ∀ key, (get? entries key).isSome = (get? others key).isSome)
      (h : ∀ key v w, get? entries key = some v → get? others key = some w → Rearranged v w) :
      Rearranged (.map entries) (.map others)
  | object {identity : Nat} {typeName text : String}
      {fields fields' methods methods' : List (String × Value)}
      (hfields : ∀ key, (get? fields key).isSome = (get? fields' key).isSome)
      (hmethods : ∀ key, (get? methods key).isSome = (get? methods' key).isSome)
      (h : ∀ key v w, get? fields key = some v → get? fields' key = some w → Rearranged v w)
      (h' : ∀ key v w, get? methods key = some v → get? methods' key = some w → Rearranged v w) :
      Rearranged (.object identity typeName text fields methods)
        (.object identity typeName text fields' methods')

theorem rel_refl (a : Option Value) : Option.Rel Rearranged a a := by
  cases a with
  | none => exact .none
  | some v => exact .some (.refl v)

theorem rearranged_getD {a b : Option Value} (h : Option.Rel Rearranged a b) (v : Value) :
    (a.getD v).Rearranged (b.getD v) := by
  cases h with
  | none => exact .refl v
  | some hvalue => exact hvalue

variable {v w : Value}

theorem Rearranged.isNull (h : Rearranged v w) : v.isNull = w.isNull := by
  cases h <;> rfl

/-- Null is found on both sides or on neither. -/
theorem Rearranged.nonNull (h : Rearranged v w) : Option.Rel Rearranged v.nonNull w.nonNull := by
  unfold Value.nonNull
  rw [h.isNull]
  split
  next => exact .none
  next => exact .some h

theorem isEmpty_of_isSome {α : Type} {t u : Table α}
    (h : ∀ key, (get? t key).isSome = (get? u key).isSome) : t.isEmpty = u.isEmpty := by
  have hnone : ∀ t u : Table α, (∀ key, (get? t key).isSome = (get? u key).isSome) →
      t = [] → u = [] := by
    rintro t u h rfl
    cases u with
    | nil => rfl
    | cons e rest =>
      have hkey := h e.1
      simp [get?] at hkey
  rw [Bool.eq_iff_iff, List.isEmpty_iff, List.isEmpty_iff]
  exact ⟨hnone t u h, hnone u t fun key => (h key).symm⟩

/-- Two values are true or false together. -/
theorem Rearranged.truthy (h : Rearranged v w) : v.truthy = w.truthy := by
  cases h with
  | refl => rfl
  | @list items others hlength _ =>
    show (!items.isEmpty) = !others.isEmpty
    cases items with
    | nil => rw [List.length_eq_zero_iff.1 hlength.symm]
    | cons v rest =>
      cases others with
      | nil => cases hlength
      | cons => rfl
  | @map entries others _ _ hkeys _ =>
    show (!entries.isEmpty) = !others.isEmpty
    rw [isEmpty_of_isSome hkeys]
  | object => rfl

theorem displayItems_eq_map (items : List Value) : displayItems items = items.map display := by
  induction items with
  | nil => rfl
  | cons v rest ih => rw [displayItems, ih, List.map_cons]

theorem displayEntries_eq_mapValues (entries : List (String × Value)) :
    displayEntries entries = Table.mapValues display entries := by
  induction entries with
  | nil => rfl
  | cons e rest ih =>
    obtain ⟨k, v⟩ := e
    rw [displayEntries, ih]
    rfl

/-- The text of a value does not tell the order of entries. -/
theorem Rearranged.display (h : Rearranged v w) : v.display = w.display := by
  induction h with
  | refl => rfl
  | @list items others hlength _ ih =>
    have hitems : List.Forall₂ (fun v w => v.display = w.display) items others :=
      forall₂_of_index hlength ih
    rw [Value.display, Value.display, displayItems_eq_map, displayItems_eq_map,
      map_eq_of_forall₂ hitems]
  | @map entries others hleft hright hkeys _ ih =>
    have hentries : Table.Rearranged (fun v w => v.display = w.display) entries others :=
      ⟨hleft, hright, fun key => rel_of_isSome (hkeys key) (ih key)⟩
    have htexts : Table.Rearranged Eq (Table.mapValues Value.display entries)
        (Table.mapValues Value.display others) :=
      hentries.mapValues fun _ _ h => h
    rw [Value.display, Value.display, displayEntries_eq_mapValues, displayEntries_eq_mapValues,
      mapText, mapText, htexts.sorted_eq]
  | object => rfl

/-! ### What is found in a value -/

/-- A record answers to a field on both sides or on neither. -/
theorem Rearranged.field? (h : Rearranged v w) (name : String) :
    Option.Rel Rearranged (v.field? name) (w.field? name) := by
  cases h with
  | refl => exact rel_refl _
  | list | map => exact .none
  | object hfields _ h _ => exact rel_of_isSome (hfields name) (h name)

theorem Rearranged.method? (h : Rearranged v w) (name : String) :
    Option.Rel Rearranged (v.method? name) (w.method? name) := by
  cases h with
  | refl => exact rel_refl _
  | list | map => exact .none
  | object _ hmethods _ h => exact rel_of_isSome (hmethods name) (h name)

/-- The items of two lists correspond. -/
theorem Rearranged.items {items others : List Value}
    (h : Rearranged (.list items) (.list others)) : List.Forall₂ Rearranged items others := by
  cases h with
  | refl => exact List.forall₂_same.2 fun v _ => .refl v
  | list hlength h => exact forall₂_of_index hlength h

/-- The entries of two maps correspond in ascending order of their keys. -/
theorem Rearranged.entries {entries others : List (String × Value)}
    (h : Rearranged (.map entries) (.map others)) :
    List.Forall₂ (fun e f => e.1 = f.1 ∧ Rearranged e.2 f.2) (Table.sorted entries)
      (Table.sorted others) := by
  cases h with
  | refl => exact List.forall₂_same.2 fun e _ => ⟨rfl, .refl e.2⟩
  | map hleft hright hkeys h =>
    have htable : Table.Rearranged Rearranged entries others :=
      ⟨hleft, hright, fun key => rel_of_isSome (hkeys key) (h key)⟩
    exact htable.sorted

end Value

/-! ## Resolvers -/

/-- A resolver that does not see the order of entries. -/
def Resolver.OrderBlind (r : Resolver) : Prop :=
  ∀ v w, v.Rearranged w → ∀ name, Option.Rel Value.Rearranged (r.resolve v name) (r.resolve w name)

theorem rel_bind {α β : Type} {R : α → β → Prop} {γ δ : Type} {S : γ → δ → Prop}
    {f : α → Option γ} {g : β → Option δ} {a : Option α} {b : Option β} (h : Option.Rel R a b)
    (hfg : ∀ v w, R v w → Option.Rel S (f v) (g w)) : Option.Rel S (a.bind f) (b.bind g) := by
  cases h with
  | none => exact .none
  | some h => exact hfg _ _ h

theorem rel_bind_same {α γ δ : Type} {S : γ → δ → Prop} {f : α → Option γ} {g : α → Option δ}
    (a : Option α) (hfg : ∀ x, Option.Rel S (f x) (g x)) : Option.Rel S (a.bind f) (a.bind g) := by
  cases a with
  | none => exact .none
  | some x => exact hfg x

/-- The first answer counts, on both sides. -/
theorem rel_or {α β : Type} {R : α → β → Prop} {a c : Option α} {b d : Option β}
    (h : Option.Rel R a b) (h' : Option.Rel R c d) : Option.Rel R (a.or c) (b.or d) := by
  cases h with
  | none => exact h'
  | some h => exact .some h

namespace Resolver

theorem map_orderBlind : Resolver.map.OrderBlind := by
  intro v w h name
  cases h with
  | refl => exact Value.rel_refl _
  | list | object => exact .none
  | map hleft hright hkeys h => exact rel_of_isSome (hkeys name) (h name)

theorem method_orderBlind : Resolver.method.OrderBlind := fun _ _ h name => h.method? name

theorem field_orderBlind : Resolver.field.OrderBlind := by
  intro v w h name
  rw [field_resolve, field_resolve]
  exact rel_or (h.field? name) (rel_bind_same _ fun snake => h.field? _)

theorem accessor_orderBlind : Resolver.accessor.OrderBlind := by
  intro v w h name
  rw [accessor_resolve, accessor_resolve]
  refine rel_or ?_ (rel_bind_same _ fun property => rel_or (h.method? _) (h.method? _))
  split
  next => exact h.method? name
  next => exact .none

end Resolver

theorem Chain.default_orderBlind : ∀ r ∈ Chain.default, r.OrderBlind := by
  intro r hr
  simp only [Chain.default, List.mem_cons, List.not_mem_nil, or_false] at hr
  rcases hr with rfl | rfl | rfl | rfl
  · exact Resolver.map_orderBlind
  · exact Resolver.accessor_orderBlind
  · exact Resolver.field_orderBlind
  · exact Resolver.method_orderBlind

theorem Chain.resolve_rearranged {chain : Chain} (hchain : ∀ r ∈ chain, r.OrderBlind) {v w : Value}
    (h : v.Rearranged w) (name : String) :
    Option.Rel Value.Rearranged (chain.resolve v name) (chain.resolve w name) := by
  induction chain with
  | nil => exact .none
  | cons r rest ih =>
    obtain ⟨hr, hrest⟩ := List.forall_mem_cons.1 hchain
    have hanswer : Option.Rel Value.Rearranged ((r.resolve v name).bind Value.nonNull)
        ((r.resolve w name).bind Value.nonNull) :=
      rel_bind (hr v w h name) fun _ _ h => h.nonNull
    rw [Chain.resolve_cons, Chain.resolve_cons]
    exact rel_or hanswer (ih hrest)

/-! ## Scopes -/

/-- Two scopes that are the same up to the order of entries. -/
structure Scope.Rearranged (s t : Scope) : Prop where
  subject : s.subject.Rearranged t.subject
  bound : ∀ name, Option.Rel Value.Rearranged (Table.get? s.bound name) (Table.get? t.bound name)

theorem Scope.rearranged_of {v w : Value} (h : v.Rearranged w) :
    (Scope.of v).Rearranged (Scope.of w) := ⟨h, fun _ => .none⟩

theorem Scope.Rearranged.bind {s t : Scope} (h : s.Rearranged t) (name : String) (v : Value) :
    (s.bind name v).Rearranged (t.bind name v) := by
  refine ⟨h.subject, fun other => ?_⟩
  show Option.Rel _ (Table.get? ((name, v) :: s.bound) other)
    (Table.get? ((name, v) :: t.bound) other)
  rw [Table.get?, Table.get?]
  split
  next => exact .some (.refl v)
  next => exact h.bound other

/-- Two rows of scopes that are the same up to the order of entries. -/
structure Scopes.Rearranged (s t : Scopes) : Prop where
  current : s.current.Rearranged t.current
  outer : List.Forall₂ Scope.Rearranged s.outer t.outer

theorem Scopes.Rearranged.push {s t : Scopes} (h : s.Rearranged t) {a b : Scope}
    (hab : a.Rearranged b) : (s.push a).Rearranged (t.push b) := ⟨hab, .cons h.current h.outer⟩

theorem Scopes.Rearranged.toList {s t : Scopes} (h : s.Rearranged t) :
    List.Forall₂ Scope.Rearranged s.toList t.toList := .cons h.current h.outer

theorem lookupBound_rearranged {as bs : List Scope} (h : List.Forall₂ Scope.Rearranged as bs)
    (name : String) : Option.Rel Value.Rearranged (lookupBound name as) (lookupBound name bs) := by
  induction h with
  | nil => exact .none
  | @cons a b as bs hab _ ih =>
    rw [lookupBound, lookupBound]
    have hbound := hab.bound name
    generalize Table.get? a.bound name = x at hbound ⊢
    generalize Table.get? b.bound name = y at hbound ⊢
    cases hbound with
    | none => exact ih
    | some hvalue => exact hvalue.nonNull

section

variable {chain : Chain} (hchain : ∀ r ∈ chain, r.OrderBlind)

include hchain

theorem lookupHead_rearranged {as bs : List Scope} (h : List.Forall₂ Scope.Rearranged as bs)
    (name : String) :
    Option.Rel Value.Rearranged (lookupHead chain name as) (lookupHead chain name bs) := by
  induction h with
  | nil => exact .none
  | @cons a b as bs hab _ ih =>
    rw [lookupHead, lookupHead]
    have hfound := Chain.resolve_rearranged hchain hab.subject name
    generalize chain.resolve a.subject name = x at hfound ⊢
    generalize chain.resolve b.subject name = y at hfound ⊢
    cases hfound with
    | none => exact ih
    | some hvalue => exact .some hvalue

theorem follow_rearranged {v w : Value} (h : v.Rearranged w) (segments : List String) :
    Option.Rel Value.Rearranged (follow chain v segments) (follow chain w segments) := by
  induction segments generalizing v w with
  | nil => exact h.nonNull
  | cons segment rest ih =>
    rw [follow, follow]
    have hfound := Chain.resolve_rearranged hchain h segment
    generalize chain.resolve v segment = x at hfound ⊢
    generalize chain.resolve w segment = y at hfound ⊢
    cases hfound with
    | none => exact .none
    | some hvalue => exact ih hvalue

variable {s t : Scopes} (h : s.Rearranged t)

include h

/-- A path leads to values that are the same up to the order of entries, or nowhere. -/
theorem Scopes.Rearranged.lookup (path : Path) :
    Option.Rel Value.Rearranged (s.lookup chain path) (t.lookup chain path) := by
  cases path with
  | bound name => exact lookupBound_rearranged h.toList name
  | this segments => exact follow_rearranged hchain h.current.subject segments
  | named head rest =>
    exact rel_bind (lookupHead_rearranged hchain h.toList head) fun _ _ hvalue =>
      follow_rearranged hchain hvalue rest

theorem Scopes.Rearranged.eval (param : Param) :
    Option.Rel Value.Rearranged (s.eval chain param) (t.eval chain param) := by
  cases param with
  | path p => exact h.lookup hchain p
  | literal l => exact Value.rel_refl _

theorem Scopes.Rearranged.evalOrNull (param : Param) :
    (s.evalOrNull chain param).Rearranged (t.evalOrNull chain param) :=
  Value.rearranged_getD (h.eval hchain param) .null

end

/-! ## Loops -/

theorem iteration_rearranged {v w : Value} (h : v.Rearranged w) (index count : Nat) :
    (iteration v index count).Rearranged (iteration w index count) :=
  ((((((Scope.rearranged_of h).bind _ _).bind _ _).bind _ _).bind _ _).bind _ _).bind _ _

theorem itemScopes_rearranged {items others : List Value}
    (h : List.Forall₂ Value.Rearranged items others) (count index : Nat) :
    List.Forall₂ Scope.Rearranged (itemScopes count index items)
      (itemScopes count index others) := by
  induction h generalizing index with
  | nil => exact .nil
  | cons hvalue _ ih => exact .cons (iteration_rearranged hvalue index count) (ih (index + 1))

theorem entryScopes_rearranged {entries others : Table Value}
    (h : List.Forall₂ (fun e f => e.1 = f.1 ∧ e.2.Rearranged f.2) entries others)
    (count index : Nat) :
    List.Forall₂ Scope.Rearranged (entryScopes count index entries)
      (entryScopes count index others) := by
  induction h generalizing index with
  | nil => exact .nil
  | @cons e f _ _ hentry _ ih =>
    obtain ⟨k, v⟩ := e
    obtain ⟨l, w⟩ := f
    obtain ⟨rfl, hvalue⟩ := hentry
    exact .cons ((iteration_rearranged hvalue index count).bind "key" _) (ih (index + 1))

/-- Loops go through the same scopes, in the same order. -/
theorem iterations_rearranged {x y : Option Value} (h : Option.Rel Value.Rearranged x y) :
    List.Forall₂ Scope.Rearranged (iterations x) (iterations y) := by
  cases h with
  | none => exact .nil
  | @some v w hvalue =>
    cases hvalue with
    | refl =>
      cases v with
      | list items => exact itemScopes_rearranged (Value.Rearranged.refl _).items _ 0
      | map entries => exact entryScopes_rearranged (Value.Rearranged.refl _).entries _ 0
      | _ => exact .nil
    | @list items others hlength hitems =>
      have hcorrespond := (Value.Rearranged.list hlength hitems).items
      show List.Forall₂ _ (itemScopes items.length 0 items) (itemScopes others.length 0 others)
      rw [hlength]
      exact itemScopes_rearranged hcorrespond _ 0
    | @map entries others hleft hright hkeys hentries =>
      have hcorrespond := (Value.Rearranged.map hleft hright hkeys hentries).entries
      have hlength : entries.length = others.length := by
        have hsorted := hcorrespond.length_eq
        rwa [Table.length_sorted, Table.length_sorted] at hsorted
      show List.Forall₂ _ (entryScopes entries.length 0 (Table.sorted entries))
        (entryScopes others.length 0 (Table.sorted others))
      rw [hlength]
      exact entryScopes_rearranged hcorrespond _ 0
    | object => exact .nil

/-- What is printed in the place of a value. -/
theorem emit_rearranged {v w : Value} (h : v.Rearranged w) (escape : Bool) :
    emit v escape = emit w escape := by
  have hemit : ∀ u : Value, emit u escape =
      if u.isNull then "" else if escape then Text.escape u.display else u.display := by
    intro u
    cases u <;> rfl
  rw [hemit, hemit, h.isNull, h.display]

end Stencil
