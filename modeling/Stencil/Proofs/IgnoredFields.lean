import Mathlib
import Stencil.Engine
import Stencil.Proofs.AnonymousRecords
import Stencil.Proofs.LookupNames

/-!
# Ignored fields do not leak

A field can be marked to be ignored. It has a place in the data of a record and none in its tables: no
key, no getter, no part in the text. Take two instances of a record that differ in ignored fields at
most. Everything that can be asked of one can be asked of the other, with the same answers:

> `RecordTables.value_eq`: in one place they are one value.
> `Chain.resolve_object_congr`: in two places only their identities differ, and no name tells these.
> `ignored_fields_unseen`: so every template renders alike against the two, wherever they stand.
-/

namespace Stencil

/-! ## Values with places in them -/

namespace Value

/-- Lists and maps with places in which one value is to stand. -/
inductive Holed where
  | place
  | value (v : Value)
  | list (items : List Holed)
  | map (entries : List (String × Holed))

namespace Holed

mutual

/-- Puts a value into every place. -/
def fill (v : Value) : Holed → Value
  | place => v
  | value w => w
  | list items => .list (fillItems v items)
  | map entries => .map (fillEntries v entries)

/-- Puts a value into every place of the items. -/
def fillItems (v : Value) : List Holed → List Value
  | [] => []
  | f :: rest => fill v f :: fillItems v rest

/-- Puts a value into every place of the entries. -/
def fillEntries (v : Value) : List (String × Holed) → List (String × Value)
  | [] => []
  | (k, f) :: rest => (k, fill v f) :: fillEntries v rest

end

/-- A context with a value in its places: those of the model, and those of the extra values. -/
def context (v : Value) (model : Holed) (extras : List (String × Holed)) : Context :=
  ⟨fill v model, fillEntries v extras, none⟩

variable {v w : Value}

mutual

theorem anonymous_fill (h : v.anonymous = w.anonymous) :
    ∀ f : Holed, (fill v f).anonymous = (fill w f).anonymous
  | place => by rw [fill, fill, h]
  | value u => by rw [fill, fill]
  | list items => by rw [fill, fill, anonymous, anonymous, anonymousItems_fill h items]
  | map entries => by rw [fill, fill, anonymous, anonymous, anonymousEntries_fill h entries]

theorem anonymousItems_fill (h : v.anonymous = w.anonymous) :
    ∀ items : List Holed, anonymousItems (fillItems v items) = anonymousItems (fillItems w items)
  | [] => by rw [fillItems, fillItems]
  | f :: rest => by
    rw [fillItems, fillItems, anonymousItems, anonymousItems, anonymous_fill h f,
      anonymousItems_fill h rest]

theorem anonymousEntries_fill (h : v.anonymous = w.anonymous) :
    ∀ entries : List (String × Holed),
      anonymousEntries (fillEntries v entries) = anonymousEntries (fillEntries w entries)
  | [] => by rw [fillEntries, fillEntries]
  | (k, f) :: rest => by
    rw [fillEntries, fillEntries, anonymousEntries, anonymousEntries, anonymous_fill h f,
      anonymousEntries_fill h rest]

end

end Holed

end Value

namespace Table

variable {α β : Type} (f : α → β)

theorem insert_mapValues (t : Table α) (key : String) (value : α) :
    (t.insert key value).mapValues f = (t.mapValues f).insert key (f value) := by
  induction t with
  | nil => rfl
  | cons e rest ih =>
    rw [insert, mapValues, mapValues, List.map_cons, insert]
    split
    next => rfl
    next => exact congrArg _ ih

theorem ofWrites_mapValues (writes : List (String × α)) :
    (ofWrites writes).mapValues f = ofWrites (mapValues f writes) := by
  have hfold : ∀ t : Table α,
      mapValues f (writes.foldl (fun t entry => t.insert entry.1 entry.2) t) =
        (mapValues f writes).foldl (fun t entry => t.insert entry.1 entry.2) (t.mapValues f) := by
    induction writes with
    | nil => exact fun t => rfl
    | cons w rest ih =>
      intro t
      rw [List.foldl_cons, ih, insert_mapValues]
      rfl
  exact hfold []

end Table

open Value (Holed)

/-- The scopes of a context with one value in its places or with another that is anonymously the
same. -/
theorem Context.sameAnonymous_scopes {v w : Value} (h : v.anonymous = w.anonymous) (model : Holed)
    (extras : List (String × Holed)) :
    (Holed.context v model extras).scopes.SameAnonymous (Holed.context w model extras).scopes := by
  have hmodel := Holed.anonymous_fill h model
  have hroot : ∀ u u' : Value, u.anonymous = u'.anonymous →
      (Scopes.root u).SameAnonymous (Scopes.root u') :=
    fun u u' hu => congrArg (fun a => (⟨⟨a, []⟩, []⟩ : Scopes)) hu
  have hextras := Holed.anonymousEntries_fill h extras
  cases extras with
  | nil => exact hroot _ _ hmodel
  | cons e rest =>
    refine Scopes.SameAnonymous.push_of (hroot _ _ ?_) hmodel
    rw [Value.anonymous_map, Value.anonymous_map, Table.ofWrites_mapValues, Table.ofWrites_mapValues,
      ← Value.anonymousEntries_eq_mapValues, ← Value.anonymousEntries_eq_mapValues]
    exact congrArg _ (congrArg _ hextras)

/-! ## Names on records -/

/-- No name tells the identity of a record. -/
theorem Chain.resolve_object_congr {chain : Chain} (h : ∀ q ∈ chain, q ∈ Chain.default)
    (identity identity' : Nat) (typeName text : String) (fields methods : List (String × Value))
    (name : String) :
    chain.resolve (.object identity typeName text fields methods) name =
      chain.resolve (.object identity' typeName text fields methods) name := by
  induction chain with
  | nil => rfl
  | cons q rest ih =>
    obtain ⟨hq, hrest⟩ := List.forall_mem_cons.1 h
    have hsame : q.resolve (.object identity typeName text fields methods) name =
        q.resolve (.object identity' typeName text fields methods) name := by
      simp only [Chain.default, List.mem_cons, List.not_mem_nil, or_false] at hq
      rcases hq with rfl | rfl | rfl | rfl
      all_goals rfl
    rw [resolve_cons, resolve_cons, hsame, ih hrest]

/-! ## Declared records -/

namespace Declaration

/-- The field is marked to be ignored. -/
def RecordField.Ignored (f : RecordField) : Prop := ∃ o, f.options = .ok o ∧ o.ignored = true

/-- Two instances that differ in ignored fields at most: they have the same data in every other field,
and give the same answers to the methods that the attributes list. -/
structure Record.SameButIgnored (r : Record) (i i' : Instance) : Prop where
  fields : ∀ f ∈ r.declaredFields, ¬ f.Ignored → i.read (.field f.name) = i'.read (.field f.name)
  methods : ∀ o, r.options = .ok o → ∀ m ∈ o.methods, i.read m.2 = i'.read m.2

variable {r : Record} {t : RecordTables} {i i' : Instance}

/-- An ignored field gets no key. -/
theorem of_mem_keyedFields {fields : List RecordField} {fs : List (String × RecordField)}
    (h : r.keyedFields fields = .ok fs) : ∀ a ∈ fs, a.2 ∈ fields ∧ ¬ a.2.Ignored := by
  induction fields generalizing fs with
  | nil =>
    cases h
    exact List.forall_mem_nil _
  | cons f rest ih =>
    rw [Record.keyedFields] at h
    split at h
    next => cases h
    next =>
      obtain ⟨o, ho, h⟩ := of_bind_eq_ok h
      obtain ⟨fs', hfs', rfl⟩ := of_map_eq_ok h
      have hrest : ∀ a ∈ fs', a.2 ∈ f :: rest ∧ ¬ a.2.Ignored := fun a ha =>
        ⟨List.mem_cons_of_mem _ (ih hfs' a ha).1, (ih hfs' a ha).2⟩
      split
      next => exact hrest
      next hkept =>
        refine List.forall_mem_cons.2 ⟨⟨List.mem_cons_self .., ?_⟩, hrest⟩
        rintro ⟨o', ho', hignored⟩
        rw [ho, Except.ok.injEq] at ho'
        exact hkept (ho' ▸ hignored)

/-- Every entry of the tables reads the same from two instances that differ in ignored fields at
most. -/
theorem read_eq (ht : r.tables = .ok t) (h : r.SameButIgnored i i') :
    (∀ e ∈ t.fields, i.read e.2 = i'.read e.2) ∧ ∀ e ∈ t.methods, i.read e.2 = i'.read e.2 := by
  obtain ⟨o, fs, ho, hfs, rfl⟩ := tables_eq_ok ht
  have hkept : ∀ a ∈ fs, i.read (.field a.2.name) = i'.read (.field a.2.name) := fun a ha =>
    h.fields a.2 (of_mem_keyedFields hfs a ha).1 (of_mem_keyedFields hfs a ha).2
  constructor
  · intro e he
    obtain ⟨a, ha, rfl⟩ := List.mem_map.1 he
    exact hkept a ha
  · intro e he
    rcases List.mem_append.1 he with he | he
    · exact h.methods o ho e he
    · split at he
      next =>
        obtain ⟨a, ha, he⟩ := List.mem_flatMap.1 he
        rw [(of_mem_getters he).2]
        exact hkept a ha
      next => cases he

/-- **In one place the two instances are one value.** -/
theorem RecordTables.value_eq (ht : r.tables = .ok t) (h : r.SameButIgnored i i') (identity : Nat) :
    t.value identity i = t.value identity i' := by
  obtain ⟨hfields, hmethods⟩ := read_eq ht h
  have hvalues : ∀ entries : List (String × Access), (∀ e ∈ entries, i.read e.2 = i'.read e.2) →
      Table.mapValues i.read entries = Table.mapValues i'.read entries :=
    fun entries hentries => List.map_congr_left fun e he => congrArg (Prod.mk e.1) (hentries e he)
  unfold RecordTables.value
  rw [hvalues t.fields hfields, hvalues t.methods hmethods]

theorem RecordTables.anonymous_value (t : RecordTables) (i : Instance) (identity identity' : Nat) :
    (t.value identity i).anonymous = (t.value identity' i).anonymous := by
  rw [value, value, Value.anonymous_object, Value.anonymous_object]

/-- **Ignored fields do not leak.** Take any declared record, with whatever renames, getters and
methods, and two instances of it that differ in ignored fields at most.

With one identity the two are the same value, to whatever resolvers and helpers. With an identity of
its own for each, every name means the same on them to every chain of the four resolvers, and every
template renders the same text or the same fault, and leaves the same engine, whether they are the
model or an extra value or stand in lists and maps, anywhere and in any number of places. Only a
helper can see identities, so those that are called there have to be blind to them. -/
theorem ignored_fields_unseen (ht : r.tables = .ok t) (h : r.SameButIgnored i i') :
    (∀ identity, t.value identity i = t.value identity i') ∧
      ∀ identity identity',
        (∀ (chain : Chain) name, (∀ q ∈ chain, q ∈ Chain.default) →
          chain.resolve (t.value identity i) name = chain.resolve (t.value identity' i') name) ∧
        ∀ (e : Engine) (template : Template) (model : Holed) (extras : List (String × Holed)),
          (∀ q ∈ template.chain, q ∈ Chain.default) →
          (∀ name helper, e.helpers.get? name = some helper → helper.IdentityBlind) →
          e.render template (Holed.context (t.value identity i) model extras) =
            e.render template (Holed.context (t.value identity' i') model extras) := by
  have hvalue := RecordTables.value_eq ht h
  refine ⟨hvalue, fun identity identity' => ⟨fun chain name hchain => ?_, ?_⟩⟩
  · rw [← hvalue identity']
    exact Chain.resolve_object_congr hchain ..
  · intro e template model extras hchain hblind
    have hanonymous : (t.value identity i).anonymous = (t.value identity' i').anonymous := by
      rw [← hvalue identity']
      exact t.anonymous_value i identity identity'
    have hsetting : (e.setting template.chain).Blind Scopes.SameAnonymous :=
      Setting.blind_anonymous (fun q hq => Chain.default_identityBlind q (hchain q hq)) hblind
    have hscopes := Context.sameAnonymous_scopes hanonymous model extras
    unfold Engine.render Context.chainFor
    exact congrArg (Option.map _) (hsetting.render_eq template.nodes hscopes e.shelf)

/-- Two accounts with different secrets, as the model and in a list, before a helper that prints its
argument. -/
theorem ignored_fields_unseen_of_account :
    let title : RecordField := ⟨"title", "String", [[.rename "name"]]⟩
    let secret : RecordField := ⟨"secret", "String", [[.word "ignore"]]⟩
    let r : Record :=
      ⟨"Account", .named, [[.word "getters", .methods [⟨"label", none⟩]]], [title, secret]⟩
    let i : Instance := ⟨[("title", .str "Ada"), ("secret", .str "x")], [("label", .str "A.")]⟩
    let i' : Instance := ⟨[("title", .str "Ada"), ("secret", .str "y")], [("label", .str "A.")]⟩
    let printer : Helper := fun c => .answerText c.first.display
    let e : Engine := { Engine.new none ⟨[], .empty⟩ with helpers := [("show", printer)] }
    let template : Template := ⟨"inline", [.lookup (.named "secret" []) true,
      .block .each (.path (.named "all" [])) [.call "show" [.path (.this [])] [] true] none], .default⟩
    let model : Holed := .map [("all", .list [.place, .place]), ("secret", .place)]
    let t : RecordTables := ⟨"Account", [("name", .field "title")],
      [("label", .method "label"), ("getName", .field "title")]⟩
    r.tables = .ok t ∧ r.SameButIgnored i i' ∧
      i.read (.field "secret") ≠ i'.read (.field "secret") ∧
      Chain.default.resolve (t.value 0 i) "getName" = Chain.default.resolve (t.value 1 i') "getName" ∧
      Chain.default.resolve (t.value 0 i) "getName" = some (.str "Ada") ∧
      e.render template (Holed.context (t.value 0 i) model []) =
        e.render template (Holed.context (t.value 1 i') model []) := by
  intro title secret r i i' printer e template model t
  have ht : r.tables = .ok t := by decide +kernel
  have hsecret : secret.Ignored := ⟨⟨"secret", true⟩, by decide +kernel, rfl⟩
  have hsame : r.SameButIgnored i i' := by
    refine ⟨fun f hf hkept => ?_, fun o ho m hm => ?_⟩
    · simp only [r, Record.declaredFields, List.mem_cons, List.not_mem_nil, or_false] at hf
      rcases hf with rfl | rfl
      · rfl
      · exact absurd hsecret hkept
    · have hoptions : r.options = .ok ⟨true, [("label", .method "label")]⟩ := by
        decide +kernel
      rw [hoptions, Except.ok.injEq] at ho
      subst ho
      rw [List.mem_singleton.1 hm]
      rfl
  have hblind : ∀ name helper, e.helpers.get? name = some helper → helper.IdentityBlind := by
    intro name helper hhelper
    have hmem : (name, helper) ∈ [("show", printer)] := Table.mem_of_get? hhelper
    obtain ⟨rfl, rfl⟩ := Prod.mk.inj (List.mem_singleton.1 hmem)
    exact Helper.answerText_identityBlind fun c => by rw [c.first_anonymous, Value.display_anonymous]
  obtain ⟨hresolve, hrender⟩ := (ignored_fields_unseen ht hsame).2 0 1
  exact ⟨ht, hsame, by simp [Instance.read, i, i', Table.get?], hresolve _ "getName" fun q hq => hq,
    by cbv, hrender e template model [] (fun q hq => hq) hblind⟩

end Declaration

end Stencil
