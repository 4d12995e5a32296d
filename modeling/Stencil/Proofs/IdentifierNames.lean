import Stencil.Proofs.BoundArguments
import Stencil.Proofs.Handles
import Stencil.Proofs.IgnoredFields
import Stencil.Proofs.ReachableNames
import Mathlib

/-!
# Names from identifiers

A declaration takes the names that templates ask for from identifiers: of functions, of fields, and
of the entries in lists of methods. An identifier may begin with the mark `r#`, which lets it be a
reserved word. The key of a field goes without the mark. A helper that is named after its function
and an entry in a list of methods keep it, and no template can write it.

> `OwnName.called`: a name that no other function claims calls its function.
> `OwnKey.resolve`, `OwnMethod.resolve`: a name that no other field or method claims leads to its own.
> `identifiers_reach_templates`: which of the names templates can reach.
-/

namespace Stencil

open Text

/-! ## Identifiers -/

namespace Declaration

/-- The identifiers of a spelling: as it stands, and with the mark. -/
inductive Identifies (plain : String) : String → Prop where
  | bare : Identifies plain plain
  | raw : Identifies plain ("r#" ++ plain)

/-- The key of a field goes without the mark. -/
theorem plainName_of_identifies {plain name : String} (hplain : IsName plain.toList)
    (h : Identifies plain name) : plainName name = plain := by
  cases h with
  | bare =>
    obtain ⟨c, rest, hcons, -, hrest⟩ := hplain
    unfold plainName
    rw [hcons]
    split
    next heq =>
      obtain ⟨-, rfl⟩ := List.cons.inj heq
      exact absurd (hrest '#' (List.mem_cons_self ..)) (by decide)
    next => rfl
  | raw =>
    have hchars : ("r#" ++ plain).toList = 'r' :: '#' :: plain.toList := String.toList_append
    rw [plainName, hchars]
    exact String.ofList_toList

/-- No template writes the mark. -/
theorem unreachable_of_mark (plain : String) : Unreachable ("r#" ++ plain) := by
  refine unreachable_of_isSegment (Bool.eq_false_iff.2 fun hsegment => ?_)
  have hmem : '#' ∈ ("r#" ++ plain).toList := by simp
  exact absurd ((Path.isSegment_iff.1 hsegment).2 '#' hmem) (by decide)

/-! ## Functions -/

/-- An entry of a table stands for the function. -/
structure HelperFunction.Declares (f : HelperFunction) (e : Entry) : Prop where
  exported : f.isExported = true
  name : f.helperName = .ok e.name
  function : e.function = f.name
  arguments : Declaration.arguments 0 f.parameters = .ok e.arguments
  fallible : e.fallible = f.isFallible

theorem HelperFunction.Declares.unique {f : HelperFunction} {e e' : Entry} (h : f.Declares e)
    (h' : f.Declares e') : e = e' := by
  have hname := Except.ok.inj (h.name.symm.trans h'.name)
  have harguments := Except.ok.inj (h.arguments.symm.trans h'.arguments)
  have hfunction := h.function.trans h'.function.symm
  have hfallible := h.fallible.trans h'.fallible.symm
  cases e
  cases e'
  cases hname
  cases harguments
  cases hfunction
  cases hfallible
  rfl

/-- Every entry of a table stands for an exported function of the block. -/
theorem declares_of_mem {functions : List HelperFunction} {table : List Entry}
    (h : entries functions = .ok table) : ∀ e ∈ table, ∃ f ∈ functions, f.Declares e := by
  induction functions generalizing table with
  | nil =>
    cases h
    exact List.forall_mem_nil _
  | cons g rest ih =>
    have hrest : ∀ more, entries rest = .ok more → ∀ e ∈ more, ∃ f ∈ g :: rest, f.Declares e := by
      intro more hmore e he
      obtain ⟨f, hf, hdeclares⟩ := ih hmore e he
      exact ⟨f, List.mem_cons_of_mem _ hf, hdeclares⟩
    obtain ⟨name, hname, h⟩ := of_bind_eq_ok h
    split at h
    next hexported =>
      obtain ⟨args, hargs, h⟩ := of_bind_eq_ok h
      obtain ⟨more, hmore, rfl⟩ := of_map_eq_ok h
      exact List.forall_mem_cons.2
        ⟨⟨g, List.mem_cons_self .., hexported, hname, rfl, hargs, rfl⟩, hrest more hmore⟩
    next => exact hrest table h

/-- A function that becomes a helper under its own name, which no other function of the block
claims. -/
structure OwnName (functions : List HelperFunction) (f : HelperFunction) : Prop where
  mem : f ∈ functions
  exported : f.isExported = true
  unnamed : f.naming = .absent
  unclaimed : ∀ g ∈ functions, g.isExported = true → g.helperName = .ok f.name → g = f

section

variable {types : String → ArgumentType}

/-- What the functions of a table do with what stands in their slots. -/
abbrev Bodies (types : String → ArgumentType) : Type :=
  ∀ e : Entry, Slot.Row (e.arguments.map (Argument.slot types)) → Script

/-- The helpers of a table, in order. -/
def Bodies.helpers (bodies : Bodies types) (table : List Entry) : Table Helper :=
  table.map fun e => (e.name, (e.typed types (bodies e)).helper)

/-- The helper of an entry is found if no other entry goes by the name. -/
theorem Bodies.get?_helpers {bodies : Bodies types} {table : List Entry} {entry : Entry}
    (hentry : entry ∈ table) (honly : ∀ e ∈ table, e.name = entry.name → e = entry) (e : Engine) :
    (e.registerAll (bodies.helpers table)).helpers.get? entry.name =
      some (entry.typed types (bodies entry)).helper := by
  have hfound : Table.get? (bodies.helpers table).reverse entry.name =
      some (entry.typed types (bodies entry)).helper := by
    refine Table.get?_of_agree (List.mem_reverse.2 (List.mem_map.2 ⟨entry, hentry, rfl⟩)) ?_
    intro other hother hname
    obtain ⟨o, ho, rfl⟩ := List.mem_map.1 (List.mem_reverse.1 hother)
    rw [honly o ho hname]
  rw [Engine.helpers_registerAll, hfound, Option.some_or]

/-- Tags call a function by the name of its entry: in whatever form and with whatever arguments such
a call is written, it is a template, and where the arguments can be converted as the parameters ask
for, the function is run on them and the tag shows its answer. -/
def Entry.Called (entry : Entry)
    (body : Slot.Row (entry.arguments.map (Argument.slot types)) → Script)
    (parameters : List String) (e : Engine) : Prop :=
  ∀ params named x escape text, CallText entry.name params named x → WrittenTag x escape text →
    ∀ chain, ∃ template, Engine.compileText chain (String.ofList text) = .ok template ∧
      ∀ c : Context,
        let call := (e.setting (c.chainFor template)).call c.scopes entry.name params named false
        (∀ k type, (ownedTypes parameters)[k]? = some type →
          ∃ x, convert types call.params k type = .ok x) →
        ∃ row, List.Forall₂ (Binds types call call.params) entry.arguments (Slot.passed _ row) ∧
          e.render template c = some ((body row).alone.map (emit · escape), e)

/-- **A registered entry is called by its name.** -/
theorem called_of_registered {entry : Entry} {parameters : List String}
    (hargs : arguments 0 parameters = .ok entry.arguments)
    (body : Slot.Row (entry.arguments.map (Argument.slot types)) → Script) {e : Engine}
    (hhelper : e.helpers.get? entry.name = some (entry.typed types body).helper) :
    entry.Called body parameters e := by
  intro params named x escape text hcall htext chain
  refine ⟨_, Engine.compileText_of_parse chain (hcall.parse_eq htext), ?_⟩
  intro c call hall
  obtain ⟨row, hrow, hbinds⟩ := typed_runs hargs body hall
  refine ⟨row, hbinds, ?_⟩
  have hrender := render_call (e.setting (c.chain.getD chain)) c.scopes e.shelf hhelper params named
    escape
  rw [show (entry.typed types body).helper
    ((e.setting (c.chain.getD chain)).call c.scopes entry.name params named false) = body row
      from hrow] at hrender
  exact congrArg (Option.map _) hrender

/-- A function that becomes a helper under its own name is called by that name. -/
theorem OwnName.called {functions : List HelperFunction} {table : List Entry} {f : HelperFunction}
    (htable : helperTable .plain functions = .ok table) (h : OwnName functions f) :
    ∃ entry ∈ table, entry.function = f.name ∧ entry.name = f.name ∧
      ∀ {types : String → ArgumentType} (bodies : Bodies types) (e : Engine),
        entry.Called (bodies entry) f.parameters (e.registerAll (bodies.helpers table)) := by
  obtain ⟨entry, hentry, hfunction, hname, hargs⟩ := entry_of_exported htable h.mem h.exported
  rw [HelperFunction.helperName, h.unnamed, Except.ok.injEq] at hname
  refine ⟨entry, hentry, hfunction, hname.symm, fun bodies e => ?_⟩
  have hdeclares : ∀ other ∈ table, other.name = entry.name → f.Declares other := by
    intro other hother hsame
    obtain ⟨g, hg, hdeclares⟩ := declares_of_mem htable other hother
    have hclaims : g.helperName = .ok f.name := by rw [hdeclares.name, hsame, hname]
    rwa [h.unclaimed g hg hdeclares.exported hclaims] at hdeclares
  have honly : ∀ other ∈ table, other.name = entry.name → other = entry := fun other hother hsame =>
    (hdeclares other hother hsame).unique (hdeclares entry hentry rfl)
  exact called_of_registered hargs (bodies entry) (bodies.get?_helpers hentry honly e)

end

/-! ## Fields -/

/-- An attribute that gives no key. -/
def Keyless (attr : List Item) : Prop := ∀ s, attr ≠ [.literal s] ∧ .rename s ∉ attr

/-- No attribute gives the field another key. -/
def RecordField.Unrenamed (f : RecordField) : Prop := ∀ attr ∈ f.attributes, Keyless attr

/-- What holds of the items that are left and of what the others came to, step by step, holds in the
end. -/
theorem of_takeItems {α : Type} {take : α → Item → Bool → Except DeclarationFault α}
    (I : List Item → α → Prop)
    (step : ∀ i rest a a', I (i :: rest) a → take a i rest.isEmpty = .ok a' → I rest a')
    {items : List Item} {a a' : α} (ha : I items a) (h : takeItems take a items = .ok a') :
    I [] a' := by
  induction items generalizing a with
  | nil =>
    cases h
    exact ha
  | cons i rest ih =>
    obtain ⟨next, hnext, h⟩ := of_bind_eq_ok h
    exact ih (step i rest a next ha hnext) h

theorem FieldOptions.key_of_take {o o' : FieldOptions} {i : Item} {last : Bool}
    (h : o.take i last = .ok o') (hi : ∀ s, i ≠ .rename s) : o'.key = o.key := by
  unfold take at h
  split at h
  next =>
    cases h
    rfl
  next => cases h
  next s => exact absurd rfl (hi s)
  next => cases h
  next => cases h
  next => cases h

theorem FieldOptions.key_of_takeAttribute {o o' : FieldOptions} {attr : List Item}
    (h : o.takeAttribute attr = .ok o') (hattr : Keyless attr) : o'.key = o.key := by
  unfold takeAttribute at h
  split at h
  next s => exact absurd rfl (hattr s).1
  next =>
    refine (of_takeItems (fun rest a => (∀ s, .rename s ∉ rest) ∧ a.key = o.key) ?_
      ⟨fun s => (hattr s).2, rfl⟩ h).2
    rintro i rest a a' ⟨hrest, ha⟩ htake
    have hi : ∀ s, i ≠ .rename s := fun s heq => hrest s (heq ▸ List.mem_cons_self ..)
    exact ⟨fun s hs => hrest s (List.mem_cons_of_mem _ hs), (key_of_take htake hi).trans ha⟩

/-- The key of a field that is not renamed is its plain name. -/
theorem RecordField.Unrenamed.key_eq {f : RecordField} {o : FieldOptions} (h : f.Unrenamed)
    (ho : f.options = .ok o) : o.key = plainName f.name := by
  refine (of_foldlM (fun rest a => (∀ attr ∈ rest, Keyless attr) ∧ a.key = plainName f.name) ?_
    ⟨h, rfl⟩ ho).2
  rintro attr rest a a' ⟨hrest, ha⟩ htake
  obtain ⟨hattr, hrest⟩ := List.forall_mem_cons.1 hrest
  exact ⟨hrest, (FieldOptions.key_of_takeAttribute htake hattr).trans ha⟩

/-- A field that is not ignored has a key. -/
theorem mem_keyedFields {r : Record} {f : RecordField} {fields : List RecordField}
    {fs : List (String × RecordField)} (h : r.keyedFields fields = .ok fs) (hf : f ∈ fields)
    (hkept : ¬ f.Ignored) : ∃ o, f.options = .ok o ∧ (o.key, f) ∈ fs := by
  induction fields generalizing fs with
  | nil => cases hf
  | cons g rest ih =>
    rw [Record.keyedFields] at h
    split at h
    next => cases h
    next =>
      obtain ⟨o, ho, h⟩ := of_bind_eq_ok h
      obtain ⟨fs', hfs', rfl⟩ := of_map_eq_ok h
      rcases List.mem_cons.1 hf with rfl | hf
      · have hshown : ¬ o.ignored = true := fun hignored => hkept ⟨o, ho, hignored⟩
        rw [if_neg hshown]
        exact ⟨o, ho, List.mem_cons_self ..⟩
      · obtain ⟨o', ho', hmem⟩ := ih hfs' hf
        refine ⟨o', ho', ?_⟩
        split
        next => exact hmem
        next => exact List.mem_cons_of_mem _ hmem

/-- A field that is listed under its own name, which no other field claims. -/
structure OwnKey (r : Record) (t : RecordTables) (f : RecordField) : Prop where
  mem : f ∈ r.declaredFields
  kept : ¬ f.Ignored
  unrenamed : f.Unrenamed
  unclaimed : ∀ e ∈ t.fields, e.1 = plainName f.name → e.2 = .field f.name

/-- **The plain name of a field leads to it.** -/
theorem OwnKey.resolve {r : Record} {t : RecordTables} {f : RecordField} (ht : r.tables = .ok t)
    (h : OwnKey r t f) (identity : Nat) (i : Instance) :
    Resolver.field.resolve (t.value identity i) (plainName f.name) =
      some (i.read (.field f.name)) := by
  obtain ⟨o, fs, -, hfs, rfl⟩ := tables_eq_ok ht
  obtain ⟨options, hoptions, hmem⟩ := mem_keyedFields hfs h.mem h.kept
  rw [h.unrenamed.key_eq hoptions] at hmem
  have hentry : (keyTable fs).get? (plainName f.name) = some (.field f.name) :=
    Table.get?_of_agree (List.mem_map.2 ⟨_, hmem, rfl⟩) h.unclaimed
  rw [Resolver.field_resolve, RecordTables.value, Value.field?, Table.get?_mapValues, hentry]
  rfl

/-! ## Lists of methods -/

/-- What an entry in a list of methods reads. -/
def MethodItem.access (m : MethodItem) : Access := .method (m.method.getD m.key)

theorem MethodItem.eq_of_read {m : MethodItem} {e : String × Access} (h : m.read = .ok e) :
    e = (m.key, m.access) := by
  obtain ⟨key, method⟩ := m
  unfold read at h
  split at h
  next => cases h
  next =>
    cases method with
    | none =>
      cases h
      rfl
    | some name =>
      dsimp only at h
      split at h
      next => cases h
      next =>
        cases h
        rfl

/-- Items add to the methods, and a list of them adds all its entries. -/
theorem RecordOptions.methods_of_take {o o' : RecordOptions} {i : Item} {last : Bool}
    (h : o.take i last = .ok o') :
    o.methods ⊆ o'.methods ∧
      ∀ items, i = .methods items → ∀ m ∈ items, (m.key, m.access) ∈ o'.methods := by
  unfold take at h
  split at h
  next =>
    cases h
    exact ⟨List.Subset.refl _, fun items heq => by cases heq⟩
  next => cases h
  next => cases h
  next items _ =>
    obtain ⟨ms, hms, rfl⟩ := of_map_eq_ok h
    refine ⟨List.subset_append_left .., fun items' heq m hm => ?_⟩
    cases heq
    obtain ⟨e, he, hread⟩ := (of_mapM_eq_ok hms).1 m hm
    exact List.mem_append_right _ (MethodItem.eq_of_read hread ▸ he)
  next => cases h
  next => cases h
  next => cases h

/-- The attributes of a record list the method. -/
def Record.Lists (r : Record) (m : MethodItem) : Prop :=
  ∃ attr ∈ r.attributes, ∃ items, .methods items ∈ attr ∧ m ∈ items

theorem Record.Lists.mem_methods {r : Record} {m : MethodItem} {o : RecordOptions} (h : r.Lists m)
    (ho : r.options = .ok o) : (m.key, m.access) ∈ o.methods := by
  obtain ⟨attr, hattr, items, hitems, hm⟩ := h
  -- Either the list is still to come, or its entries are there already.
  have hattrs : ∀ {next} {a a' : RecordOptions},
      .methods items ∈ next ∨ (m.key, m.access) ∈ a.methods →
      takeItems RecordOptions.take a next = .ok a' → (m.key, m.access) ∈ a'.methods := by
    intro next a a' hleft hnext
    refine (of_takeItems (fun rest a => .methods items ∈ rest ∨ (m.key, m.access) ∈ a.methods) ?_
      hleft hnext).resolve_left List.not_mem_nil
    intro i rest a a' hleft htake
    obtain ⟨hgrow, hlisted⟩ := RecordOptions.methods_of_take htake
    rcases hleft with hleft | hdone
    · rcases List.mem_cons.1 hleft with rfl | hleft
      · exact .inr (hlisted items rfl m hm)
      · exact .inl hleft
    · exact .inr (hgrow hdone)
  refine (of_foldlM (fun rest a => attr ∈ rest ∨ (m.key, m.access) ∈ a.methods) ?_ (.inl hattr)
    ho).resolve_left List.not_mem_nil
  intro next rest a a' hleft htake
  rcases hleft with hleft | hdone
  · rcases List.mem_cons.1 hleft with rfl | hleft
    · exact .inr (hattrs (.inl hitems) htake)
    · exact .inl hleft
  · exact .inr (hattrs (.inr hdone) htake)

/-- An entry in a list of methods, whose key no other method claims. -/
structure OwnMethod (r : Record) (t : RecordTables) (m : MethodItem) : Prop where
  listed : r.Lists m
  unclaimed : ∀ e ∈ t.methods, e.1 = m.key → e.2 = m.access

/-- **The key of a listed method leads to it.** -/
theorem OwnMethod.resolve {r : Record} {t : RecordTables} {m : MethodItem} (ht : r.tables = .ok t)
    (h : OwnMethod r t m) (identity : Nat) (i : Instance) :
    Resolver.method.resolve (t.value identity i) m.key = some (i.read m.access) := by
  obtain ⟨o, fs, ho, -, rfl⟩ := tables_eq_ok ht
  have hmem := List.mem_append_left (if o.getters then getterTable fs else [])
    (h.listed.mem_methods ho)
  have hentry := Table.get?_of_agree hmem h.unclaimed
  change Table.get? (Table.mapValues i.read _) m.key = _
  rw [Table.get?_mapValues, hentry]
  rfl

/-! ## Which names can be reached -/

/-- **Which of the names taken from identifiers templates can reach.** Take an ASCII identifier, with
the mark or without it, whose plain spelling is not `this` and no fixed word.

A function of this name that becomes a helper under its own name has an entry under just this name.
Without the mark, and if no other function claims the name, every tag that calls it runs the function
on whatever arguments its parameters take. With the mark nothing that a template can hold names it.

A field of this name that is not renamed is found by its plain spelling through the field resolver,
with the mark and without it, unless another field has that key.

A method that is listed under this key is found by it through the method resolver if the key has no
mark and no other method claims it. With the mark, again, no template can name it. -/
theorem identifiers_reach_templates {plain name : String} (hplain : IsName plain.toList)
    (hreserved : plain ∉ ["this", "true", "false", "null", "undefined"])
    (hname : Identifies plain name) :
    (∀ {functions : List HelperFunction} {table : List Entry} {f : HelperFunction},
      helperTable .plain functions = .ok table → OwnName functions f → f.name = name →
      ∃ entry ∈ table, entry.function = name ∧ entry.name = name ∧
        (name = plain → ∀ {types : String → ArgumentType} (bodies : Bodies types) (e : Engine),
          entry.Called (bodies entry) f.parameters (e.registerAll (bodies.helpers table))) ∧
        (name ≠ plain → Unreachable entry.name)) ∧
    (∀ {r : Record} {t : RecordTables} {f : RecordField}, r.tables = .ok t → OwnKey r t f →
      f.name = name → ∀ identity i,
        FoundUnder [.field] plain (t.value identity i) (i.read (.field name))) ∧
    ∀ {r : Record} {t : RecordTables} {m : MethodItem}, r.tables = .ok t → OwnMethod r t m →
      m.key = name →
      (name = plain → ∀ identity i,
        FoundUnder [.method] plain (t.value identity i) (i.read m.access)) ∧
      (name ≠ plain → Unreachable m.key) := by
  have hmarked : name ≠ plain → Unreachable name := by
    intro hne
    cases hname with
    | bare => exact absurd rfl hne
    | raw => exact unreachable_of_mark plain
  refine ⟨fun htable hown hf => ?_, fun ht hown hf identity i => ?_, fun ht hown hm => ⟨?_, ?_⟩⟩
  · obtain ⟨entry, hentry, hfunction, hnamed, hcalled⟩ := hown.called htable
    refine ⟨entry, hentry, hfunction.trans hf, hnamed.trans hf, fun _ => hcalled, ?_⟩
    rw [hnamed, hf]
    exact hmarked
  · have hresolve := hown.resolve ht identity i
    rw [hf, plainName_of_identifies hplain hname] at hresolve
    refine .of_resolve hplain hreserved ?_
    rw [Chain.resolve_singleton, hresolve, Option.bind_some]
  · rintro rfl identity i
    have hresolve := hown.resolve ht identity i
    rw [hm] at hresolve
    refine .of_resolve hplain hreserved ?_
    rw [Chain.resolve_singleton, hresolve, Option.bind_some]
  · rw [hm]
    exact hmarked

/-- A function, a field with the mark and a listed method, all named `kind`. -/
theorem identifiers_reach_templates_of_kind :
    let f : HelperFunction := ⟨"kind", "pub", false, ["String"], some "String", .absent⟩
    let entry : Entry := ⟨"kind", "kind", [.owned 0 "String"], false⟩
    let types : String → ArgumentType := fun _ => DataType.text.argument rfl
    let bodies : Bodies types := fun e _ => .answer (.str e.function)
    let e := (Engine.new none ⟨[], .empty⟩).registerAll (bodies.helpers [entry])
    let field : RecordField := ⟨"r#kind", "String", []⟩
    let m : MethodItem := ⟨"kind", none⟩
    let r : Record := ⟨"Item", .named, [[.methods [m]]], [field]⟩
    let t : RecordTables := ⟨"Item", [("kind", .field "r#kind")], [("kind", .method "kind")]⟩
    let i : Instance := ⟨[("r#kind", .str "a")], [("kind", .str "b")]⟩
    OwnName [f] f ∧ OwnKey r t field ∧ OwnMethod r t m ∧ helperTable .plain [f] = .ok [entry] ∧
      r.tables = .ok t ∧
      (∃ template, Engine.compileText .default "\x7b\x7bkind 'x'\x7d\x7d" = .ok template ∧
        e.render template (.of .null) = some (.ok "kind", e)) ∧
      FoundUnder [.field] "kind" (t.value 0 i) (.str "a") ∧
      FoundUnder [.method] "kind" (t.value 0 i) (.str "b") := by
  intro f entry types bodies e field m r t i
  have hname : IsName "kind".toList :=
    ⟨'k', ['i', 'n', 'd'], rfl, .inl rfl, fun d hd => .inl (List.all_eq_true.1 (by decide) d hd)⟩
  have hreserved : "kind" ∉ ["this", "true", "false", "null", "undefined"] := by decide
  have hf : OwnName [f] f :=
    ⟨List.mem_cons_self .., by decide +kernel, rfl, fun g hg _ _ => List.mem_singleton.1 hg⟩
  have htable : helperTable .plain [f] = .ok [entry] := by decide +kernel
  have hfield : OwnKey r t field := by
    refine ⟨List.mem_cons_self .., ?_, List.forall_mem_nil _, ?_⟩
    · rintro ⟨o, ho, hignored⟩
      cases ho
      cases hignored
    · intro entry hentry _
      rw [List.mem_singleton.1 hentry]
  have hm : OwnMethod r t m := by
    refine ⟨⟨_, List.mem_cons_self .., [m], List.mem_cons_self .., List.mem_cons_self ..⟩, ?_⟩
    intro entry hentry _
    rw [List.mem_singleton.1 hentry]
    rfl
  have ht : r.tables = .ok t := by decide +kernel
  obtain ⟨hfunctions, -, hmethods⟩ := identifiers_reach_templates hname hreserved .bare
  obtain ⟨-, hfields, -⟩ := identifiers_reach_templates hname hreserved .raw
  refine ⟨hf, hfield, hm, htable, ht, ?_, hfields ht hfield rfl 0 i, (hmethods ht hm rfl).1 rfl 0 i⟩
  obtain ⟨entry', hentry, -, -, hcalled, -⟩ := hfunctions htable hf rfl
  obtain rfl := List.mem_singleton.1 hentry
  have hnone : ∀ c ∈ ([] : List Char), isBlank c = true := List.forall_mem_nil _
  have hcall := (WrittenCall.of_text hname hreserved ['x']).callText
  obtain ⟨template, htemplate, hrender⟩ :=
    hcalled rfl bodies (Engine.new none ⟨[], .empty⟩) _ _ _ true _ hcall (.plain hnone hnone) .default
  refine ⟨template, htemplate, ?_⟩
  obtain ⟨row, -, hresult⟩ := hrender (.of .null) fun k type hk => by
    have howned : ownedTypes f.parameters = ["String"] := by decide +kernel
    rw [howned] at hk
    cases k with
    | zero =>
      cases hk
      exact ⟨_, rfl⟩
    | succ k => cases hk
  have hshown : emit (.str "kind") true = "kind" := by decide +kernel
  exact hresult.trans (congrArg (fun shown => some (Except.ok shown, e)) hshown)

/-- With the mark a field goes by its plain spelling and is found, but a helper and a method are not:
`type` is no name of theirs. -/
theorem marked_function_unknown :
    let f : HelperFunction := ⟨"r#type", "pub", false, ["String"], some "String", .absent⟩
    let entry : Entry := ⟨"r#type", "r#type", [.owned 0 "String"], false⟩
    let types : String → ArgumentType := fun _ => DataType.text.argument rfl
    let bodies : Bodies types := fun e _ => .answer (.str e.function)
    let e := (Engine.new none ⟨[], .empty⟩).registerAll (bodies.helpers [entry])
    let r : Record :=
      ⟨"Item", .named, [[.methods [⟨"r#type", none⟩]]], [⟨"r#type", "String", []⟩]⟩
    let t : RecordTables :=
      ⟨"Item", [("type", .field "r#type")], [("r#type", .method "r#type")]⟩
    let v := t.value 0 ⟨[("r#type", .str "a")], [("r#type", .str "b")]⟩
    Identifies "type" "r#type" ∧ OwnName [f] f ∧ helperTable .plain [f] = .ok [entry] ∧
      (∃ template, Engine.compileText .default "\x7b\x7btype 'x'\x7d\x7d" = .ok template ∧
        e.render template (.of .null) = some (.error (.unknownHelper "type"), e)) ∧
      r.tables = .ok t ∧ Resolver.field.resolve v "type" = some (.str "a") ∧
      Resolver.method.resolve v "type" = none := by
  intro f entry types bodies e r t v
  have hf : OwnName [f] f :=
    ⟨List.mem_cons_self .., by decide +kernel, rfl, fun g hg _ _ => List.mem_singleton.1 hg⟩
  have hname : IsName "type".toList :=
    ⟨'t', ['y', 'p', 'e'], rfl, .inl rfl, fun d hd => .inl (List.all_eq_true.1 (by decide) d hd)⟩
  have hnone : ∀ c ∈ ([] : List Char), isBlank c = true := List.forall_mem_nil _
  have hparse : parse "\x7b\x7btype 'x'\x7d\x7d" =
      .ok [.call "type" [.literal (.text "x")] [] true] :=
    (WrittenCall.of_text hname (by decide) ['x']).parse_eq (.plain hnone hnone)
  refine ⟨.raw, hf, by decide +kernel, ⟨_, Engine.compileText_of_parse .default hparse, ?_⟩,
    by decide +kernel, rfl, rfl⟩
  refine congrArg (Option.map _) (render_one _ _ _ fun expand p => ?_)
  rfl

end Declaration

end Stencil
