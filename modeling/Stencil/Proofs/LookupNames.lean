import Stencil.Declaration.Record
import Stencil.Fault
import Stencil.Resolver
import Mathlib

/-!
# The names under which a declared field is found

A record that is declared with getters answers to generated methods, and templates reach its
fields through the default chain, which tries accessors before fields and derives the names of
accessors from the name that it is asked for. The two sides derive names on their own: the
declaration from the key of a field (`Naming.pascal`), the chain from the name in a template
(`Naming.capitalize?`, `Naming.isAccessor`). They agree:

> `capitalize?_camel`: the capitalised form of a key's spelling in one word is what the getter is
> called after.
> `eq_pascal_of_capitalize?`: a key can only be taken for a getter's property if it is spelled in
> one word, and then the getter is its own.
> `resolve_lookupName`: under each of its names a field is found, unless two fields share a name.
-/

namespace Stencil

/-! ## Spellings of an identifier -/

namespace Naming

open Text

/-- The spelling of a key in one word: the first word as it stands, every other one with a
capital. -/
def camel (key : List Char) : List Char := pascalFrom false key

/-- An ASCII letter, and behind it ASCII letters, digits and underscores. -/
def IsIdentifier (key : List Char) : Prop :=
  ∃ c rest, key = c :: rest ∧ c.isAlpha = true ∧ ∀ d ∈ rest, d.isAlphanum = true ∨ d = '_'

theorem toUpper_of_isAlphanum {c : Char} (h : c.isAlphanum = true) : toUpper c = [c.toUpper] := by
  rw [toUpper, if_pos (ascii_of_isAlphanum h)]

theorem isUppercase_toUpper {c : Char} (h : c.isAlpha = true) : isUppercase c.toUpper = true := by
  have halnum : c.isAlphanum = true := by rw [Char.isAlphanum, h, Bool.true_or]
  have hall := of_ascii (p := fun c => !c.isAlpha || isUppercase c.toUpper) (by decide)
    (ascii_of_isAlphanum halnum)
  simpa [h] using hall

theorem toUpper_ne_underscore {c : Char} (h : c.isAlphanum = true) : c.toUpper ≠ '_' := by
  have hall := of_ascii (p := fun c => !c.isAlphanum || c.toUpper != '_') (by decide)
    (ascii_of_isAlphanum h)
  simpa [h] using hall

theorem ne_underscore_of_isAlphanum {c : Char} (h : c.isAlphanum = true) : c ≠ '_' := by
  rintro rfl
  revert h
  decide

/-- No word of a key keeps an underscore. -/
theorem underscore_notMem_pascalFrom {cs : List Char}
    (h : ∀ d ∈ cs, d.isAlphanum = true ∨ d = '_') (wordStart : Bool) :
    '_' ∉ pascalFrom wordStart cs := by
  induction cs generalizing wordStart with
  | nil => simp [pascalFrom]
  | cons d rest ih =>
    have hrest := ih fun e he => h e (List.mem_cons_of_mem d he)
    by_cases hd : d = '_'
    · rw [pascalFrom, if_pos hd]
      exact hrest true
    · have halnum := (h d (List.mem_cons_self ..)).resolve_right hd
      rw [pascalFrom, if_neg hd, toUpper_of_isAlphanum halnum, List.mem_append, not_or]
      refine ⟨?_, hrest false⟩
      cases wordStart with
      | true => simpa using (toUpper_ne_underscore halnum).symm
      | false => simpa using Ne.symm hd

/-- Behind the start of a word, what holds no underscores is copied. -/
theorem pascalFrom_append {cs : List Char} (h : '_' ∉ cs) (rest : List Char) :
    pascalFrom false (cs ++ rest) = cs ++ pascalFrom false rest := by
  induction cs with
  | nil => rfl
  | cons d cs ih =>
    simp only [List.mem_cons, not_or] at h
    rw [List.cons_append, pascalFrom, if_neg (Ne.symm h.1), ih h.2]
    rfl

/-- A text without underscores is one word. -/
theorem pascalFrom_of_one_word {cs : List Char} (h : '_' ∉ cs) : pascalFrom false cs = cs := by
  have happend := pascalFrom_append h []
  rwa [List.append_nil, pascalFrom, List.append_nil] at happend

section

variable {key : List Char} (h : IsIdentifier key)

include h

theorem startsUpper_pascal : startsUpper (pascal key) = true := by
  obtain ⟨c, rest, rfl, hc, -⟩ := h
  have halnum : c.isAlphanum = true := by rw [Char.isAlphanum, hc, Bool.true_or]
  rw [pascal, pascalFrom, if_neg (ne_underscore_of_isAlphanum halnum), if_pos rfl,
    toUpper_of_isAlphanum halnum]
  exact isUppercase_toUpper hc

/-- The capitalised form of a key's spelling in one word is its capitalised spelling. -/
theorem capitalize?_camel : capitalize? (camel key) = some (pascal key) := by
  obtain ⟨c, rest, rfl, hc, -⟩ := h
  have halnum : c.isAlphanum = true := by rw [Char.isAlphanum, hc, Bool.true_or]
  have hne := ne_underscore_of_isAlphanum halnum
  rw [camel, pascal, pascalFrom, pascalFrom, if_neg hne, if_neg hne]
  rfl

theorem underscore_notMem_pascal : '_' ∉ pascal key := by
  obtain ⟨c, rest, rfl, hc, hrest⟩ := h
  refine underscore_notMem_pascalFrom (fun d hd => ?_) true
  rcases List.mem_cons.1 hd with rfl | hd
  · exact .inl (by rw [Char.isAlphanum, hc, Bool.true_or])
  · exact hrest d hd

/-- If the capitalised form of the key itself has no underscores, then it is the capitalised
spelling. -/
theorem eq_pascal_of_capitalize? {property : List Char} (hcap : capitalize? key = some property)
    (hproperty : '_' ∉ property) : property = pascal key := by
  obtain ⟨c, rest, rfl, hc, hrest⟩ := h
  have halnum : c.isAlphanum = true := by rw [Char.isAlphanum, hc, Bool.true_or]
  simp only [capitalize?, Option.some.injEq] at hcap
  have hword : '_' ∉ rest := by
    rw [← hcap, List.mem_append, not_or] at hproperty
    exact hproperty.2
  rw [← hcap, pascal, pascalFrom, if_neg (ne_underscore_of_isAlphanum halnum), if_pos rfl,
    pascalFrom_of_one_word hword]

end

end Naming

/-! ## The default chain on a record -/

namespace Chain

variable {subject w : Value} {name : String}

theorem default_resolve_of_accessor {identity : Nat} {typeName text : String}
    {fields methods : List (String × Value)} (hw : w.isNull = false)
    (h : Resolver.accessor.resolve (.object identity typeName text fields methods) name = some w) :
    Chain.default.resolve (.object identity typeName text fields methods) name = some w := by
  have hmap : Resolver.map.resolve (.object identity typeName text fields methods) name = none :=
    rfl
  have hnonNull : w.nonNull = some w := Value.nonNull_eq_some.2 ⟨rfl, hw⟩
  simp only [Chain.default, resolve, hmap, h, Option.bind_none, Option.bind_some, hnonNull]

theorem default_resolve_of_field {identity : Nat} {typeName text : String}
    {fields methods : List (String × Value)} (hw : w.isNull = false)
    (haccessor :
      Resolver.accessor.resolve (.object identity typeName text fields methods) name = none)
    (h : Table.get? fields name = some w) :
    Chain.default.resolve (.object identity typeName text fields methods) name = some w := by
  have hmap : Resolver.map.resolve (.object identity typeName text fields methods) name = none :=
    rfl
  have hfield :
      Resolver.field.resolve (.object identity typeName text fields methods) name = some w := by
    simp only [Resolver.field, Value.field?, h]
  have hnonNull : w.nonNull = some w := Value.nonNull_eq_some.2 ⟨rfl, hw⟩
  simp only [Chain.default, resolve, hmap, haccessor, hfield, Option.bind_none, Option.bind_some,
    hnonNull]

end Chain

/-! ## The names of a field -/

namespace Declaration

open Naming (pascal camel getter tester IsIdentifier)

/-- The names under which a field is looked up: its key, the key in one word, `get` before the
capitalised key and, for a truth value, `is` before it. -/
def lookupNames (key : String) (f : RecordField) : List String :=
  key :: String.ofList (camel key.toList) :: String.ofList (getter (pascal key.toList)) ::
    if f.isFlag then [String.ofList (tester (pascal key.toList))] else []

/-- No two fields share a name. -/
def Unshared (fs : List (String × RecordField)) : Prop :=
  fs.Pairwise fun a b => (lookupNames a.1 a.2).Disjoint (lookupNames b.1 b.2)

variable {fs : List (String × RecordField)} {a b : String × RecordField} {name : String}

theorem key_mem_lookupNames (key : String) (f : RecordField) : key ∈ lookupNames key f :=
  List.mem_cons_self ..

theorem getter_mem_lookupNames (key : String) (f : RecordField) :
    String.ofList (getter (pascal key.toList)) ∈ lookupNames key f := by
  simp [lookupNames]

/-- A name tells whose it is. -/
theorem Unshared.owner (h : Unshared fs) (ha : a ∈ fs) (hb : b ∈ fs)
    (hna : name ∈ lookupNames a.1 a.2) (hnb : name ∈ lookupNames b.1 b.2) : b = a := by
  by_contra hne
  have : Std.Symm fun a b : String × RecordField =>
      (lookupNames a.1 a.2).Disjoint (lookupNames b.1 b.2) := ⟨fun _ _ hab => hab.symm⟩
  exact List.Pairwise.forall h hb ha hne hnb hna

theorem mem_getters {f : RecordField} {key : String} {e : String × Access} :
    e ∈ f.getters key ↔ e = (String.ofList (getter (pascal key.toList)), .field f.name) ∨
      f.isFlag = true ∧ e = (String.ofList (tester (pascal key.toList)), .field f.name) := by
  unfold RecordField.getters
  cases f.isFlag <;> simp

/-- A generated method reads its field, under one of the field's names. -/
theorem of_mem_getters {f : RecordField} {key : String} {e : String × Access}
    (h : e ∈ f.getters key) : e.1 ∈ lookupNames key f ∧ e.2 = .field f.name := by
  rcases mem_getters.1 h with rfl | ⟨hflag, rfl⟩
  · simp [lookupNames]
  · simp [lookupNames, hflag]

/-- Fields with one capitalised key have one getter. -/
theorem Unshared.eq_of_pascal (h : Unshared fs) (ha : a ∈ fs) (hb : b ∈ fs)
    (hpascal : pascal b.1.toList = pascal a.1.toList) : b = a := by
  have hgetter := getter_mem_lookupNames b.1 b.2
  rw [hpascal] at hgetter
  exact h.owner ha hb (getter_mem_lookupNames a.1 a.2) hgetter

/-- `get` and `is` are told apart, and what stands behind them as well. -/
theorem pascal_eq_of_getter {property : List Char} {e : String × Access}
    (he : e ∈ a.2.getters a.1)
    (hname : e.1 = String.ofList (getter property) ∨ e.1 = String.ofList (tester property)) :
    pascal a.1.toList = property := by
  rcases mem_getters.1 he with rfl | ⟨-, rfl⟩
  all_goals
    rcases hname with h | h <;> simpa [getter, tester] using congrArg String.toList h

/-! ## What a record with getters answers -/

/-- The fields of a record under their keys. -/
def keyTable (fs : List (String × RecordField)) : Table Access :=
  fs.map fun (key, f) => (key, .field f.name)

theorem keyTable_of_mem (h : Unshared fs) (ha : a ∈ fs) :
    (keyTable fs).get? a.1 = some (.field a.2.name) := by
  refine Table.get?_of_agree (List.mem_map.2 ⟨a, ha, rfl⟩) fun e he hkey => ?_
  obtain ⟨b, hb, rfl⟩ := List.mem_map.1 he
  have hba : b = a :=
    h.owner ha hb (key_mem_lookupNames a.1 a.2) (hkey ▸ key_mem_lookupNames b.1 b.2)
  rw [hba]

/-- The methods of a record that has no methods but its getters. -/
def getterTable (fs : List (String × RecordField)) : Table Access :=
  fs.flatMap fun (key, f) => f.getters key

/-- Only this field has generated methods of the name. -/
def OnlyOf (fs : List (String × RecordField)) (a : String × RecordField) (name : String) : Prop :=
  ∀ b ∈ fs, ∀ e ∈ b.2.getters b.1, e.1 = name → b = a

/-- A field's own names are nobody else's. -/
theorem Unshared.onlyOf (h : Unshared fs) (ha : a ∈ fs) (hname : name ∈ lookupNames a.1 a.2) :
    OnlyOf fs a name := by
  intro b hb e he heq
  exact h.owner ha hb hname (heq ▸ (of_mem_getters he).1)

theorem getterTable_of_onlyOf (h : OnlyOf fs a name) :
    (getterTable fs).get? name = none ∨ (getterTable fs).get? name = some (.field a.2.name) := by
  cases hget : (getterTable fs).get? name with
  | none => exact .inl rfl
  | some access =>
    obtain ⟨b, hb, he⟩ := List.mem_flatMap.1 (Table.mem_of_get? hget)
    have hba := h b hb _ he rfl
    subst hba
    exact .inr (congrArg some (of_mem_getters he).2)

theorem getterTable_of_mem (h : OnlyOf fs a name) (ha : a ∈ fs)
    (hmem : (name, .field a.2.name) ∈ a.2.getters a.1) :
    (getterTable fs).get? name = some (.field a.2.name) := by
  refine Table.get?_of_agree (List.mem_flatMap.2 ⟨a, ha, hmem⟩) fun e he hname => ?_
  obtain ⟨b, hb, hgetter⟩ := List.mem_flatMap.1 he
  rw [(of_mem_getters hgetter).2, h b hb e hgetter hname]

theorem or_of_or {α : Type} {x y : Option α} {w : α} (hx : x = none ∨ x = some w)
    (hy : y = none ∨ y = some w) : x.or y = none ∨ x.or y = some w := by
  rcases hx with rfl | rfl
  · simpa using hy
  · exact .inr rfl

section

variable {typeName : String} {identity : Nat} {i : Instance}

/-- A record that has no methods but its getters. -/
abbrev gettersOnly (typeName : String) (fs : List (String × RecordField)) : RecordTables :=
  ⟨typeName, keyTable fs, getterTable fs⟩

theorem method?_gettersOnly (name : String) :
    ((gettersOnly typeName fs).value identity i).method? name =
      ((getterTable fs).get? name).map i.read :=
  Table.get?_mapValues ..

theorem method?_of_onlyOf (h : OnlyOf fs a name) :
    ((gettersOnly typeName fs).value identity i).method? name = none ∨
      ((gettersOnly typeName fs).value identity i).method? name =
        some (i.read (.field a.2.name)) := by
  rw [method?_gettersOnly]
  rcases getterTable_of_onlyOf h with hget | hget
  · exact .inl (by rw [hget, Option.map_none])
  · exact .inr (by rw [hget, Option.map_some])

theorem method?_of_mem (h : OnlyOf fs a name) (ha : a ∈ fs)
    (hmem : (name, .field a.2.name) ∈ a.2.getters a.1) :
    ((gettersOnly typeName fs).value identity i).method? name =
      some (i.read (.field a.2.name)) := by
  rw [method?_gettersOnly, getterTable_of_mem h ha hmem, Option.map_some]

/-- Where neither the name nor what it capitalises to belongs to another field, accessors give
this field's value or nothing. -/
theorem accessor_of_onlyOf (h : OnlyOf fs a name)
    (hproperty : ∀ property, Naming.capitalize? name.toList = some property →
      ∀ b ∈ fs, pascal b.1.toList = property → b = a) :
    Resolver.accessor.resolve ((gettersOnly typeName fs).value identity i) name = none ∨
      Resolver.accessor.resolve ((gettersOnly typeName fs).value identity i) name =
        some (i.read (.field a.2.name)) := by
  rw [Resolver.accessor_resolve]
  refine or_of_or ?_ ?_
  · split
    next => exact method?_of_onlyOf h
    next => exact .inl rfl
  · cases hcap : Naming.capitalize? name.toList with
    | none => exact .inl rfl
    | some property =>
      refine or_of_or (method?_of_onlyOf ?_) (method?_of_onlyOf ?_)
      · exact fun b hb e he heq => hproperty _ hcap b hb (pascal_eq_of_getter he (.inl heq))
      · exact fun b hb e he heq => hproperty _ hcap b hb (pascal_eq_of_getter he (.inr heq))

/-- A getter is found under its own name. -/
theorem accessor_of_getter (h : OnlyOf fs a name) (ha : a ∈ fs)
    (hmem : (name, .field a.2.name) ∈ a.2.getters a.1)
    (haccessor : Naming.isAccessor name.toList = true) :
    Resolver.accessor.resolve ((gettersOnly typeName fs).value identity i) name =
      some (i.read (.field a.2.name)) := by
  rw [Resolver.accessor_resolve, if_pos haccessor, method?_of_mem h ha hmem]
  rfl

/-- And under the name of the property that it is called after. -/
theorem accessor_of_property (h : Unshared fs) (ha : a ∈ fs) (honly : OnlyOf fs a name)
    (hcap : Naming.capitalize? name.toList = some (pascal a.1.toList)) :
    Resolver.accessor.resolve ((gettersOnly typeName fs).value identity i) name =
      some (i.read (.field a.2.name)) := by
  have hgetter : OnlyOf fs a (String.ofList (getter (pascal a.1.toList))) :=
    h.onlyOf ha (getter_mem_lookupNames a.1 a.2)
  rw [Resolver.accessor_resolve, hcap, Option.bind_some,
    method?_of_mem hgetter ha (mem_getters.2 (.inl rfl))]
  split
  next =>
    rcases method?_of_onlyOf honly with hnone | hsome
    · rw [hnone]
      rfl
    · rw [hsome]
      rfl
  next => rfl

end

theorem isAccessor_getter {property : List Char} (h : Naming.startsUpper property = true) :
    Naming.isAccessor (getter property) = true := h

theorem isAccessor_tester {property : List Char} (h : Naming.startsUpper property = true) :
    Naming.isAccessor (tester property) = true := h

/-- What a declaration comes to. -/
theorem tables_eq_ok {r : Record} {t : RecordTables} (h : r.tables = .ok t) :
    ∃ o fs, r.options = .ok o ∧ r.keyedFields r.declaredFields = .ok fs ∧
      t = ⟨r.name, keyTable fs, o.methods ++ if o.getters then getterTable fs else []⟩ := by
  unfold Record.tables at h
  split at h
  next => cases h
  next =>
    obtain ⟨o, ho, h⟩ := of_bind_eq_ok h
    obtain ⟨fs, hfs, rfl⟩ := of_map_eq_ok h
    exact ⟨o, fs, ho, hfs, rfl⟩

/-- What a declaration with getters and no listed methods comes to. -/
theorem tables_gettersOnly {r : Record} {t : RecordTables} (htables : r.tables = .ok t)
    (hoptions : r.options = .ok ⟨true, []⟩) (hfields : r.keyedFields r.declaredFields = .ok fs) :
    t = gettersOnly r.name fs := by
  obtain ⟨o, fs', ho, hfs', rfl⟩ := tables_eq_ok htables
  cases hoptions.symm.trans ho
  cases hfields.symm.trans hfs'
  rfl

/-- **The names of a declaration and of the default chain agree.** Take a record that is declared
with getters and without listed methods, whose keys are identifiers, and in which no two fields
share a name. Then in every value of the record each field that is not null is found under every
one of its names. -/
theorem resolve_lookupName {r : Record} {t : RecordTables} (htables : r.tables = .ok t)
    (hoptions : r.options = .ok ⟨true, []⟩) (hfields : r.keyedFields r.declaredFields = .ok fs)
    (hkeys : ∀ a ∈ fs, IsIdentifier a.1.toList) (hunshared : Unshared fs) (ha : a ∈ fs)
    (hname : name ∈ lookupNames a.1 a.2) (identity : Nat) {i : Instance}
    (hvalue : (i.read (.field a.2.name)).isNull = false) :
    Chain.default.resolve (t.value identity i) name = some (i.read (.field a.2.name)) := by
  rw [tables_gettersOnly htables hoptions hfields]
  have hkey := hkeys a ha
  have honly := hunshared.onlyOf ha hname
  have hupper := Naming.startsUpper_pascal hkey
  simp only [lookupNames, List.mem_cons] at hname
  rcases hname with rfl | rfl | rfl | htester
  · -- The key: if its capitalised form is a getter's property, then it is that of its own getter.
    have hproperty : ∀ property, Naming.capitalize? a.1.toList = some property →
        ∀ b ∈ fs, pascal b.1.toList = property → b = a := by
      rintro property hcap b hb rfl
      have hword := Naming.underscore_notMem_pascal (hkeys b hb)
      exact hunshared.eq_of_pascal ha hb (Naming.eq_pascal_of_capitalize? hkey hcap hword)
    rcases accessor_of_onlyOf honly hproperty with hnone | hsome
    · refine Chain.default_resolve_of_field hvalue hnone ?_
      rw [Table.get?_mapValues, keyTable_of_mem hunshared ha, Option.map_some]
    · exact Chain.default_resolve_of_accessor hvalue hsome
  · refine Chain.default_resolve_of_accessor hvalue (accessor_of_property hunshared ha honly ?_)
    rw [String.toList_ofList, Naming.capitalize?_camel hkey]
  · refine Chain.default_resolve_of_accessor hvalue (accessor_of_getter honly ha ?_ ?_)
    · exact mem_getters.2 (.inl rfl)
    · rw [String.toList_ofList]
      exact isAccessor_getter hupper
  · split at htester
    next hflag =>
      rw [List.mem_singleton] at htester
      subst htester
      refine Chain.default_resolve_of_accessor hvalue (accessor_of_getter honly ha ?_ ?_)
      · exact mem_getters.2 (.inr ⟨hflag, rfl⟩)
      · rw [String.toList_ofList]
        exact isAccessor_tester hupper
    next => cases htester

/-- A user with a name in two words, a truth value, and a field that is kept back. -/
theorem resolve_lookupName_of_user :
    let name : RecordField := ⟨"user_name", "String", []⟩
    let active : RecordField := ⟨"active", "bool", []⟩
    let secret : RecordField := ⟨"secret", "String", [[.word "ignore"]]⟩
    let r : Record := ⟨"User", .named, [[.word "getters"]], [name, active, secret]⟩
    let fs := [("user_name", name), ("active", active)]
    let i : Instance := ⟨[("user_name", .str "Ada"), ("active", .bool true)], []⟩
    lookupNames "user_name" name = ["user_name", "userName", "getUserName"] ∧
      lookupNames "active" active = ["active", "active", "getActive", "isActive"] ∧
      ∃ t, r.tables = .ok t ∧ r.options = .ok ⟨true, []⟩ ∧
        r.keyedFields r.declaredFields = .ok fs ∧ (∀ a ∈ fs, IsIdentifier a.1.toList) ∧
        Unshared fs ∧
        Chain.default.resolve (t.value 0 i) "userName" = some (.str "Ada") ∧
        Chain.default.resolve (t.value 0 i) "isActive" = some (.bool true) := by
  intro name active secret r fs i
  have hname : lookupNames "user_name" name = ["user_name", "userName", "getUserName"] := by
    decide +kernel
  have hactive : lookupNames "active" active = ["active", "active", "getActive", "isActive"] := by
    decide +kernel
  have hoptions : r.options = .ok ⟨true, []⟩ := by decide +kernel
  have hfields : r.keyedFields r.declaredFields = .ok fs := by decide +kernel
  have hkeys : ∀ a ∈ fs, IsIdentifier a.1.toList := by
    intro a ha
    simp only [fs, List.mem_cons, List.not_mem_nil, or_false] at ha
    rcases ha with rfl | rfl
    · exact ⟨'u', ['s', 'e', 'r', '_', 'n', 'a', 'm', 'e'], by decide +kernel, by decide, by simp⟩
    · exact ⟨'a', ['c', 't', 'i', 'v', 'e'], by decide +kernel, by decide, by simp⟩
  have hunshared : Unshared fs := by
    simp only [Unshared, fs, List.pairwise_cons, List.mem_singleton, forall_eq, hname, hactive]
    refine ⟨?_, by simp, .nil⟩
    simp [List.Disjoint]
  obtain ⟨t, ht⟩ : ∃ t, r.tables = .ok t := ⟨gettersOnly "User" fs, by decide +kernel⟩
  refine ⟨hname, hactive, t, ht, hoptions, hfields, hkeys, hunshared, ?_, ?_⟩
  · have hmem : ("user_name", name) ∈ fs := List.mem_cons_self ..
    have hnamed : "userName" ∈ lookupNames "user_name" name := by simp [hname]
    have hvalue : (i.read (.field name.name)).isNull = false := by decide +kernel
    exact resolve_lookupName ht hoptions hfields hkeys hunshared hmem hnamed 0 hvalue
  · have hmem : ("active", active) ∈ fs := List.mem_cons_of_mem _ (List.mem_cons_self ..)
    have hnamed : "isActive" ∈ lookupNames "active" active := by simp [hactive]
    have hvalue : (i.read (.field active.name)).isNull = false := by decide +kernel
    exact resolve_lookupName ht hoptions hfields hkeys hunshared hmem hnamed 0 hvalue

end Declaration

end Stencil
