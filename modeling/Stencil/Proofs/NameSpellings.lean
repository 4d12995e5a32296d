import Stencil.Proofs.LookupNames

/-!
# Names in words

A name in several words is spelled with underscores in a declaration (`create_time`) and with
capitals in a template (`createTime`). A declaration goes from the former to the name of a getter,
the resolvers go from the latter to the name of a field and to that of a getter, and neither knows
the words: one sees underscores, the others see capitals. They meet, as long as every word begins
with a lower-case letter and goes on without capitals and underscores.

> `snakeFrom_camel`, `pascal_snake`: each conversion, word by word.
> `snake?_camel`: the spelling with underscores comes back from the one with capitals.
> `capitalize?_camel`: the two spellings have one capitalized form.
> `isAccessor_camel`: which names with capitals are spelled like accessors themselves.
> `spellings_correspond`: what this means for fields and accessors.
-/

namespace Stencil

open Text

namespace Naming

/-! ## Letters -/

section

variable {c : Char}

theorem isAlpha_of_isLower (h : c.isLower = true) : c.isAlpha = true := by
  rw [Char.isAlpha, h, Bool.or_true]

theorem isAlphanum_of_isLower (h : c.isLower = true) : c.isAlphanum = true := by
  rw [Char.isAlphanum, isAlpha_of_isLower h, Bool.true_or]

theorem isUppercase_of_isAlphanum (h : c.isAlphanum = true) : isUppercase c = c.isUpper := by
  rw [isUppercase, if_pos (ascii_of_isAlphanum h)]

theorem isUppercase_of_isLower (h : c.isLower = true) : isUppercase c = false := by
  rw [isUppercase_of_isAlphanum (isAlphanum_of_isLower h)]
  exact Bool.eq_false_iff.2 (Char.not_isUpper_of_isLower h)

/-- A letter comes back from its capital. -/
theorem toLower_toUpper (h : c.isLower = true) : toLower c.toUpper = [c] := by
  have halpha : c.toUpper.isAlpha = true := by
    rw [Char.isAlpha_toUpper_eq_isAlpha, isAlpha_of_isLower h]
  have hascii := ascii_of_isAlphanum (by rw [Char.isAlphanum, halpha, Bool.true_or])
  rw [toLower, if_pos hascii, Char.toLower_toUpper_eq_toLower,
    Char.toLower_eq_of_not_isUpper (Char.not_isUpper_of_isLower h)]

theorem isUppercase_of_isDigit (h : c.isDigit = true) : isUppercase c = false := by
  have halnum : c.isAlphanum = true := by rw [Char.isAlphanum, h, Bool.or_true]
  have hall := of_ascii (p := fun c => !c.isDigit || !isUppercase c) (by decide)
    (ascii_of_isAlphanum halnum)
  simpa [h] using hall

end

/-! ## Words -/

/-- A lower-case word: a lower-case ASCII letter, and behind it whatever is neither a capital nor an
underscore, so letters and digits of any script among others. -/
structure LowerWord where
  initial : Char
  rest : List Char
  initial_lower : initial.isLower = true
  rest_lower : ∀ d ∈ rest, isUppercase d = false ∧ d ≠ '_'

namespace LowerWord

/-- A word of lower-case letters and digits. -/
def ofLetters (c : Char) (rest : List Char) (hc : c.isLower = true)
    (hrest : ∀ d ∈ rest, d.isLower = true ∨ d.isDigit = true) : LowerWord where
  initial := c
  rest := rest
  initial_lower := hc
  rest_lower d hd := by
    rcases hrest d hd with h | h
    · exact ⟨isUppercase_of_isLower h, ne_underscore_of_isAlphanum (isAlphanum_of_isLower h)⟩
    · exact ⟨isUppercase_of_isDigit h,
        ne_underscore_of_isAlphanum (by rw [Char.isAlphanum, h, Bool.or_true])⟩

variable (w : LowerWord)

/-- The word as it stands. -/
def text : List Char := w.initial :: w.rest

/-- The word with a capital. -/
def capitalized : List Char := w.initial.toUpper :: w.rest

theorem isUppercase_of_mem_rest {c : Char} (h : c ∈ w.rest) : isUppercase c = false :=
  (w.rest_lower c h).1

theorem isUppercase_of_mem_text {c : Char} (h : c ∈ w.text) : isUppercase c = false := by
  rcases List.mem_cons.1 h with rfl | h
  · exact isUppercase_of_isLower w.initial_lower
  · exact w.isUppercase_of_mem_rest h

theorem initial_ne_underscore : w.initial ≠ '_' :=
  ne_underscore_of_isAlphanum (isAlphanum_of_isLower w.initial_lower)

theorem underscore_notMem_rest : '_' ∉ w.rest := fun h => (w.rest_lower '_' h).2 rfl

theorem toUpper_initial : toUpper w.initial = [w.initial.toUpper] :=
  toUpper_of_isAlphanum (isAlphanum_of_isLower w.initial_lower)

theorem isUppercase_initial_toUpper : isUppercase w.initial.toUpper = true :=
  isUppercase_toUpper (isAlpha_of_isLower w.initial_lower)

end LowerWord

/-! ## Conversions, word by word -/

/-- What holds no capitals is copied. -/
theorem snakeFrom_append {cs : List Char} (h : ∀ c ∈ cs, isUppercase c = false)
    (rest : List Char) : snakeFrom false (cs ++ rest) = cs ++ snakeFrom false rest := by
  induction cs with
  | nil => rfl
  | cons c cs ih =>
    obtain ⟨hc, hcs⟩ := List.forall_mem_cons.1 h
    rw [List.cons_append, snakeFrom, hc, ih hcs]
    rfl

section

variable (w : LowerWord) (ws : List LowerWord)

theorem snakeFrom_text (atStart : Bool) (rest : List Char) :
    snakeFrom atStart (w.text ++ rest) = w.text ++ snakeFrom false rest := by
  rw [LowerWord.text, List.cons_append, snakeFrom, isUppercase_of_isLower w.initial_lower,
    snakeFrom_append fun _ => w.isUppercase_of_mem_rest]
  rfl

/-- A capital makes an underscore and a word. -/
theorem snakeFrom_capitalized (rest : List Char) :
    snakeFrom false (w.capitalized ++ rest) = '_' :: w.text ++ snakeFrom false rest := by
  rw [LowerWord.capitalized, List.cons_append, snakeFrom, if_pos w.isUppercase_initial_toUpper,
    toLower_toUpper w.initial_lower, snakeFrom_append fun _ => w.isUppercase_of_mem_rest]
  rfl

theorem snakeFrom_flatMap :
    snakeFrom false (ws.flatMap LowerWord.capitalized) = ws.flatMap fun w => '_' :: w.text := by
  induction ws with
  | nil => rfl
  | cons w ws ih => rw [List.flatMap_cons, snakeFrom_capitalized, ih, List.flatMap_cons]

/-- At the start of a word the capital is made. -/
theorem pascalFrom_text (rest : List Char) :
    pascalFrom true (w.text ++ rest) = w.capitalized ++ pascalFrom false rest := by
  rw [LowerWord.text, List.cons_append, pascalFrom, if_neg w.initial_ne_underscore, if_pos rfl,
    w.toUpper_initial, pascalFrom_append w.underscore_notMem_rest]
  rfl

theorem pascalFrom_flatMap :
    pascalFrom false (ws.flatMap fun w => '_' :: w.text) = ws.flatMap LowerWord.capitalized := by
  induction ws with
  | nil => rfl
  | cons w ws ih =>
    rw [List.flatMap_cons, List.cons_append, pascalFrom, if_pos rfl, pascalFrom_text, ih,
      List.flatMap_cons]

theorem startsUpper_flatMap (h : ws ≠ []) :
    startsUpper (ws.flatMap LowerWord.capitalized) = true := by
  cases ws with
  | nil => exact absurd rfl h
  | cons w ws => exact w.isUppercase_initial_toUpper

theorem flatMap_capitalized_eq_nil : ws.flatMap LowerWord.capitalized = [] ↔ ws = [] := by
  cases ws with
  | nil => exact ⟨fun _ => rfl, fun _ => rfl⟩
  | cons w ws => simp [LowerWord.capitalized]

end

/-! ## The first capital -/

/-- A name is spelled like an accessor if `get` or `is` stands in it before a capital. -/
theorem isAccessor_iff {name : List Char} :
    isAccessor name = true ↔
      ∃ property, startsUpper property = true ∧
        (name = getter property ∨ name = tester property) := by
  constructor
  · intro h
    unfold isAccessor at h
    split at h
    next property => exact ⟨property, h, .inl rfl⟩
    next property => exact ⟨property, h, .inr rfl⟩
    next => cases h
  · rintro ⟨property, hproperty, rfl | rfl⟩
    · exact Declaration.isAccessor_getter hproperty
    · exact Declaration.isAccessor_tester hproperty

section

variable {cs rest : List Char} (hcs : ∀ c ∈ cs, isUppercase c = false)
  (hrest : rest = [] ∨ startsUpper rest = true)

include hcs hrest

/-- What stands before the first capital. -/
theorem takeWhile_append : (cs ++ rest).takeWhile (fun c => !isUppercase c) = cs := by
  have hstop : rest.takeWhile (fun c => !isUppercase c) = [] := by
    cases rest with
    | nil => rfl
    | cons c rest =>
      have hc : isUppercase c = true := hrest.resolve_left (List.cons_ne_nil _ _)
      simp [hc]
  rw [List.takeWhile_append_of_pos (fun c hc => by simp [hcs c hc]), hstop, List.append_nil]

/-- The prefix of an accessor is all that stands before the first capital. -/
theorem isAccessor_append :
    isAccessor (cs ++ rest) = true ↔
      rest ≠ [] ∧ (cs = ['g', 'e', 't'] ∨ cs = ['i', 's']) := by
  constructor
  · intro h
    obtain ⟨property, hproperty, hname⟩ := isAccessor_iff.1 h
    have hne : property ≠ [] := by
      rintro rfl
      cases hproperty
    -- Both ways to take the name apart cut it at its first capital.
    have hcut : ∀ q : List Char, q.any isUppercase = false → cs ++ rest = q ++ property →
        cs = q ∧ rest = property := by
      intro q hnone heq
      have hq : ∀ c ∈ q, isUppercase c = false := by simpa using hnone
      have hsame : cs = q := by
        rw [← takeWhile_append hcs hrest, heq, takeWhile_append hq (.inr hproperty)]
      subst hsame
      exact ⟨rfl, List.append_cancel_left heq⟩
    rcases hname with hname | hname
    · obtain ⟨hget, hproperty'⟩ := hcut ['g', 'e', 't'] (by decide) hname
      exact ⟨hproperty' ▸ hne, .inl hget⟩
    · obtain ⟨his, hproperty'⟩ := hcut ['i', 's'] (by decide) hname
      exact ⟨hproperty' ▸ hne, .inr his⟩
  · rintro ⟨hne, rfl | rfl⟩
    · exact hrest.resolve_left hne
    · exact hrest.resolve_left hne

end

/-! ## Names -/

/-- A name in words, one at least. -/
structure Phrase where
  first : LowerWord
  others : List LowerWord

namespace Phrase

variable (p : Phrase)

/-- The spelling with underscores: they join the words. -/
def snake : List Char := ['_'].intercalate ((p.first :: p.others).map LowerWord.text)

/-- The spelling with capitals: all words but the first have one. -/
def camel : List Char := p.first.text ++ p.others.flatMap LowerWord.capitalized

theorem snake_eq : p.snake = p.first.text ++ p.others.flatMap fun w => '_' :: w.text := by
  obtain ⟨first, others⟩ := p
  unfold snake
  induction others generalizing first with
  | nil => simp
  | cons w ws ih =>
    have hrest := ih w
    rw [List.map_cons] at hrest
    rw [List.map_cons, List.map_cons, List.intercalate_cons_cons, hrest]
    simp

theorem snakeFrom_camel : snakeFrom true p.camel = p.snake := by
  rw [camel, snakeFrom_text, snakeFrom_flatMap, snake_eq]

/-- Capitals are where a second word is. -/
theorem any_isUppercase_camel : p.camel.any isUppercase = !p.others.isEmpty := by
  have hfirst : p.first.text.any isUppercase = false :=
    List.any_eq_false.2 fun c hc => by simp [p.first.isUppercase_of_mem_text hc]
  rw [camel, List.any_append, hfirst, Bool.false_or]
  cases p.others with
  | nil => rfl
  | cons w ws =>
    rw [List.flatMap_cons, LowerWord.capitalized, List.cons_append, List.any_cons,
      w.isUppercase_initial_toUpper]
    rfl

/-- **The spelling with underscores comes back from the one with capitals.** -/
theorem snake?_camel : snake? p.camel = if p.others.isEmpty then none else some p.snake := by
  rw [snake?, any_isUppercase_camel, snakeFrom_camel]
  cases p.others.isEmpty <;> rfl

theorem pascal_snake : pascal p.snake = (p.first :: p.others).flatMap LowerWord.capitalized := by
  rw [pascal, snake_eq, pascalFrom_text, pascalFrom_flatMap, List.flatMap_cons]

/-- **Both spellings have one capitalized form.** -/
theorem capitalize?_camel : capitalize? p.camel = some (pascal p.snake) := by
  rw [pascal_snake, camel, LowerWord.text, List.cons_append, capitalize?, p.first.toUpper_initial]
  rfl

/-- **The spelling with capitals is spelled like an accessor if the first word is `get` or `is` and
has others behind it.** -/
theorem isAccessor_camel :
    isAccessor p.camel = true ↔
      p.others ≠ [] ∧ (p.first.text = ['g', 'e', 't'] ∨ p.first.text = ['i', 's']) := by
  have hrest : p.others.flatMap LowerWord.capitalized = [] ∨
      startsUpper (p.others.flatMap LowerWord.capitalized) = true := by
    by_cases hone : p.others = []
    · exact .inl ((flatMap_capitalized_eq_nil _).2 hone)
    · exact .inr (startsUpper_flatMap _ hone)
  rw [camel, isAccessor_append (fun c => p.first.isUppercase_of_mem_text) hrest, ne_eq,
    flatMap_capitalized_eq_nil]

end Phrase

end Naming

/-! ## Fields and accessors -/

namespace Declaration

open Naming (Phrase pascal getter tester)

/-- A declared record with getters shows the field under the key. -/
structure Record.Exposes (r : Record) (t : RecordTables) (key : String) (f : RecordField) :
    Prop where
  tables : r.tables = .ok t
  getters : ∃ o, r.options = .ok o ∧ o.getters = true
  keyed : ∃ fs, r.keyedFields r.declaredFields = .ok fs ∧ (key, f) ∈ fs

variable {r : Record} {t : RecordTables} {key : String} {f : RecordField}

/-- The generated methods of the field are in the table. -/
theorem Record.Exposes.getters_subset (h : r.Exposes t key f) : f.getters key ⊆ t.methods := by
  obtain ⟨o, fs, ho, hfs, rfl⟩ := tables_eq_ok h.tables
  obtain ⟨o', ho', hgetters⟩ := h.getters
  obtain ⟨fs', hfs', hmem⟩ := h.keyed
  cases ho.symm.trans ho'
  cases hfs.symm.trans hfs'
  rw [if_pos hgetters]
  exact fun e he => List.mem_append_right _ (List.mem_flatMap.2 ⟨_, hmem, he⟩)

/-- **A name that capitalizes as the key does leads to the field**, unless another method claims the
name or the getter's. -/
theorem Record.Exposes.accessor_resolve (h : r.Exposes t key f) {name : String}
    (hcap : Naming.capitalize? name.toList = some (pascal key.toList))
    (hunclaimed : ∀ e ∈ t.methods,
      e.1 = name ∨ e.1 = String.ofList (getter (pascal key.toList)) → e.2 = .field f.name)
    (identity : Nat) (i : Instance) :
    Resolver.accessor.resolve (t.value identity i) name = some (i.read (.field f.name)) := by
  have hmethod : ∀ n, (t.value identity i).method? n = (Table.get? t.methods n).map i.read :=
    Table.get?_mapValues _ _
  have hgetter : Table.get? t.methods (String.ofList (getter (pascal key.toList))) =
      some (.field f.name) :=
    Table.get?_of_agree (h.getters_subset (mem_getters.2 (.inl rfl))) fun e he heq =>
      hunclaimed e he (.inr heq)
  rw [Resolver.accessor_resolve, hcap, Option.bind_some, hmethod, hmethod, hgetter]
  split
  next =>
    cases hname : Table.get? t.methods name with
    | none => rfl
    | some access =>
      have haccess := hunclaimed _ (Table.mem_of_get? hname) (.inl rfl)
      exact congrArg (fun a => some (i.read a)) haccess
  next => rfl

/-- **The spellings of a name correspond.** Take a name in words, spelled with underscores and with
capitals. The spelling with underscores comes back from the one with capitals; where there is one
word only, the two are the same and nothing has to come back. The capitalized form of the one is that
of the other.

So on every subject a field is looked up under the spelling with capitals and, if there is none, under
the one with underscores. An accessor is looked up under the names of the getter and of the tester of
the spelling with underscores; the name as it stands is tried before them only if the first word is
`get` or `is` and has others behind it. The getter, and for a truth value the tester, are all that is
generated for a field whose key is the spelling with underscores. A record with getters has them among
its methods, and then the spelling with capitals leads to the field, unless another method claims that
name or the getter's. -/
theorem spellings_correspond (p : Phrase) :
    let snakeName := String.ofList p.snake
    let camelName := String.ofList p.camel
    let getterName := String.ofList (getter (pascal p.snake))
    let testerName := String.ofList (tester (pascal p.snake))
    (Naming.snake? p.camel = if p.others.isEmpty then none else some p.snake) ∧
      Naming.capitalize? p.camel = some (pascal p.snake) ∧
      (∀ subject : Value, Resolver.field.resolve subject camelName =
        (subject.field? camelName).or (subject.field? snakeName)) ∧
      (∀ subject : Value, Resolver.accessor.resolve subject camelName =
        (if Naming.isAccessor p.camel then subject.method? camelName else none).or
          ((subject.method? getterName).or (subject.method? testerName))) ∧
      (Naming.isAccessor p.camel = true ↔
        p.others ≠ [] ∧ (p.first.text = ['g', 'e', 't'] ∨ p.first.text = ['i', 's'])) ∧
      ∀ f : RecordField,
        (f.getters snakeName = (getterName, .field f.name) ::
          if f.isFlag then [(testerName, .field f.name)] else []) ∧
        ∀ r t, Record.Exposes r t snakeName f → f.getters snakeName ⊆ t.methods ∧
          ((∀ e ∈ t.methods, e.1 = camelName ∨ e.1 = getterName → e.2 = .field f.name) →
            ∀ identity i, Resolver.accessor.resolve (t.value identity i) camelName =
              some (i.read (.field f.name))) := by
  intro snakeName camelName getterName testerName
  have hsnake : snakeName.toList = p.snake := String.toList_ofList
  have hcamel : camelName.toList = p.camel := String.toList_ofList
  refine ⟨p.snake?_camel, p.capitalize?_camel, fun subject => ?_, fun subject => ?_,
    p.isAccessor_camel, fun f => ⟨?_, fun r t h => ⟨h.getters_subset, fun hunclaimed => ?_⟩⟩⟩
  · rw [Resolver.field_resolve, hcamel, p.snake?_camel]
    split
    next hone =>
      -- With one word the two spellings are the same.
      have hsame : snakeName = camelName := by
        rw [List.isEmpty_iff] at hone
        simp only [snakeName, camelName, Phrase.snake_eq, Phrase.camel, hone, List.flatMap_nil]
      rw [hsame, Option.bind_none, Option.or_none, Option.or_self]
    next => rfl
  · rw [Resolver.accessor_resolve, hcamel, p.capitalize?_camel, Option.bind_some]
  · rw [RecordField.getters, hsnake]
  · refine h.accessor_resolve ?_ ?_
    · rw [hcamel, hsnake, p.capitalize?_camel]
    · rwa [hsnake]

/-- A truth value in three words, the first of which is a prefix of accessors. -/
theorem spellings_correspond_of_flag :
    let p : Phrase := ⟨.ofLetters 'i' ['s'] (by decide) (by simp),
      [.ofLetters 'o' ['p', 'e', 'n'] (by decide) (by simp),
        .ofLetters 'b' ['2', 'b'] (by decide) (by simp)]⟩
    let f : RecordField := ⟨"is_open_b2b", "bool", []⟩
    let r : Record := ⟨"Shop", .named, [[.word "getters"]], [⟨"title", "String", []⟩, f]⟩
    let t : RecordTables := ⟨"Shop",
      [("title", .field "title"), ("is_open_b2b", .field "is_open_b2b")],
      [("getTitle", .field "title"), ("getIsOpenB2b", .field "is_open_b2b"),
        ("isIsOpenB2b", .field "is_open_b2b")]⟩
    let i : Instance := ⟨[("title", .str "Corner"), ("is_open_b2b", .bool true)], []⟩
    p.snake = "is_open_b2b".toList ∧ p.camel = "isOpenB2b".toList ∧ r.Exposes t "is_open_b2b" f ∧
      Naming.snake? "isOpenB2b".toList = some "is_open_b2b".toList ∧
      Naming.isAccessor "isOpenB2b".toList = true ∧
      Resolver.field.resolve (t.value 0 i) "isOpenB2b" = some (.bool true) ∧
      Resolver.accessor.resolve (t.value 0 i) "isOpenB2b" = some (.bool true) := by
  intro p f r t i
  have hsnake : p.snake = "is_open_b2b".toList := by decide +kernel
  have hcamel : p.camel = "isOpenB2b".toList := by decide +kernel
  have hexposes : r.Exposes t "is_open_b2b" f :=
    ⟨by decide +kernel, ⟨⟨true, []⟩, by decide +kernel, rfl⟩,
      ⟨[("title", ⟨"title", "String", []⟩), ("is_open_b2b", f)], by decide +kernel, by simp⟩⟩
  obtain ⟨hback, -, hfield, -, haccessor, hflag⟩ := spellings_correspond p
  rw [hcamel] at hback haccessor
  rw [hsnake] at hback
  simp only [hsnake, hcamel, String.ofList_toList] at hfield hflag
  refine ⟨hsnake, hcamel, hexposes, hback, haccessor.2 ⟨by simp, .inr rfl⟩, ?_, ?_⟩
  · rw [hfield]
    rfl
  · exact ((hflag f).2 r t hexposes).2 (by decide +kernel) 0 i

end Declaration

end Stencil
