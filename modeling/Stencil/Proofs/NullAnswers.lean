import Mathlib
import Stencil.Resolver

/-!
# Null answers

A record may have a field or a method and nothing in it; then it answers null. To a chain that is
no answer, whatever its resolvers are (`resolve_map_withoutNull`), so a null never keeps a resolver
of lower priority from being asked. Inside a resolver a null does count. The resolvers of records
try several names in turn, an accessor as it is spelled, then behind `get`, then behind `is`, and a
field in its two spellings; they settle for the first name to which the record has an answer, and
the chain sees that answer alone (`Answers.choices`).

> `nulls_hide_within_resolver_only`: a name means the same on a record as on the record without its
> null answers, except that a resolver in which a null stands before a value is passed over.

The records of a template engine may be anything that answers names, so the main statement is about
answers in general (`Answers`); what a record holds in its tables is one case of them.
-/

namespace Stencil

namespace Table

variable {α : Type}

/-- What is kept or dropped by its key is found, or not, by its key. -/
theorem get?_filter_key (t : Table α) (keeps : String → Bool) (key : String) :
    get? (t.filter fun e => keeps e.1) key = if keeps key then t.get? key else none := by
  induction t with
  | nil => exact (ite_self none).symm
  | cons e rest ih =>
    obtain ⟨k, v⟩ := e
    by_cases hk : k = key
    · subst hk
      by_cases hkeeps : keeps k = true
      · simp [get?, hkeeps]
      · simp [hkeeps, ih]
    · by_cases hkeeps : keeps k = true
      · simp [get?, hkeeps, hk, ih]
      · simp [get?, hkeeps, hk, ih]

/-- The entries of a table that are not null. -/
def dropNulls (t : Table Value) : Table Value :=
  t.filter fun e => ((t.get? e.1).bind Value.nonNull).isSome

theorem get?_dropNulls (t : Table Value) (key : String) :
    t.dropNulls.get? key = (t.get? key).bind Value.nonNull := by
  have hfilter := get?_filter_key t (fun k => ((t.get? k).bind Value.nonNull).isSome) key
  rw [dropNulls, hfilter]
  cases t.get? key with
  | none => rfl
  | some v => cases hv : v.isNull <;> simp [Value.nonNull, hv]

end Table

/-! ## The names that resolvers try -/

namespace Resolver

open Naming

/-- The methods that stand for a name, in the order in which accessors try them. -/
def accessorNames (name : String) : List String :=
  (if isAccessor name.toList then [name] else []) ++
    match capitalize? name.toList with
    | some property => [String.ofList (getter property), String.ofList (tester property)]
    | none => []

/-- The fields that stand for a name, in the order in which they are tried. -/
def fieldNames (name : String) : List String :=
  name :: ((snake? name.toList).map String.ofList).toList

theorem accessor_resolve_eq_findSome? (subject : Value) (name : String) :
    accessor.resolve subject name = (accessorNames name).findSome? subject.method? := by
  have hproperty : ((capitalize? name.toList).bind fun property =>
      (subject.method? (String.ofList (getter property))).or
        (subject.method? (String.ofList (tester property)))) =
      (match capitalize? name.toList with
      | some property => [String.ofList (getter property), String.ofList (tester property)]
      | none => []).findSome? subject.method? := by
    cases capitalize? name.toList with
    | none => rfl
    | some property =>
      simp only [Option.bind_some, List.findSome?_cons, List.findSome?_nil]
      cases subject.method? (String.ofList (getter property)) <;>
        cases subject.method? (String.ofList (tester property)) <;> rfl
  rw [accessor_resolve, hproperty, accessorNames, List.findSome?_append]
  split
  next => rw [List.findSome?_singleton]
  next => rfl

theorem field_resolve_eq_findSome? (subject : Value) (name : String) :
    field.resolve subject name = (fieldNames name).findSome? subject.field? := by
  rw [field_resolve, fieldNames, List.findSome?_cons]
  cases subject.field? name with
  | some v => rfl
  | none =>
    cases snake? name.toList with
    | none => rfl
    | some snake => exact (List.findSome?_singleton ..).symm

/-- The same resolver with no answer where it would answer null. -/
def withoutNull (r : Resolver) : Resolver where
  name := r.name
  resolve subject name := (r.resolve subject name).bind Value.nonNull

end Resolver

/-- Null and no answer are the same to a chain. -/
theorem Chain.resolve_map_withoutNull (chain : Chain) (subject : Value) (name : String) :
    Chain.resolve (chain.map Resolver.withoutNull) subject name = chain.resolve subject name := by
  induction chain with
  | nil => rfl
  | cons r rest ih =>
    rw [List.map_cons, resolve_cons, resolve_cons, ih]
    exact congrArg (Option.or · _) (Value.nonNull_bind_nonNull _)

/-! ## Choices -/

/-- What a resolver can choose from: the answers to the names that it tries, in order. -/
abbrev Choice := List (Option Value)

namespace Choice

/-- The first answer, null or not. -/
def first (c : Choice) : Option Value := c.findSome? id

/-- The first answer that is not null. -/
def firstValue (c : Choice) : Option Value := c.findSome? fun found => found.bind Value.nonNull

/-- The first answer is null, and a value stands behind it. -/
def hides (c : Choice) : Bool := c.first.any Value.isNull && c.firstValue.isSome

/-- What a chain makes of the first answer: the first value, unless a null stands before it. -/
theorem first_bind_nonNull (c : Choice) :
    c.first.bind Value.nonNull = if c.hides then none else c.firstValue := by
  induction c with
  | nil => rfl
  | cons found rest ih =>
    cases found with
    | none => exact ih
    | some v =>
      have hfirst : first (some v :: rest) = some v := rfl
      cases hv : v.isNull with
      | false =>
        have hvalue : v.nonNull = some v := Value.nonNull_eq_some.2 ⟨rfl, hv⟩
        simp [hides, firstValue, hfirst, hv, hvalue]
      | true =>
        have hvalue : v.nonNull = none := by rw [Value.nonNull, if_pos hv]
        have hrest : firstValue (some v :: rest) = firstValue rest := by
          simp [firstValue, hvalue]
        rw [hides, hfirst, hrest, Option.bind_some, hvalue, Option.any_some, hv, Bool.true_and]
        cases firstValue rest <;> rfl

theorem firstValue_bind_nonNull (c : Choice) : c.firstValue.bind Value.nonNull = c.firstValue := by
  cases hv : c.firstValue with
  | none => rfl
  | some v =>
    obtain ⟨found, -, hfound⟩ := List.exists_of_findSome?_eq_some hv
    exact Value.nonNull_eq_some.2 ⟨rfl, Value.isNull_of_bind_nonNull hfound⟩

theorem first_map_nonNull (c : Choice) :
    first (c.map fun found => found.bind Value.nonNull) = c.firstValue := by
  rw [first, List.findSome?_map]
  rfl

end Choice

/-! ## Records as answers -/

/-- What a record answers to names, as fields and as methods. -/
structure Answers where
  field : String → Option Value
  method : String → Option Value

namespace Answers

/-- The same answers with none where they are null. -/
def withoutNull (a : Answers) : Answers where
  field name := (a.field name).bind Value.nonNull
  method name := (a.method name).bind Value.nonNull

/-- What the resolvers of the default chain can choose from for a name: accessors, fields, and the
method of that name. -/
def choices (a : Answers) (name : String) : List Choice :=
  [(Resolver.accessorNames name).map a.method, (Resolver.fieldNames name).map a.field,
    [a.method name]]

/-- What the default chain makes of a name: each resolver puts its first answer forward, and the
first of these that is not null is taken. -/
def resolve (a : Answers) (name : String) : Option Value :=
  (a.choices name).findSome? fun c => c.first.bind Value.nonNull

theorem choices_withoutNull (a : Answers) (name : String) :
    a.withoutNull.choices name =
      (a.choices name).map (List.map fun found => found.bind Value.nonNull) := by
  simp only [choices, List.map_cons, List.map_nil, List.map_map]
  rfl

/-- Without nulls, the first value of the first resolver that has any is taken. -/
theorem resolve_withoutNull (a : Answers) (name : String) :
    a.withoutNull.resolve name = (a.choices name).findSome? Choice.firstValue := by
  have hchoice : ∀ c : Choice, (Choice.first (c.map fun found => found.bind Value.nonNull)).bind
      Value.nonNull = c.firstValue := by
    intro c
    rw [Choice.first_map_nonNull, Choice.firstValue_bind_nonNull]
  rw [resolve, choices_withoutNull, List.findSome?_map]
  exact congrArg (List.findSome? · _) (funext hchoice)

/-- With nulls, a resolver is passed over if a null hides its values. -/
theorem resolve_eq (a : Answers) (name : String) :
    a.resolve name =
      ((a.choices name).filter fun c => !c.hides).findSome? Choice.firstValue := by
  unfold resolve
  induction a.choices name with
  | nil => rfl
  | cons c rest ih =>
    rw [List.findSome?_cons, ih, Choice.first_bind_nonNull]
    cases hc : c.hides with
    | true => simp [hc]
    | false => simp [hc, List.findSome?_cons]

/-- Where no null hides a value, nulls make no difference. -/
theorem resolve_eq_withoutNull {a : Answers} {name : String}
    (h : ∀ c ∈ a.choices name, c.hides = false) : a.resolve name = a.withoutNull.resolve name := by
  have hall : (a.choices name).filter (fun c => !c.hides) = a.choices name := by
    refine List.filter_eq_self.2 fun c hc => ?_
    rw [h c hc]
    rfl
  rw [resolve_eq, hall, resolve_withoutNull]

end Answers

namespace Value

/-- What a value answers to names. -/
def answers (v : Value) : Answers := ⟨v.field?, v.method?⟩

/-- The same record without the fields and methods that are null. -/
def withoutNulls : Value → Value
  | object identity typeName text fields methods =>
    object identity typeName text (Table.dropNulls fields) (Table.dropNulls methods)
  | v => v

section

variable (identity : Nat) (typeName text : String) (fields methods : List (String × Value))

theorem answers_withoutNulls :
    (object identity typeName text fields methods).withoutNulls.answers =
      (object identity typeName text fields methods).answers.withoutNull := by
  have hfields := funext (Table.get?_dropNulls fields)
  have hmethods := funext (Table.get?_dropNulls methods)
  exact congrArg₂ Answers.mk hfields hmethods

/-- On a record the default chain has nothing to go by but what the record answers. -/
theorem default_resolve_object (name : String) :
    Chain.default.resolve (object identity typeName text fields methods) name =
      (object identity typeName text fields methods).answers.resolve name := by
  generalize hrecord : object identity typeName text fields methods = record
  have hmap : Resolver.map.resolve record name = none := by rw [← hrecord]; rfl
  have haccessor : Resolver.accessor.resolve record name =
      Choice.first ((Resolver.accessorNames name).map record.answers.method) := by
    rw [Resolver.accessor_resolve_eq_findSome?, Choice.first, List.findSome?_map]
    rfl
  have hfield : Resolver.field.resolve record name =
      Choice.first ((Resolver.fieldNames name).map record.answers.field) := by
    rw [Resolver.field_resolve_eq_findSome?, Choice.first, List.findSome?_map]
    rfl
  have hmethod : Resolver.method.resolve record name = Choice.first [record.answers.method name] :=
    (List.findSome?_singleton ..).symm
  rw [Chain.resolve_eq_findSome?, Chain.default, List.findSome?_cons, hmap, Option.bind_none]
  simp only [Answers.resolve, Answers.choices, List.findSome?_cons, haccessor, hfield, hmethod]
  rfl

end

end Value

/-- **Nulls hide values only inside a resolver.** To a chain, whatever its resolvers are, null and
no answer are the same. On a record the default chain takes the first value that a resolver puts
forward, and each resolver puts forward its first answer, null or not. So a name means the same on
the record as on the record without its null answers, except that the resolvers are passed over in
which a null stands before a value; without such a resolver it means the same. -/
theorem nulls_hide_within_resolver_only (name : String) :
    (∀ (chain : Chain) subject,
      Chain.resolve (chain.map Resolver.withoutNull) subject name = chain.resolve subject name) ∧
    (∀ a : Answers,
      a.withoutNull.resolve name = (a.choices name).findSome? Choice.firstValue ∧
      a.resolve name = ((a.choices name).filter fun c => !c.hides).findSome? Choice.firstValue ∧
      ((∀ c ∈ a.choices name, c.hides = false) → a.resolve name = a.withoutNull.resolve name)) ∧
    ∀ identity typeName text fields methods,
      let record := Value.object identity typeName text fields methods
      record.withoutNulls.answers = record.answers.withoutNull ∧
      Chain.default.resolve record name = record.answers.resolve name ∧
      Chain.default.resolve record.withoutNulls name = record.answers.withoutNull.resolve name ∧
      ((∀ c ∈ record.answers.choices name, c.hides = false) →
        Chain.default.resolve record name = Chain.default.resolve record.withoutNulls name) := by
  refine ⟨fun chain subject => Chain.resolve_map_withoutNull chain subject name, fun a => ?_, ?_⟩
  · exact ⟨a.resolve_withoutNull name, a.resolve_eq name, Answers.resolve_eq_withoutNull⟩
  · intro identity typeName text fields methods record
    have hanswers := Value.answers_withoutNulls identity typeName text fields methods
    have hrecord := Value.default_resolve_object identity typeName text fields methods name
    have herased : Chain.default.resolve record.withoutNulls name =
        record.answers.withoutNull.resolve name := by
      rw [← hanswers]
      exact Value.default_resolve_object ..
    refine ⟨hanswers, hrecord, herased, fun h => ?_⟩
    rw [hrecord, herased]
    exact Answers.resolve_eq_withoutNull h

/-- A getter that answers null hides neither the field of its name nor the one in the other
spelling. -/
theorem nulls_hide_within_resolver_only_of_getter :
    let record : Value := .object 0 "Item" "Item" [("first_name", .str "Ada")]
      [("getFirstName", .null)]
    (∀ c ∈ record.answers.choices "firstName", c.hides = false) ∧
      Chain.default.resolve record "firstName" =
        Chain.default.resolve record.withoutNulls "firstName" ∧
      Chain.default.resolve record "firstName" = some (.str "Ada") := by
  intro record
  have hides : ∀ c ∈ record.answers.choices "firstName", c.hides = false := by
    decide +kernel +zetaReduce
  obtain ⟨-, -, hrecord⟩ := nulls_hide_within_resolver_only "firstName"
  exact ⟨hides, (hrecord _ _ _ _ _).2.2.2 hides, by cbv⟩

/-- A getter that answers null hides the tester behind it: the name means nothing on the record,
and something on the record without its null answers. -/
theorem null_getter_hides_tester :
    let record : Value := .object 0 "Item" "Item" [] [("getDone", .null), ("isDone", .bool true)]
    Chain.default.resolve record "done" = none ∧
      Chain.default.resolve record.withoutNulls "done" = some (.bool true) := by
  intro record
  exact ⟨by cbv, by cbv⟩

end Stencil
