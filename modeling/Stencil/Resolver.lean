import Stencil.Value
import Stencil.Naming
import Stencil.Number.Integer

/-!
# Resolvers: what a name means for a value

A resolver is one way to find a value under a name in a subject. A chain tries its resolvers in
order; the first one that answers with something other than null decides, and a null answer
counts as none.
-/

namespace Stencil

open Naming

/-- One way to resolve names. -/
structure Resolver where
  name : String
  resolve : Value → String → Option Value

/-- Resolvers in order of priority. -/
abbrev Chain := List Resolver

namespace Resolver

/-- The entry of a map under exactly this key. -/
def map : Resolver where
  name := "map"
  resolve
    | .map entries, name => Table.get? entries name
    | _, _ => none

/-- Accessor methods of a record: the name itself if it is spelled like an accessor, then
`get` and then `is` before the capitalised name. -/
def accessor : Resolver where
  name := "accessor"
  resolve subject name :=
    let chars := name.toList
    let direct := if isAccessor chars then subject.method? name else none
    match direct with
    | some v => some v
    | none =>
      (capitalize? chars).bind fun property =>
        match subject.method? (String.ofList (getter property)) with
        | some v => some v
        | none => subject.method? (String.ofList (tester property))

/-- What accessors answer, in the order in which they are tried. -/
theorem accessor_resolve (subject : Value) (name : String) :
    accessor.resolve subject name =
      (if isAccessor name.toList then subject.method? name else none).or
        ((capitalize? name.toList).bind fun property =>
          (subject.method? (String.ofList (getter property))).or
            (subject.method? (String.ofList (tester property)))) := by
  unfold accessor
  dsimp only
  cases (if isAccessor name.toList = true then subject.method? name else none) with
  | some v => rfl
  | none =>
    cases capitalize? name.toList with
    | none => rfl
    | some property =>
      dsimp only [Option.bind_some, Option.none_or]
      cases subject.method? (String.ofList (getter property)) <;> rfl

/-- The field of a record under this name, or else under its underscore spelling. -/
def field : Resolver where
  name := "field"
  resolve subject name :=
    match subject.field? name with
    | some v => some v
    | none => (snake? name.toList).bind fun snake => subject.field? (String.ofList snake)

theorem field_resolve (subject : Value) (name : String) :
    field.resolve subject name =
      (subject.field? name).or
        ((snake? name.toList).bind fun snake => subject.field? (String.ofList snake)) := by
  unfold field
  dsimp only
  cases subject.field? name <;> rfl

/-- The zero-argument method of a record of exactly this name. -/
def method : Resolver where
  name := "method"
  resolve subject name := subject.method? name

/-- Answers null to everything. -/
def null : Resolver where
  name := "null"
  resolve _ _ := some .null

end Resolver

namespace Chain

/-- Map entries, then accessors, then fields, then methods of the exact name. -/
def default : Chain := [.map, .accessor, .field, .method]

/-- The first answer of the chain that is not null. -/
def resolve : Chain → Value → String → Option Value
  | [], _, _ => none
  | r :: rest, subject, name =>
    match (r.resolve subject name).bind Value.nonNull with
    | some v => some v
    | none => resolve rest subject name

theorem resolve_cons (r : Resolver) (rest : Chain) (subject : Value) (name : String) :
    resolve (r :: rest) subject name =
      ((r.resolve subject name).bind Value.nonNull).or (resolve rest subject name) := by
  rw [resolve]
  cases (r.resolve subject name).bind Value.nonNull <;> rfl

/-- A chain answers as the first of its resolvers that does not answer null. -/
theorem resolve_eq_findSome? (chain : Chain) (subject : Value) (name : String) :
    chain.resolve subject name =
      chain.findSome? fun r => (r.resolve subject name).bind Value.nonNull := by
  induction chain with
  | nil => rfl
  | cons r rest ih =>
    rw [resolve_cons, ih, List.findSome?_cons]
    cases (r.resolve subject name).bind Value.nonNull <;> rfl

/-- A chain never answers null, whatever its resolvers answer. -/
theorem isNull_of_resolve {chain : Chain} {subject v : Value} {name : String}
    (h : chain.resolve subject name = some v) : v.isNull = false := by
  rw [resolve_eq_findSome?] at h
  obtain ⟨r, -, hr⟩ := List.exists_of_findSome?_eq_some h
  exact Value.isNull_of_bind_nonNull hr

end Chain

end Stencil
