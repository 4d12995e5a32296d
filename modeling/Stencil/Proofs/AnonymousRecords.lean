import Mathlib
import Stencil.Proofs.BlindSettings
import Stencil.Template

/-!
# Records without their identities

A record has an identity, and nothing that a template can write asks for it. To say so, all identities
in a value are replaced by one (`Value.anonymous`). A value then has the same truth and the same text
as before, and what resolvers find in it, what loops go through and what paths lead to is what they
find otherwise, anonymous again. So two stacks of scopes are the same to a setting if they are the
same once they are anonymous:

> `Chain.resolve_anonymous`: names mean the same, for resolvers that do not see identities;
> `Scopes.lookup_anonymous`: so do paths;
> `Setting.blind_anonymous`: so the setting cannot tell the scopes apart.

A helper can compare two records, and then it sees whether they are one. The last statement is about
helpers that do not (`Helper.IdentityBlind`).
-/

namespace Stencil

/-! ## Values -/

namespace Value

mutual

/-- The value with one identity for all records in it, at any depth. -/
def anonymous : Value → Value
  | list items => list (anonymousItems items)
  | map entries => map (anonymousEntries entries)
  | object _ typeName text fields methods =>
    object 0 typeName text (anonymousEntries fields) (anonymousEntries methods)
  | null => null
  | bool b => bool b
  | str s => str s
  | i64 n => i64 n
  | u64 n => u64 n
  | f64 x => f64 x
  | decimal d => decimal d
  | date d => date d
  | time t => time t
  | dateTime m => dateTime m
  | dateTimeUtc m => dateTimeUtc m

/-- The items of a list, anonymous. -/
def anonymousItems : List Value → List Value
  | [] => []
  | v :: rest => anonymous v :: anonymousItems rest

/-- The entries of a table, anonymous. -/
def anonymousEntries : List (String × Value) → List (String × Value)
  | [] => []
  | (k, v) :: rest => (k, anonymous v) :: anonymousEntries rest

end

theorem anonymousItems_eq_map (items : List Value) : anonymousItems items = items.map anonymous := by
  induction items with
  | nil => rw [anonymousItems, List.map_nil]
  | cons v rest ih => rw [anonymousItems, ih, List.map_cons]

theorem anonymousEntries_eq_mapValues (entries : List (String × Value)) :
    anonymousEntries entries = Table.mapValues anonymous entries := by
  induction entries with
  | nil => rw [anonymousEntries, Table.mapValues, List.map_nil]
  | cons e rest ih =>
    obtain ⟨k, v⟩ := e
    rw [anonymousEntries, ih]
    rfl

@[simp]
theorem anonymous_list (items : List Value) : (list items).anonymous = list (items.map anonymous) := by
  rw [anonymous, anonymousItems_eq_map]

@[simp]
theorem anonymous_map (entries : List (String × Value)) :
    (map entries).anonymous = map (Table.mapValues anonymous entries) := by
  rw [anonymous, anonymousEntries_eq_mapValues]

@[simp]
theorem anonymous_object (identity : Nat) (typeName text : String)
    (fields methods : List (String × Value)) :
    (object identity typeName text fields methods).anonymous =
      object 0 typeName text (Table.mapValues anonymous fields)
        (Table.mapValues anonymous methods) := by
  rw [anonymous, anonymousEntries_eq_mapValues, anonymousEntries_eq_mapValues]

/-- Scalars and calendar values have no records in them. -/
theorem anonymous_literal (l : Literal) : l.value.anonymous = l.value := by
  cases l <;> rfl

@[simp]
theorem isNull_anonymous (v : Value) : v.anonymous.isNull = v.isNull := by
  cases v with
  | list | map | object => simp [isNull]
  | _ => rw [anonymous]

@[simp]
theorem truthy_anonymous (v : Value) : v.anonymous.truthy = v.truthy := by
  cases v with
  | list items => simp [truthy]
  | map entries => simp [truthy, Table.mapValues]
  | object => simp [truthy]
  | _ => rw [anonymous]

theorem nonNull_anonymous (v : Value) : v.anonymous.nonNull = v.nonNull.map anonymous := by
  unfold nonNull
  rw [isNull_anonymous]
  split
  next => rfl
  next => rfl

theorem field?_anonymous (v : Value) (name : String) :
    v.anonymous.field? name = (v.field? name).map anonymous := by
  cases v with
  | object identity typeName text fields methods =>
    rw [anonymous_object]
    exact Table.get?_mapValues anonymous fields name
  | list | map => simp [field?]
  | _ => rw [anonymous]; rfl

theorem method?_anonymous (v : Value) (name : String) :
    v.anonymous.method? name = (v.method? name).map anonymous := by
  cases v with
  | object identity typeName text fields methods =>
    rw [anonymous_object]
    exact Table.get?_mapValues anonymous methods name
  | list | map => simp [method?]
  | _ => rw [anonymous]; rfl

mutual

/-- The text of a value does not tell identities. -/
theorem display_anonymous : ∀ v : Value, v.anonymous.display = v.display
  | list items => by
    rw [anonymous, display, display, displayItems_anonymous items]
  | map entries => by
    rw [anonymous, display, display, displayEntries_anonymous entries]
  | object .. => by rw [anonymous, display, display]
  | null | bool _ | str _ | i64 _ | u64 _ | f64 _ | decimal _ | date _ | time _ | dateTime _
  | dateTimeUtc _ => by rw [anonymous]

theorem displayItems_anonymous : ∀ items : List Value,
    displayItems (anonymousItems items) = displayItems items
  | [] => by rw [anonymousItems]
  | v :: rest => by
    rw [anonymousItems, displayItems, displayItems, display_anonymous v, displayItems_anonymous rest]

theorem displayEntries_anonymous : ∀ entries : List (String × Value),
    displayEntries (anonymousEntries entries) = displayEntries entries
  | [] => by rw [anonymousEntries]
  | (k, v) :: rest => by
    rw [anonymousEntries, displayEntries, displayEntries, display_anonymous v,
      displayEntries_anonymous rest]

end

end Value

open Value (anonymous)

theorem emit_anonymous (v : Value) (escape : Bool) : emit v.anonymous escape = emit v escape := by
  have hemit : ∀ u : Value, emit u escape =
      if u.isNull then "" else if escape then Text.escape u.display else u.display := by
    intro u
    cases u <;> rfl
  rw [hemit, hemit, Value.isNull_anonymous, Value.display_anonymous]

/-! ## Resolvers -/

/-- A resolver that does not see identities. -/
def Resolver.IdentityBlind (r : Resolver) : Prop :=
  ∀ v name, r.resolve v.anonymous name = (r.resolve v name).map anonymous

namespace Resolver

theorem map_identityBlind : map.IdentityBlind := by
  intro v name
  cases v with
  | map entries =>
    rw [Value.anonymous_map]
    exact Table.get?_mapValues anonymous entries name
  | list | object => simp [map]
  | _ => rw [Value.anonymous]; rfl

theorem method_identityBlind : method.IdentityBlind := fun v name => v.method?_anonymous name

theorem field_identityBlind : field.IdentityBlind := by
  intro v name
  rw [field_resolve, field_resolve, v.field?_anonymous, Option.map_or]
  refine congrArg _ ?_
  cases Naming.snake? name.toList with
  | none => rfl
  | some snake => exact v.field?_anonymous _

theorem accessor_identityBlind : accessor.IdentityBlind := by
  intro v name
  rw [accessor_resolve, accessor_resolve, Option.map_or]
  congr 1
  · split
    next => exact v.method?_anonymous name
    next => rfl
  · cases Naming.capitalize? name.toList with
    | none => rfl
    | some property =>
      dsimp only [Option.bind_some]
      rw [v.method?_anonymous, v.method?_anonymous, Option.map_or]

end Resolver

namespace Chain

theorem default_identityBlind : ∀ r ∈ Chain.default, r.IdentityBlind := by
  simp only [Chain.default, List.forall_mem_cons]
  exact ⟨Resolver.map_identityBlind, Resolver.accessor_identityBlind, Resolver.field_identityBlind,
    Resolver.method_identityBlind, List.forall_mem_nil _⟩

theorem resolve_anonymous {chain : Chain} (h : ∀ r ∈ chain, r.IdentityBlind) (v : Value)
    (name : String) : chain.resolve v.anonymous name = (chain.resolve v name).map anonymous := by
  induction chain with
  | nil => rfl
  | cons r rest ih =>
    obtain ⟨hr, hrest⟩ := List.forall_mem_cons.1 h
    rw [resolve_cons, resolve_cons, hr, ih hrest, Option.map_or]
    congr 1
    cases r.resolve v name with
    | none => rfl
    | some w => exact w.nonNull_anonymous

end Chain

/-! ## Scopes -/

/-- A table with anonymous values. -/
abbrev Table.anonymous (t : Table Value) : Table Value := t.mapValues Value.anonymous

namespace Table

theorem mapValues_place {α β : Type} (f : α → β) (entry : String × α) (t : Table α) :
    (place entry t).mapValues f = place (entry.1, f entry.2) (t.mapValues f) := by
  induction t with
  | nil => rfl
  | cons e rest ih =>
    rw [place, mapValues, mapValues, List.map_cons, place]
    split
    next => rfl
    next => exact congrArg _ ih

/-- The entries in ascending order of their keys, with every value changed. -/
theorem sorted_mapValues {α β : Type} (f : α → β) (t : Table α) :
    (t.mapValues f).sorted = t.sorted.mapValues f := by
  induction t with
  | nil => rfl
  | cons e rest ih =>
    rw [sorted, mapValues_place, ← ih]
    rfl

end Table

/-- The same scope with anonymous values. -/
def Scope.anonymous (s : Scope) : Scope := ⟨s.subject.anonymous, s.bound.anonymous⟩

/-- The same scopes with anonymous values. -/
def Scopes.anonymous (s : Scopes) : Scopes := ⟨s.current.anonymous, s.outer.map Scope.anonymous⟩

theorem lookupBound_anonymous (name : String) (stack : List Scope) :
    lookupBound name (stack.map Scope.anonymous) = (lookupBound name stack).map anonymous := by
  induction stack with
  | nil => rfl
  | cons s outer ih =>
    rw [List.map_cons, lookupBound, lookupBound, Scope.anonymous]
    dsimp only
    rw [Table.get?_mapValues, ih]
    cases Table.get? s.bound name with
    | none => rfl
    | some v => exact v.nonNull_anonymous

section

variable {chain : Chain} (hchain : ∀ r ∈ chain, r.IdentityBlind)

include hchain

theorem lookupHead_anonymous (name : String) (stack : List Scope) :
    lookupHead chain name (stack.map Scope.anonymous) =
      (lookupHead chain name stack).map anonymous := by
  induction stack with
  | nil => rfl
  | cons s outer ih =>
    rw [List.map_cons, lookupHead, lookupHead, Scope.anonymous]
    dsimp only
    rw [Chain.resolve_anonymous hchain, ih]
    cases chain.resolve s.subject name with
    | none => rfl
    | some v => rfl

theorem follow_anonymous (v : Value) (segments : List String) :
    follow chain v.anonymous segments = (follow chain v segments).map anonymous := by
  induction segments generalizing v with
  | nil => exact v.nonNull_anonymous
  | cons segment rest ih =>
    rw [follow, follow, Chain.resolve_anonymous hchain]
    cases chain.resolve v segment with
    | none => rfl
    | some next => exact ih next

namespace Scopes

/-- A path leads to the same value, anonymous. -/
theorem lookup_anonymous (s : Scopes) (path : Path) :
    s.anonymous.lookup chain path = (s.lookup chain path).map Value.anonymous := by
  cases path with
  | bound name => exact lookupBound_anonymous name s.toList
  | this segments => exact follow_anonymous hchain s.subject segments
  | named head rest =>
    change (lookupHead chain head (s.toList.map Scope.anonymous)).bind _ = _
    rw [lookupHead_anonymous hchain]
    change _ = ((lookupHead chain head s.toList).bind _).map _
    cases lookupHead chain head s.toList with
    | none => rfl
    | some v => exact follow_anonymous hchain v rest

theorem eval_anonymous (s : Scopes) (param : Param) :
    s.anonymous.eval chain param = (s.eval chain param).map Value.anonymous := by
  cases param with
  | path path => exact s.lookup_anonymous hchain path
  | literal l =>
    change l.value.nonNull = l.value.nonNull.map Value.anonymous
    rw [← Value.nonNull_anonymous, Value.anonymous_literal]

theorem evalOrNull_anonymous (s : Scopes) (param : Param) :
    s.anonymous.evalOrNull chain param = (s.evalOrNull chain param).anonymous := by
  rw [evalOrNull, evalOrNull, s.eval_anonymous hchain]
  cases s.eval chain param with
  | none => rfl
  | some v => rfl

end Scopes

end

/-! ## Loops -/

theorem iteration_anonymous (v : Value) (index count : Nat) :
    (iteration v index count).anonymous = iteration v.anonymous index count := by
  have hmarker : ∀ on text, (marker on text).anonymous = marker on text := by
    intro on text
    cases on <;> rfl
  simp only [iteration, Scope.bind, Scope.of, Scope.anonymous, Table.mapValues, List.map_cons,
    List.map_nil, hmarker]
  rfl

theorem itemScopes_anonymous (count index : Nat) (items : List Value) :
    (itemScopes count index items).map Scope.anonymous =
      itemScopes count index (items.map anonymous) := by
  induction items generalizing index with
  | nil => rfl
  | cons v rest ih =>
    rw [itemScopes, List.map_cons, List.map_cons, itemScopes, ih, iteration_anonymous]

theorem entryScopes_anonymous (count index : Nat) (entries : Table Value) :
    (entryScopes count index entries).map Scope.anonymous =
      entryScopes count index entries.anonymous := by
  induction entries generalizing index with
  | nil => rfl
  | cons e rest ih =>
    obtain ⟨k, v⟩ := e
    rw [Table.anonymous, Table.mapValues, List.map_cons, entryScopes, entryScopes, List.map_cons, ih,
      ← iteration_anonymous]
    rfl

/-- A loop goes through the same scopes, anonymous. -/
theorem iterations_anonymous (found : Option Value) :
    iterations (found.map anonymous) = (iterations found).map Scope.anonymous := by
  cases found with
  | none => rfl
  | some v =>
    cases v with
    | list items =>
      rw [Option.map_some, Value.anonymous_list, iterations, iterations, itemScopes_anonymous,
        List.length_map]
    | map entries =>
      rw [Option.map_some, Value.anonymous_map, iterations, iterations, entryScopes_anonymous,
        Table.sorted_mapValues, Table.mapValues, List.length_map]
    | object => rw [Option.map_some, Value.anonymous_object]; rfl
    | _ => rw [Option.map_some, Value.anonymous]; rfl

/-! ## Helpers -/

/-- The same call with anonymous values. -/
def Call.anonymous (c : Call) : Call where
  name := c.name
  params := c.params.map Value.anonymous
  named := c.named.anonymous
  isBlock := c.isBlock
  context := c.context.anonymous
  lookup path := (c.lookup path).map Value.anonymous

theorem Call.first_anonymous (c : Call) : c.anonymous.first = c.first.anonymous := by
  unfold Call.first Call.anonymous
  cases c.params with
  | nil => rfl
  | cons v rest => rfl

/-- The same script with anonymous values. -/
def Script.anonymous : Script → Script
  | .done result => .done (result.map Value.anonymous)
  | .body subject resume => .body subject.anonymous fun r => (resume r).anonymous
  | .inverse resume => .inverse fun r => (resume r).anonymous

/-- A helper that does not see identities: calls that differ in nothing else have it make the same
requests and give the same answer, up to identities. -/
def Helper.IdentityBlind (h : Helper) : Prop :=
  ∀ c d : Call, c.anonymous = d.anonymous → (h c).anonymous = (h d).anonymous

/-- A helper that answers with a text is blind if the text does not tell identities. -/
theorem Helper.answerText_identityBlind {f : Call → String} (h : ∀ c : Call, f c.anonymous = f c) :
    IdentityBlind fun c => .answerText (f c) := by
  intro c d hcd
  change (Script.answerText (f c)).anonymous = (Script.answerText (f d)).anonymous
  rw [← h c, ← h d, hcd]

/-! ## Rendering -/

/-- Two stacks of scopes that differ in identities at most. -/
def Scopes.SameAnonymous (s t : Scopes) : Prop := s.anonymous = t.anonymous

namespace Scopes

variable {s t : Scopes}

theorem SameAnonymous.push (h : s.SameAnonymous t) {a b : Scope} (hab : a.anonymous = b.anonymous) :
    (s.push a).SameAnonymous (t.push b) := by
  change (⟨a.anonymous, s.current.anonymous :: s.outer.map Scope.anonymous⟩ : Scopes) =
    ⟨b.anonymous, t.current.anonymous :: t.outer.map Scope.anonymous⟩
  obtain ⟨hcurrent, houter⟩ := Scopes.mk.inj h
  rw [hab, hcurrent, houter]

theorem SameAnonymous.push_of (h : s.SameAnonymous t) {v w : Value}
    (hvw : v.anonymous = w.anonymous) :
    (s.push (.of v)).SameAnonymous (t.push (.of w)) :=
  h.push (congrArg (fun u => (⟨u, []⟩ : Scope)) hvw)

theorem SameAnonymous.subject (h : s.SameAnonymous t) : s.subject.anonymous = t.subject.anonymous :=
  congrArg (fun u : Scopes => u.current.subject) h

variable {chain : Chain} (hchain : ∀ r ∈ chain, r.IdentityBlind)

include hchain

theorem SameAnonymous.lookup (h : s.SameAnonymous t) (path : Path) :
    (s.lookup chain path).map Value.anonymous = (t.lookup chain path).map Value.anonymous := by
  rw [← s.lookup_anonymous hchain, ← t.lookup_anonymous hchain, h]

theorem SameAnonymous.eval (h : s.SameAnonymous t) (param : Param) :
    (s.eval chain param).map Value.anonymous = (t.eval chain param).map Value.anonymous := by
  rw [← s.eval_anonymous hchain, ← t.eval_anonymous hchain, h]

theorem SameAnonymous.evalOrNull (h : s.SameAnonymous t) (param : Param) :
    (s.evalOrNull chain param).anonymous = (t.evalOrNull chain param).anonymous := by
  rw [← s.evalOrNull_anonymous hchain, ← t.evalOrNull_anonymous hchain, h]

end Scopes

open Scopes (SameAnonymous)

theorem Plan.related_ofScript_anonymous {s t : Scopes} (h : s.SameAnonymous t) (escape : Bool)
    {script script' : Script} (hscript : script.anonymous = script'.anonymous) :
    Plan.Related SameAnonymous (.ofScript s escape script) (.ofScript t escape script') := by
  induction script generalizing script' with
  | done result =>
    cases script' with
    | done result' =>
      have hresult : result.map Value.anonymous = result'.map Value.anonymous :=
        Script.done.inj hscript
      have hprinted : result.map (emit · escape) = result'.map (emit · escape) := by
        simpa only [map_map_result, emit_anonymous] using
          congrArg (Except.map (emit · escape)) hresult
      rw [Plan.ofScript, Plan.ofScript, hprinted]
      exact .done _
    | body | inverse => cases hscript
  | body subject resume ih =>
    cases script' with
    | body subject' resume' =>
      obtain ⟨hsubject, hresume⟩ := Script.body.inj hscript
      exact .body (h.push_of hsubject) fun r => ih r (congrFun hresume r)
    | done | inverse => cases hscript
  | inverse resume ih =>
    cases script' with
    | inverse resume' =>
      exact .other (h.push_of h.subject) fun r => ih r (congrFun (Script.inverse.inj hscript) r)
    | done | body => cases hscript

namespace Setting

variable {S : Setting} (hchain : ∀ r ∈ S.chain, r.IdentityBlind)

include hchain

theorem call_anonymous (s : Scopes) (name : String) (params : List Param) (named : Table Param)
    (isBlock : Bool) :
    (S.call s name params named isBlock).anonymous =
      S.call s.anonymous name params named isBlock := by
  have hargument : s.anonymous.evalOrNull S.chain =
      fun param => (s.evalOrNull S.chain param).anonymous :=
    funext fun param => s.evalOrNull_anonymous hchain param
  have hlookup : s.anonymous.lookup S.chain = fun path => (s.lookup S.chain path).map anonymous :=
    funext fun path => s.lookup_anonymous hchain path
  unfold call Call.anonymous
  rw [hargument, hlookup]
  simp only [List.map_map, Table.anonymous, Table.mapValues, Function.comp_def, Option.map_bind]
  rfl

/-- A block goes through the same scopes, anonymous. -/
theorem innerScopes_anonymous {s t : Scopes} (h : s.SameAnonymous t) (k : Keyword) (param : Param) :
    List.Forall₂ SameAnonymous (S.innerScopes k param s) (S.innerScopes k param t) := by
  have hvalue := h.eval hchain param
  refine innerScopes_related (V := fun v w => v.anonymous = w.anonymous)
    (I := fun inner inner' => inner.anonymous = inner'.anonymous) (fun hinner => h.push hinner)
    (fun hv => congrArg (Scope.mk · []) hv) (fun {v w} hv => ?_) h.subject k ?_ ?_
  · rw [← Value.truthy_anonymous v, hv, Value.truthy_anonymous]
  · generalize s.eval S.chain param = x at hvalue ⊢
    generalize t.eval S.chain param = y at hvalue ⊢
    cases x with
    | none =>
      cases y with
      | none => exact .none
      | some w => cases hvalue
    | some v =>
      cases y with
      | none => cases hvalue
      | some w => exact .some (Option.some.inj hvalue)
  · have hscopes : (iterations (s.eval S.chain param)).map Scope.anonymous =
        (iterations (t.eval S.chain param)).map Scope.anonymous := by
      rw [← iterations_anonymous, ← iterations_anonymous, hvalue]
    exact List.forall₂_map_left_iff.1
      (List.forall₂_map_right_iff.1 (List.forall₂_eq_eq_eq ▸ hscopes))

/-- **A setting whose resolvers and helpers do not see identities does not see them.** -/
theorem blind_anonymous
    (hhelpers : ∀ name helper, S.helpers.get? name = some helper → helper.IdentityBlind) :
    S.Blind SameAnonymous where
  printed {s t} h path escape := by
    have hemit : (fun v => emit v escape) = fun v : Value => emit v.anonymous escape :=
      funext fun v => (emit_anonymous v escape).symm
    have hprinted := congrArg (Option.map (emit · escape)) (h.lookup hchain path)
    rw [Option.map_map, Option.map_map] at hprinted
    rw [hemit]
    exact hprinted
  innerScopes h k param := innerScopes_anonymous hchain h k param
  helperPlan {s t} h name params named isBlock escape := by
    unfold Setting.helperPlan
    cases hhelper : S.helpers.get? name with
    | none => exact .done _
    | some helper =>
      refine Plan.related_ofScript_anonymous h escape (hhelpers name helper hhelper _ _ ?_)
      rw [call_anonymous hchain, call_anonymous hchain, h]
  scopesWithin {s t} h context := by
    cases context with
    | none => exact h
    | some param => exact h.push_of (h.evalOrNull hchain param)

end Setting

end Stencil
