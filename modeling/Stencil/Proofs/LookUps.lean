import Mathlib
import Stencil.Template

/-!
# How far a look-up goes

Scopes stand around each other, and a look-up may go outward through them. Each of the two kinds of
name goes outward in a way of its own: a variable to the innermost scope that binds it, whatever it
is bound to there, and the head of a path to the innermost subject that resolves it. Both are the
first answer of a list of scopes (`lookupBound_eq`, `lookupHead_eq`), so nothing matters beyond the
scope that answers. The segments behind a head do not go outward at all (`follow_eq`).

> `lookups_stop_innermost`: what a look-up gives is decided by the innermost scope that binds the
> variable or resolves the head, and is never null; the scopes around that one do not matter, and
> the outermost of them is the one with the extra values of a context.

Nothing is asked of the resolvers. They may answer null, or answer to every name.
-/

namespace Stencil

/-! ## Bindings in order -/

namespace Scope

/-- The variables of a scope in the order in which they were bound. -/
def bindings (s : Scope) : List (String × Value) := s.bound.reverse

theorem bindings_of (subject : Value) : (Scope.of subject).bindings = [] := rfl

theorem bindings_bind (s : Scope) (name : String) (v : Value) :
    (s.bind name v).bindings = s.bindings ++ [(name, v)] := List.reverse_cons

/-- The scope binds a variable, if only to null. -/
def Binds (name : String) (s : Scope) : Prop := name ∈ Table.keys s.bindings

/-- The subject of the scope resolves a name. -/
def Resolves (chain : Chain) (name : String) (s : Scope) : Prop :=
  ∃ v, chain.resolve s.subject name = some v

variable {s : Scope} {name : String}

theorem get?_bound_eq_none : Table.get? s.bound name = none ↔ ¬ s.Binds name := by
  rw [Table.get?_eq_none_iff]
  simp [Binds, bindings, Table.keys]

/-- The latest binding of a variable counts. -/
theorem get?_bound_of_latest {v : Value} {earlier later : List (String × Value)}
    (h : s.bindings = earlier ++ (name, v) :: later) (hlater : name ∉ Table.keys later) :
    Table.get? s.bound name = some v := by
  have hbound : s.bound = later.reverse ++ (name, v) :: earlier.reverse := by
    rw [← List.reverse_reverse s.bound]
    change s.bindings.reverse = _
    rw [h, List.reverse_append, List.reverse_cons, List.append_assoc, List.singleton_append]
  have hnone : Table.get? later.reverse name = none := by
    rw [Table.get?_eq_none_iff]
    simpa [Table.keys] using hlater
  rw [hbound, Table.get?_append, hnone, Table.get?, if_pos rfl]
  rfl

end Scope

/-! ## Look-ups as first answers -/

theorem lookupBound_eq (name : String) (stack : List Scope) :
    lookupBound name stack =
      (stack.findSome? fun s => Table.get? s.bound name).bind Value.nonNull := by
  induction stack with
  | nil => rfl
  | cons s outer ih =>
    rw [lookupBound, List.findSome?_cons, ih]
    cases Table.get? s.bound name <;> rfl

theorem lookupHead_eq (chain : Chain) (name : String) (stack : List Scope) :
    lookupHead chain name stack = stack.findSome? fun s => chain.resolve s.subject name := by
  induction stack with
  | nil => rfl
  | cons s outer ih =>
    rw [lookupHead, List.findSome?_cons, ih]
    cases chain.resolve s.subject name <;> rfl

/-- The segments of a path are resolved one behind another, each in the value that the one before
it has given. -/
theorem follow_eq (chain : Chain) (v : Value) (segments : List String) :
    follow chain v segments = (segments.foldlM chain.resolve v).bind Value.nonNull := by
  induction segments generalizing v with
  | nil => rfl
  | cons segment rest ih =>
    rw [follow, List.foldlM_cons]
    cases chain.resolve v segment with
    | none => rfl
    | some next => exact ih next

/-- The innermost scope of a stack that has a property. -/
def Innermost (P : Scope → Prop) (here : Scope) (stack : List Scope) : Prop :=
  ∃ inner outer, stack = inner ++ here :: outer ∧ P here ∧ ∀ s ∈ inner, ¬ P s

section

variable {β : Type} {f : Scope → Option β} {here : Scope}

/-- If only scopes with a property have an answer, the innermost of them gives the first one. -/
theorem findSome?_of_innermost {P : Scope → Prop} {stack : List Scope} {b : β}
    (h : Innermost P here stack) (hP : ∀ s, ¬ P s → f s = none) (hhere : f here = some b) :
    stack.findSome? f = some b := by
  obtain ⟨inner, outer, rfl, -, hinner⟩ := h
  exact List.findSome?_eq_some_iff.2
    ⟨inner, here, outer, rfl, hhere, fun s hs => hP s (hinner s hs)⟩

/-- What stands around a scope with an answer does not matter. -/
theorem findSome?_congr_outer (h : f here ≠ none) (inner outer outer' : List Scope) :
    (inner ++ here :: outer).findSome? f = (inner ++ here :: outer').findSome? f := by
  have hsome : (f here).isSome = true := Option.isSome_iff_ne_none.2 h
  rw [List.findSome?_append, List.findSome?_append, List.findSome?_cons_of_isSome hsome,
    List.findSome?_cons_of_isSome hsome]

end

namespace Scopes

variable {chain : Chain} {s t : Scopes} {here : Scope} {name : String}

theorem lookup_bound (chain : Chain) (s : Scopes) (name : String) :
    s.lookup chain (.bound name) =
      (s.toList.findSome? fun f => Table.get? f.bound name).bind Value.nonNull :=
  lookupBound_eq name s.toList

theorem lookup_named (chain : Chain) (s : Scopes) (head : String) (rest : List String) :
    s.lookup chain (.named head rest) =
      (s.toList.findSome? fun f => chain.resolve f.subject head).bind fun v =>
        (rest.foldlM chain.resolve v).bind Value.nonNull := by
  rw [lookup, lookupHead_eq]
  simp only [follow_eq]

theorem lookup_this (chain : Chain) (s : Scopes) (segments : List String) :
    s.lookup chain (.this segments) =
      (segments.foldlM chain.resolve s.subject).bind Value.nonNull := follow_eq ..

/-- Every way of looking something up ends with a value that is passed on unless it is null. -/
theorem isNull_of_lookup {path : Path} {v : Value} (h : s.lookup chain path = some v) :
    v.isNull = false := by
  cases path with
  | bound name =>
    rw [lookup_bound] at h
    exact Value.isNull_of_bind_nonNull h
  | this segments =>
    rw [lookup_this] at h
    exact Value.isNull_of_bind_nonNull h
  | named head rest =>
    rw [lookup_named] at h
    obtain ⟨w, -, hw⟩ := Option.bind_eq_some_iff.1 h
    exact Value.isNull_of_bind_nonNull hw

section

variable (hhere : Innermost (Scope.Resolves chain name) here s.toList) {v : Value}

include hhere

/-- A path that begins with a name is resolved from the innermost scope that resolves the name. -/
theorem lookup_named_of_innermost (hv : chain.resolve here.subject name = some v)
    (rest : List String) :
    s.lookup chain (.named name rest) = (rest.foldlM chain.resolve v).bind Value.nonNull := by
  have hnone : ∀ f : Scope, ¬ f.Resolves chain name → chain.resolve f.subject name = none :=
    fun f hf => Option.eq_none_iff_forall_ne_some.2 fun w hw => hf ⟨w, hw⟩
  rw [lookup_named, findSome?_of_innermost hhere hnone hv, Option.bind_some]

end

section

variable (hhere : Innermost (Scope.Binds name) here s.toList) {v : Value}

include hhere

/-- A variable has the latest value in the innermost scope that binds it. -/
theorem lookup_bound_of_innermost {earlier later : List (String × Value)}
    (hbindings : here.bindings = earlier ++ (name, v) :: later) (hlater : name ∉ Table.keys later) :
    s.lookup chain (.bound name) = v.nonNull := by
  have hfirst := findSome?_of_innermost hhere (fun f hf => Scope.get?_bound_eq_none.2 hf)
    (Scope.get?_bound_of_latest hbindings hlater)
  rw [lookup_bound, hfirst, Option.bind_some]

end

theorem lookup_named_eq_none (h : ∀ f ∈ s.toList, ¬ f.Resolves chain name) (rest : List String) :
    s.lookup chain (.named name rest) = none := by
  have hnone : (s.toList.findSome? fun f => chain.resolve f.subject name) = none :=
    List.findSome?_eq_none_iff.2 fun f hf =>
      Option.eq_none_iff_forall_ne_some.2 fun v hv => h f hf ⟨v, hv⟩
  rw [lookup_named, hnone, Option.bind_none]

theorem lookup_bound_eq_none (h : ∀ f ∈ s.toList, ¬ f.Binds name) :
    s.lookup chain (.bound name) = none := by
  have hnone : (s.toList.findSome? fun f => Table.get? f.bound name) = none :=
    List.findSome?_eq_none_iff.2 fun f hf => Scope.get?_bound_eq_none.2 (h f hf)
  rw [lookup_bound, hnone, Option.bind_none]

section

variable {inner outer outer' : List Scope} (hs : s.toList = inner ++ here :: outer)
  (ht : t.toList = inner ++ here :: outer')

include hs ht

/-- Around a scope that resolves the head of a path, everything may be changed. -/
theorem lookup_named_congr_outer (h : here.Resolves chain name) (rest : List String) :
    s.lookup chain (.named name rest) = t.lookup chain (.named name rest) := by
  obtain ⟨v, hv⟩ := h
  have hsome : chain.resolve here.subject name ≠ none := by simp [hv]
  rw [lookup_named, lookup_named, hs, ht,
    findSome?_congr_outer (f := fun f => chain.resolve f.subject name) hsome]

/-- Around a scope that binds a variable, everything may be changed. -/
theorem lookup_bound_congr_outer (h : here.Binds name) :
    s.lookup chain (.bound name) = t.lookup chain (.bound name) := by
  have hsome := mt Scope.get?_bound_eq_none.1 (not_not_intro h)
  rw [lookup_bound, lookup_bound, hs, ht, findSome?_congr_outer hsome inner outer outer']

end

/-- The scopes that a render has opened stand inside those at its start. -/
theorem toList_foldr_push (opened : List Scope) (s : Scopes) :
    (opened.foldr (fun f s => s.push f) s).toList = opened ++ s.toList := by
  induction opened with
  | nil => rfl
  | cons f rest ih =>
    rw [List.foldr_cons, List.cons_append, ← ih]
    rfl

end Scopes

/-- The model of a context is the innermost subject at the start of a render, and the extra values
are behind it. -/
theorem Context.toList_scopes (c : Context) :
    c.scopes.toList =
      .of c.model :: if c.extras.isEmpty then [] else [.of (.map (Table.ofWrites c.extras))] := by
  unfold Context.scopes
  split
  next => rfl
  next => rfl

/-- **Look-ups stop at the innermost scope that has an answer.** For every chain: no look-up gives
null. A path that begins with a name is resolved in the innermost scope whose subject resolves the
name, and from then on only in the values reached, whether it leads anywhere or not; a path that
begins with the subject is resolved in the subject; and a variable has the latest value in the
innermost scope that binds it, none if that is null. So the scopes around a scope that has an
answer can be changed in any way. Around all scopes that a render has opened stand the model and,
outermost, the extra values. -/
theorem lookups_stop_innermost (chain : Chain) :
    (∀ (s : Scopes) path v, s.lookup chain path = some v → v.isNull = false) ∧
    (∀ (s : Scopes) head rest,
      (∀ here v, Innermost (Scope.Resolves chain head) here s.toList →
        chain.resolve here.subject head = some v → v.isNull = false ∧
          s.lookup chain (.named head rest) = (rest.foldlM chain.resolve v).bind Value.nonNull) ∧
      ((∀ f ∈ s.toList, ¬ f.Resolves chain head) → s.lookup chain (.named head rest) = none)) ∧
    (∀ (s : Scopes) segments, s.lookup chain (.this segments) =
      (segments.foldlM chain.resolve s.subject).bind Value.nonNull) ∧
    (∀ (s : Scopes) name,
      (∀ here earlier v later, Innermost (Scope.Binds name) here s.toList →
        here.bindings = earlier ++ (name, v) :: later → name ∉ Table.keys later →
          s.lookup chain (.bound name) = if v.isNull then none else some v) ∧
      ((∀ f ∈ s.toList, ¬ f.Binds name) → s.lookup chain (.bound name) = none)) ∧
    (∀ (s t : Scopes) inner here outer outer', s.toList = inner ++ here :: outer →
      t.toList = inner ++ here :: outer' →
      (∀ head rest, here.Resolves chain head →
        s.lookup chain (.named head rest) = t.lookup chain (.named head rest)) ∧
      (∀ name, here.Binds name →
        s.lookup chain (.bound name) = t.lookup chain (.bound name))) ∧
    ∀ (c : Context) opened, (opened.foldr (fun f s => s.push f) c.scopes).toList =
      opened ++ .of c.model ::
        if c.extras.isEmpty then [] else [.of (.map (Table.ofWrites c.extras))] := by
  refine ⟨fun s path v => Scopes.isNull_of_lookup,
    fun s head rest => ⟨fun here v hhere hv => ?_, ?_⟩, fun s => Scopes.lookup_this chain s,
    fun s name => ⟨?_, Scopes.lookup_bound_eq_none⟩, fun s t inner here outer outer' hs ht => ?_,
    fun c opened => ?_⟩
  · exact ⟨Chain.isNull_of_resolve hv, Scopes.lookup_named_of_innermost hhere hv rest⟩
  · exact fun hnone => Scopes.lookup_named_eq_none hnone rest
  · intro here earlier v later hhere hbindings hlater
    exact Scopes.lookup_bound_of_innermost hhere hbindings hlater
  · exact ⟨fun head rest h => Scopes.lookup_named_congr_outer hs ht h rest,
      fun name h => Scopes.lookup_bound_congr_outer hs ht h⟩
  · rw [Scopes.toList_foldr_push, Context.toList_scopes]

/-- An item of a loop that resolves the head of `a.b` and nothing behind it, and binds a variable
twice; its resolvers answer null first. -/
theorem lookups_stop_innermost_of_item :
    let chain : Chain := [.null, .map]
    let model : Value := .map [("a", .map [("b", .i64 9)])]
    let item := ((Scope.of (.map [("a", .map [])])).bind "first" (.str "first")).bind "first" .null
    let scopes := (Scopes.root model).push item
    Innermost (Scope.Resolves chain "a") item scopes.toList ∧
      Innermost (Scope.Binds "first") item scopes.toList ∧
      scopes.lookup chain (.named "a" ["b"]) = none ∧
      (Scopes.root model).lookup chain (.named "a" ["b"]) = some (.i64 9) ∧
      scopes.lookup chain (.bound "first") = none := by
  intro chain model item scopes
  obtain ⟨-, hnamed, -, hbound, -, -⟩ := lookups_stop_innermost chain
  have hresolves : Innermost (Scope.Resolves chain "a") item scopes.toList :=
    ⟨[], [.of model], rfl, ⟨.map [], rfl⟩, by simp⟩
  have hbinds : Innermost (Scope.Binds "first") item scopes.toList :=
    ⟨[], [.of model], rfl, List.mem_cons_self .., by simp⟩
  refine ⟨hresolves, hbinds, ?_, rfl, ?_⟩
  · rw [((hnamed scopes "a" ["b"]).1 item (.map []) hresolves rfl).2]
    rfl
  · exact (hbound scopes "first").1 item [("first", .str "first")] .null [] hbinds rfl (by decide)

end Stencil
