import Stencil.Engine
import Stencil.Proofs.ValidNodes
import Stencil.Proofs.WrittenTags

/-!
# Names that templates reach, and names that they do not

What a template can name is what its words can be read as: helpers and the segments of paths, and
both are segments. So a name with any other character in it leads nowhere, whatever stands under it;
and a name that is spelled like an identifier can be written alone, as a path.

> `Node.Valid.isSegment`: all that a node names is a segment.
> `unreachable_of_isSegment`: what is no segment is named by no template.
> `FoundUnder.of_resolve`: a value to which a name resolves is found and shown by that name.
-/

namespace Stencil

/-! ## The names that a template writes -/

/-- The segments of a path. -/
def Path.segments : Path → List String
  | this segments => segments
  | bound name => [name]
  | named head rest => head :: rest

/-- The segments of an argument. -/
def Param.segments : Param → List String
  | path p => p.segments
  | literal _ => []

/-- What a node names: the helper that it calls, and the segments of its paths. -/
def Node.names : Node → List String
  | lookup path _ => path.segments
  | block _ param _ _ => param.segments
  | helperBlock name params named _ _ | call name params named _ =>
    name :: (params ++ named.map Prod.snd).flatMap Param.segments
  | inclusion _ context => context.toList.flatMap Param.segments
  | text _ | region .. | override .. => []

theorem Path.Valid.isSegment {p : Path} (h : p.Valid) :
    ∀ s ∈ p.segments, isSegment s.toList = true := by
  cases p with
  | this segments => exact h
  | bound name => exact List.forall_mem_singleton.2 h
  | named head rest => exact h.2

theorem Param.Valid.isSegment {p : Param} (h : p.Valid) :
    ∀ s ∈ p.segments, Path.isSegment s.toList = true := by
  cases p with
  | path p => exact h.1.isSegment
  | literal l => exact List.forall_mem_nil _

theorem ValidArguments.isSegment {params : List Param} {named : Table Param}
    (h : ValidArguments params named) :
    ∀ s ∈ (params ++ named.map Prod.snd).flatMap Param.segments,
      Path.isSegment s.toList = true := by
  intro s hs
  obtain ⟨p, hp, hs⟩ := List.mem_flatMap.1 hs
  rcases List.mem_append.1 hp with hp | hp
  · exact (h.params p hp).isSegment s hs
  · obtain ⟨e, he, rfl⟩ := List.mem_map.1 hp
    exact (h.named e he).2.isSegment s hs

/-- **All that a node names is a segment.** -/
theorem Node.Valid.isSegment {n : Node} (h : n.Valid) :
    ∀ s ∈ n.names, Path.isSegment s.toList = true := by
  cases n with
  | lookup path escape => exact Path.Valid.isSegment h
  | block k param body inverse => exact Param.Valid.isSegment h
  | helperBlock name params named body inverse =>
    exact List.forall_mem_cons.2 ⟨h.1.segment, h.2.2.isSegment⟩
  | call name params named escape =>
    exact List.forall_mem_cons.2 ⟨h.1.segment, h.2.2.isSegment⟩
  | inclusion name context =>
    intro s hs
    obtain ⟨p, hp, hs⟩ := List.mem_flatMap.1 hs
    exact (h p (Option.mem_toList.1 hp)).isSegment s hs
  | text | region | override => exact List.forall_mem_nil _

/-- No template writes the name, for a helper or on a path, and no helper reaches it by a path. -/
structure Unreachable (name : String) : Prop where
  nodes : ∀ text nodes, parse text = .ok nodes → ∀ n : Node, n.Occurs nodes → name ∉ n.names
  paths : ∀ cs p, Path.read? cs = some p → name ∉ p.segments

theorem unreachable_of_isSegment {name : String} (h : Path.isSegment name.toList = false) :
    Unreachable name := by
  constructor
  · intro text nodes hparse n hn hname
    have hvalid := (sound_of_parse hparse).inside n hn
    rw [hvalid.1.isSegment name hname] at h
    cases h
  · intro cs p hread hname
    rw [(Path.valid_of_read? hread).isSegment name hname] at h
    cases h

/-! ## Names that lead to a value -/

theorem Engine.compileText_of_parse {text : String} {nodes : List Node} (chain : Chain)
    (h : parse text = .ok nodes) : compileText chain text = .ok ⟨inlineName, nodes, chain⟩ := by
  rw [compileText, h, Except.map]

theorem Chain.resolve_singleton (q : Resolver) (subject : Value) (name : String) :
    Chain.resolve [q] subject name = (q.resolve subject name).bind Value.nonNull := by
  rw [resolve_cons, resolve, Option.or_none]

/-- A value is found in a subject under a name: the name is read as a path wherever an argument
stands, the path leads to the value unless it is null, and a tag that holds nothing else shows it.
Only the name `else` alone in a tag is a tag of another kind. -/
structure FoundUnder (chain : Chain) (name : String) (subject v : Value) : Prop where
  word : Param.ofWord? name.toList = some (.path (.named name []))
  leads : ∀ scopes : Scopes, scopes.subject = subject → v.isNull = false →
    scopes.lookup chain (.named name []) = some v
  shown : ∀ escape text, name ≠ "else" → WrittenTag name.toList escape text →
    ∃ template, Engine.compileText chain (String.ofList text) = .ok template ∧
      ∀ e : Engine, e.render template (.of subject) = some (.ok (emit v escape), e)

section

variable {name : String} (hname : IsName name.toList)
  (hreserved : name ∉ ["this", "true", "false", "null", "undefined"])

include hname hreserved

/-- A name alone in a tag is parsed as a look-up. -/
theorem parse_name (helse : name ≠ "else") {escape : Bool} {text : List Char}
    (htext : WrittenTag name.toList escape text) :
    parse (String.ofList text) = .ok [.lookup (.named name []) escape] := by
  have hends : Word.EndsWord [] := by simp [Word.EndsWord]
  have hreads := Word.readAll_name hname hreserved hends (Word.readAll_row .nil)
  rw [List.append_nil] at hreads
  have hexpressive := hname.expressive List.prefix_rfl hreads
    (Word.Trimmed.of_word hname.ne_nil hname.isWordChar).last
    fun heq => helse (String.toList_inj.1 heq)
  have hexpression :
      Tag.ofExpression name.toList escape = .ok (.lookup (.named name []) escape) := by
    rw [Tag.ofExpression, hreads]
  obtain ⟨form, content, hisTag, htag⟩ := htext.isTag hexpressive
  exact parse_of_isTag hisTag (htag.trans hexpression) rfl rfl

theorem FoundUnder.of_resolve {chain : Chain} {subject v : Value}
    (h : chain.resolve subject name = v.nonNull) : FoundUnder chain name subject v := by
  refine ⟨(hname.isHelperName hreserved).ofWord?, ?_, fun escape text helse htext => ?_⟩
  · rintro ⟨current, outer⟩ rfl hv
    have hnonNull : v.nonNull = some v := Value.nonNull_eq_some.2 ⟨rfl, hv⟩
    have hresolve : chain.resolve current.subject name = some v := h.trans hnonNull
    simp only [Scopes.lookup, Scopes.toList, lookupHead, hresolve, Option.bind_some, follow, hnonNull]
  · have hparse := parse_name hname hreserved helse htext
    refine ⟨_, Engine.compileText_of_parse chain hparse, fun e => ?_⟩
    have hlookup : (Scopes.root subject).lookup chain (.named name []) = v.nonNull := by
      simp only [Scopes.lookup, Scopes.toList, Scopes.root, Scope.of, lookupHead, h]
      cases hv : v.nonNull with
      | none => rfl
      | some w =>
        obtain ⟨rfl, -⟩ := Value.nonNull_eq_some.1 hv
        exact hv
    have hnode : ∀ expand p, renderNode (e.setting chain) expand (.lookup (.named name []) escape)
        (.root subject) p = some (.ok (emit v escape), p) := by
      intro expand p
      rw [renderNode, show (e.setting chain).chain = chain from rfl, hlookup]
      cases v <;> rfl
    exact congrArg (Option.map _) (render_one (e.setting chain) (.root subject) e.shelf hnode)

end

end Stencil
