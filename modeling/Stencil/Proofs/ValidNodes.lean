import Stencil.Proofs.BlockGrammar
import Stencil.Proofs.NodeTree
import Stencil.Proofs.ScannedTags
import Stencil.Proofs.ValidTags
import Mathlib

/-!
# The nodes of a template are in good form

Rendering relies on what reading has seen to: that a path has segments, that a call has arguments,
that a name on its own is no literal, that texts which stand side by side are one node. Each tag is
checked on its own (`ValidTags`), and the block grammar puts nodes together:

> `Node.Sound.addText`, `Node.Sound.snoc`: the two ways in which a list of nodes grows keep it in
> good form. Text is only ever added where it joins a text that stands there already.
> `Derives.sound`: so valid tags make sound nodes, at every depth.
> `parsed_nodes_sound`: whatever template is read, its nodes are sound.
-/

namespace Stencil

namespace Node

/-- Two nodes that may stand side by side: at most one of them is text. -/
def MayMeet (n m : Node) : Prop := ∀ s t, n = .text s → m ≠ .text t

/-- No two texts of a list stand side by side. -/
def TextsApart (nodes : List Node) : Prop := nodes.IsChain MayMeet

/-- A node that can be written. -/
def Valid : Node → Prop
  | .lookup path _ => path.Valid
  | .block _ param _ _ => param.Valid
  | .helperBlock name params named _ _ =>
    IsHelperName name ∧ name ∉ builtInBlocks ∧ ValidArguments params named
  | .call name params named _ =>
    IsHelperName name ∧ (params ≠ [] ∨ named ≠ []) ∧ ValidArguments params named
  | .inclusion _ context => ∀ p ∈ context, p.Valid
  | .text _ | .region .. | .override .. => True

/-- Nodes in good form: no texts meet and all nodes are valid, at every depth. -/
structure Sound (nodes : List Node) : Prop where
  apart : TextsApart nodes
  inside : ∀ n : Node, n.Occurs nodes → n.Valid ∧ ∀ body ∈ n.bodies, TextsApart body

theorem occurs_append {n : Node} {ns ms : List Node} :
    n.Occurs (ns ++ ms) ↔ n.Occurs ns ∨ n.Occurs ms := by
  induction ns with
  | nil => simp
  | cons m ns ih => simp only [List.cons_append, occurs_cons, ih, or_assoc]

theorem occurs_text {n : Node} {s : String} (h : n.Occurs [.text s]) : n = .text s := by
  simpa [bodies] using h

theorem sound_nil : Sound [] := ⟨.nil, fun _ h => absurd h not_occurs_nil⟩

/-- Nodes stay sound when text is added: it joins a text that stands there already. -/
theorem Sound.addText {nodes : List Node} (h : Sound nodes) (s : String) :
    Sound (Node.addText nodes s) := by
  rcases addText_cases nodes s with ⟨front, t, rfl, heq⟩ | ⟨hlast, heq⟩
  · rw [heq]
    obtain ⟨hfront, -, hmeet⟩ := List.isChain_append.1 h.apart
    constructor
    · refine hfront.append (.singleton _) fun n hn m hm => ?_
      cases hm
      intro u v hu _
      exact hmeet n hn (.text t) rfl u t hu rfl
    · intro n hn
      rcases occurs_append.1 hn with hn | hn
      · exact h.inside n (occurs_append.2 (.inl hn))
      · obtain rfl := occurs_text hn
        exact ⟨True.intro, by simp [bodies]⟩
  · rw [heq]
    constructor
    · refine h.apart.append (.singleton _) fun n hn m hm => ?_
      rintro u v rfl
      obtain ⟨front, hfront⟩ := List.getLast?_eq_some_iff.1 hn
      exact absurd hfront (hlast front u)
    · intro n hn
      rcases occurs_append.1 hn with hn | hn
      · exact h.inside n hn
      · obtain rfl := occurs_text hn
        exact ⟨True.intro, by simp [bodies]⟩

/-- Nodes stay sound when a node is added that is no text. -/
theorem Sound.snoc {nodes : List Node} {n : Node} (h : Sound nodes) (hn : n.Valid)
    (htext : ∀ s, n ≠ .text s) (hbodies : ∀ body ∈ n.bodies, Sound body) :
    Sound (nodes ++ [n]) := by
  constructor
  · refine List.IsChain.append h.apart (.singleton _) fun _ _ m hm => ?_
    cases hm
    exact fun _ t _ => htext t
  · intro m hm
    rcases occurs_append.1 hm with hm | hm
    · exact h.inside m hm
    · rw [occurs_cons] at hm
      rcases hm with rfl | ⟨body, hbody, hm⟩ | hm
      · exact ⟨hn, fun body hbody => (hbodies body hbody).apart⟩
      · exact (hbodies body hbody).inside m hm
      · exact absurd hm not_occurs_nil

end Node

/-! ## From tags to nodes -/

theorem Tag.Valid.leaf {t : Tag} {n : Node} (h : t.Valid) (hn : t.leaf? = some n) :
    n.Valid ∧ n.bodies = [] ∧ ∀ s, n ≠ .text s := by
  cases t with
  | lookup | call | inclusion =>
    cases hn
    exact ⟨h, rfl, by simp⟩
  | comment | literal | opener | otherwise | closer => cases hn

/-- A block that is opened validly is a valid node, and its bodies are the given ones at most. -/
theorem Opening.Valid.node {o : Opening} (h : o.Valid) (body : List Node)
    (inverse : Option (List Node)) :
    (o.node body inverse).Valid ∧
      ∀ ns ∈ (o.node body inverse).bodies, ns = body ∨ ns ∈ inverse.toList := by
  cases o with
  | keyword | helper => exact ⟨h, fun ns hns => List.mem_cons.1 hns⟩
  | region | override => exact ⟨True.intro, fun ns hns => .inl (List.mem_singleton.1 hns)⟩

theorem forall_tags_append {ps qs : List Piece}
    (h : ∀ placed, Piece.tag placed ∈ ps ++ qs → placed.tag.Valid) :
    (∀ placed, Piece.tag placed ∈ ps → placed.tag.Valid) ∧
      ∀ placed, Piece.tag placed ∈ qs → placed.tag.Valid :=
  ⟨fun placed hmem => h placed (List.mem_append_left _ hmem),
    fun placed hmem => h placed (List.mem_append_right _ hmem)⟩

/-- **Valid tags make sound nodes.** -/
theorem Derives.sound {pieces : List Piece} {nodes : List Node} (h : Derives pieces nodes)
    (hvalid : ∀ placed, .tag placed ∈ pieces → placed.tag.Valid) : Node.Sound nodes := by
  induction h with
  | nil => exact Node.sound_nil
  | text chars _ ih => exact (ih (forall_tags_append hvalid).1).addText _
  | literal _ _ ih => exact (ih (forall_tags_append hvalid).1).addText _
  | comment _ _ ih => exact ih (forall_tags_append hvalid).1
  | leaf htag _ ih =>
    obtain ⟨hfront, hlast⟩ := forall_tags_append hvalid
    obtain ⟨hn, hbodies, htext⟩ := (hlast _ (List.mem_singleton_self _)).leaf htag
    refine (ih hfront).snoc hn htext ?_
    rw [hbodies]
    intro body hbody
    cases hbody
  | @block _ _ _ body opener _ o hopen _ _ _ ih ihbody =>
    obtain ⟨hfront, hblock⟩ := forall_tags_append hvalid
    have hopener := hblock opener (by simp)
    rw [hopen] at hopener
    have hinner := ihbody fun placed hmem => hblock placed (by simp [hmem])
    obtain ⟨hn, hbodies⟩ := Opening.Valid.node hopener body none
    refine (ih hfront).snoc hn (Opening.node_ne_text _ _ _) fun ns hns => ?_
    rcases hbodies ns hns with rfl | hns
    · exact hinner
    · cases hns
  | @blockElse _ _ _ body _ inverse opener _ _ o hopen _ _ _ _ _ _ ih ihbody ihother =>
    obtain ⟨hfront, hblock⟩ := forall_tags_append hvalid
    have hopener := hblock opener (by simp)
    rw [hopen] at hopener
    have hinner := ihbody fun placed hmem => hblock placed (by simp [hmem])
    have hother := ihother fun placed hmem => hblock placed (by simp [hmem])
    obtain ⟨hn, hbodies⟩ := Opening.Valid.node hopener body (some inverse)
    refine (ih hfront).snoc hn (Opening.node_ne_text _ _ _) fun ns hns => ?_
    rcases hbodies ns hns with rfl | hns
    · exact hinner
    · obtain rfl := List.mem_singleton.1 hns
      exact hother

theorem sound_of_parse {text : String} {nodes : List Node} (h : parse text = .ok nodes) :
    Node.Sound nodes := by
  obtain ⟨pieces, hlaid, hderives⟩ := derives_of_parse h
  refine hderives.sound fun placed hmem => ?_
  have hscan : .tag placed ∈ (scan text.toList).pieces := by rwa [scan_eq_iff.2 hlaid]
  obtain ⟨_, _, -, -, htag⟩ := tag_of_scan hscan
  exact Tag.valid_of_ofContent htag

theorem Keyword.ofName?_spelling (k : Keyword) : ofName? k.spelling = some k := by
  cases k <;> rfl

/-- A block of the language takes one argument and no named ones. -/
theorem Tag.opening_keyword {k : Keyword} {params : List Param} {named : Table Param} {o : Opening}
    (h : Tag.opening k.spelling params named = .ok o) :
    named = [] ∧ ∃ p, params = [p] ∧ o = .keyword k p := by
  unfold Tag.opening at h
  rw [Keyword.ofName?_spelling] at h
  dsimp only at h
  split at h
  next => cases h
  next hnamed =>
    split at h
    next p =>
      cases h
      refine ⟨?_, p, rfl, rfl⟩
      simpa using hnamed
    next => cases h

/-- **The nodes of a template are in good form.** In every list of nodes, at every depth, no two
texts stand side by side; every argument and every path can be written as one; calls have arguments;
helpers go by names that are one segment and stand for nothing else, and those with a body not by
the name of a block of the language; named arguments have names. A block of the language holds one
argument, and reading makes one from exactly one. -/
theorem parsed_nodes_sound {text : String} {nodes : List Node} (h : parse text = .ok nodes) :
    Node.Sound nodes ∧
      ∀ (k : Keyword) (params : List Param) (named : Table Param) (o : Opening),
        Tag.opening k.spelling params named = .ok o →
          named = [] ∧ ∃ p, params = [p] ∧ o = .keyword k p := by
  exact ⟨sound_of_parse h, fun k params named o hopening => Tag.opening_keyword hopening⟩

/-- A comment between two texts, which are one node, and a call with a word that is no number. -/
theorem parsed_nodes_sound_of_list :
    let text := "\x7b\x7b#each xs\x7d\x7da\x7b\x7b! b \x7d\x7dc\x7b\x7bup @key n=1e5\x7d\x7d" ++
      "\x7b\x7b/each\x7d\x7d"
    let call := Node.call "up" [.path (.bound "key")] [("n", .path (.named "1e5" []))] true
    let nodes := [.block .each (.path (.named "xs" [])) [.text "ac", call] none]
    parse text = .ok nodes ∧ Node.Sound nodes ∧
      Tag.opening "each" [.path (.named "xs" [])] [] =
        .ok (.keyword .each (.path (.named "xs" []))) := by
  intro text call nodes
  have h : parse text = .ok nodes := by cbv
  obtain ⟨hsound, -⟩ := parsed_nodes_sound h
  exact ⟨h, hsound, rfl⟩

end Stencil
