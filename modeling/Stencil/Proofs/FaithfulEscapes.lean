import Stencil.Proofs.Escaping
import Stencil.Proofs.PairedDerivations
import Mathlib

/-!
# Escaping loses nothing and goes piece by piece

Each character is escaped on its own, and what comes out says what went in: the seven entities are
told apart from all other text, also where the text that is escaped looks like an entity itself.

> `Inert.exists_escapeChars`: the escaped texts are exactly the inert ones, so `escape` and
> `unescape` go back and forth between all texts and these.
> `Node.Escapes`, `Derives.escapes`: a template with raw tags, and the same template with escaping
> tags and its literal text escaped by hand. Where reading joins literals to the text around them,
> the joined texts are still escapes of each other.
> `renderNodes_escapes`: what the second one shows is the escape of what the first one shows.
> `escaping_faithful`: all of it together.
-/

namespace Stencil

/-! ## Inert texts are escaped texts -/

namespace Text

theorem Inert.of_append_right {a b : List Char} (h : Inert (a ++ b)) : Inert b where
  free c hc := h.free c (List.mem_append_right a hc)
  entity before after heq := h.entity (a ++ before) after (by rw [heq, List.append_assoc])

/-- Each entity is the escape of a character. -/
theorem exists_escapeChar_of_mem_entities {e : List Char} (h : e ∈ entities) :
    ∃ c, escapeChar c = e := by
  have hall : ∀ e ∈ entities, ∃ c ∈ ['&', '<', '>', '"', '\'', '\x60', '='], escapeChar c = e := by
    simp [entities, escapeChar]
  obtain ⟨c, -, hc⟩ := hall e h
  exact ⟨c, hc⟩

theorem escapeChar_ne_nil (c : Char) : escapeChar c ≠ [] := by
  unfold escapeChar
  split <;> simp

/-- An inert text begins with the escape of a character. -/
theorem Inert.exists_escapeChar {c : Char} {rest : List Char} (h : Inert (c :: rest)) :
    ∃ d more, c :: rest = escapeChar d ++ more := by
  by_cases hc : c = '&'
  · obtain ⟨e, he, more, hmore⟩ := h.entity [] rest (by rw [hc]; rfl)
    obtain ⟨d, rfl⟩ := exists_escapeChar_of_mem_entities he
    exact ⟨d, more, by rw [hmore, hc]⟩
  · have hfree := h.free c (List.mem_cons_self ..)
    have hself : escapeChar c = [c] := escapeChar_eq_self (by simp_all)
    exact ⟨c, rest, by rw [hself]; rfl⟩

/-- **Every inert text is the escape of a text.** -/
theorem Inert.exists_escapeChars : ∀ {t : List Char}, Inert t → ∃ cs, escapeChars cs = t
  | [], _ => ⟨[], rfl⟩
  | c :: rest, h => by
    obtain ⟨d, more, heq⟩ := h.exists_escapeChar
    rw [heq] at h
    have hshorter : more.length < rest.length + 1 := by
      have hne := List.length_pos_iff.2 (escapeChar_ne_nil d)
      have hlength := congrArg List.length heq
      rw [List.length_cons, List.length_append] at hlength
      omega
    obtain ⟨cs, rfl⟩ := Inert.exists_escapeChars h.of_append_right
    exact ⟨d :: cs, by rw [heq, escapeChars_cons]⟩
  termination_by t => t.length

theorem exists_escape_iff {t : String} : (∃ s, escape s = t) ↔ Inert t.toList := by
  constructor
  · rintro ⟨s, rfl⟩
    exact inert_escape s
  · intro h
    obtain ⟨cs, hcs⟩ := h.exists_escapeChars
    exact ⟨String.ofList cs, by rw [escape, String.toList_ofList, hcs, String.ofList_toList]⟩

end Text

open Text (Inert escape unescape escapeChars)

/-! ## A template and its escaped form -/

/-- A raw tag and the escaping tag in its place. Other tags stand for themselves; tags that bring in
nodes from elsewhere, or hand text to a helper, are left out. -/
inductive Tag.Escapes : Tag → Tag → Prop where
  | comment : Escapes .comment .comment
  | lookup (path : Path) : Escapes (.lookup path false) (.lookup path true)
  | literal (l : Literal) : Escapes (.literal l false) (.literal l true)
  | call (name : String) (params : List Param) (named : Table Param) :
      Escapes (.call name params named false) (.call name params named true)
  | keyword (k : Keyword) (param : Param) :
      Escapes (.opener (.keyword k param)) (.opener (.keyword k param))
  | otherwise : Escapes .otherwise .otherwise
  | closer (name : String) : Escapes (.closer name) (.closer name)

/-- A piece of a template and the piece in its place: a stretch of text is escaped by hand. -/
abbrev Piece.Escapes : Piece → Piece → Prop :=
  Piece.Paired (fun chars chars' => chars' = escapeChars chars) Tag.Escapes

/-- Raw nodes and the escaping nodes in their place, at every depth. -/
inductive Node.Escapes : List Node → List Node → Prop where
  | nil : Escapes [] []
  | text (s : String) {ns ms} (h : Escapes ns ms) :
      Escapes (.text s :: ns) (.text (escape s) :: ms)
  | lookup (path : Path) {ns ms} (h : Escapes ns ms) :
      Escapes (.lookup path false :: ns) (.lookup path true :: ms)
  | call (name : String) (params : List Param) (named : Table Param) {ns ms} (h : Escapes ns ms) :
      Escapes (.call name params named false :: ns) (.call name params named true :: ms)
  | block (k : Keyword) (param : Param) {body body' ns ms} (hbody : Escapes body body')
      (h : Escapes ns ms) :
      Escapes (.block k param body none :: ns) (.block k param body' none :: ms)
  | blockElse (k : Keyword) (param : Param) {body body' other other' ns ms}
      (hbody : Escapes body body') (hother : Escapes other other') (h : Escapes ns ms) :
      Escapes (.block k param body (some other) :: ns) (.block k param body' (some other') :: ms)

namespace Node.Escapes

variable {ns ms ns' ms' : List Node}

theorem append (h : Escapes ns ms) (h' : Escapes ns' ms') : Escapes (ns ++ ns') (ms ++ ms') := by
  induction h with
  | nil => exact h'
  | text s _ ih => exact .text s ih
  | lookup path _ ih => exact .lookup path ih
  | call name params named _ ih => exact .call name params named ih
  | block k param hbody _ _ ih => exact .block k param hbody ih
  | blockElse k param hbody hother _ _ _ ih => exact .blockElse k param hbody hother ih

theorem eq_nil_iff (h : Escapes ns ms) : ns = [] ↔ ms = [] := by
  cases h <;> simp

/-- Text that is added to raw nodes is added escaped to the others: it joins a text on both sides or
on neither, and the escape of the joined text is the joined escapes. -/
theorem addText (h : Escapes ns ms) (s : String) :
    Escapes (Node.addText ns s) (Node.addText ms (escape s)) := by
  induction h with
  | nil => exact .text s .nil
  | @text t ns ms h ih =>
    by_cases hns : ns = []
    · have hms := h.eq_nil_iff.1 hns
      subst hns hms
      show Escapes [.text (t ++ s)] [.text (escape t ++ escape s)]
      rw [← Text.escape_append]
      exact .text (t ++ s) .nil
    · have hms : ms ≠ [] := fun hms => hns (h.eq_nil_iff.2 hms)
      rw [addText_cons hns, addText_cons hms]
      exact .text t ih
  | lookup path _ ih =>
    rw [addText_cons_of_ne_text (by simp), addText_cons_of_ne_text (by simp)]
    exact .lookup path ih
  | call name params named _ ih =>
    rw [addText_cons_of_ne_text (by simp), addText_cons_of_ne_text (by simp)]
    exact .call name params named ih
  | block k param hbody _ _ ih =>
    rw [addText_cons_of_ne_text (by simp), addText_cons_of_ne_text (by simp)]
    exact .block k param hbody ih
  | blockElse k param hbody hother _ _ _ ih =>
    rw [addText_cons_of_ne_text (by simp), addText_cons_of_ne_text (by simp)]
    exact .blockElse k param hbody hother ih

/-- Every rule of the block grammar keeps raw nodes and escaping ones in step. -/
theorem pairing :
    Pairing (fun chars chars' => chars' = escapeChars chars) Tag.Escapes Node.Escapes where
  nil := .nil
  text {chars _ _ _} h hnodes := by
    subst h
    have hadded := hnodes.addText (String.ofList chars)
    rwa [escape, String.toList_ofList] at hadded
  comment h := by
    cases h
    rfl
  literal h := by
    cases h
    exact ⟨_, _, rfl, fun ns ms hnodes => hnodes.addText _⟩
  leaf h hn := by
    cases h with
    | lookup path =>
      cases hn
      exact ⟨_, rfl, fun ns ms hnodes => hnodes.append (.lookup path .nil)⟩
    | call name params named =>
      cases hn
      exact ⟨_, rfl, fun ns ms hnodes => hnodes.append (.call name params named .nil)⟩
    | comment | literal | keyword | otherwise | closer => cases hn
  otherwise h := by
    cases h
    rfl
  closer h := by
    cases h
    rfl
  opener h := by
    cases h with
    | keyword k param =>
      refine ⟨_, rfl, rfl, rfl, ?_⟩
      intro ns ms body body' hnodes hbody
      exact ⟨hnodes.append (.block k param hbody .nil),
        fun other other' hother => hnodes.append (.blockElse k param hbody hother .nil)⟩

end Node.Escapes

/-- A text whose pieces are those of a raw template, escaped, is read as the escaping nodes. -/
theorem parse_escapes {text escaped : String} {nodes : List Node} (h : parse text = .ok nodes)
    (hpieces : List.Forall₂ Piece.Escapes (scan text.toList).pieces (scan escaped.toList).pieces)
    (hfault : (scan escaped.toList).fault = none) :
    ∃ nodes', parse escaped = .ok nodes' ∧ Node.Escapes nodes nodes' := by
  obtain ⟨pieces, hlaid, hderives⟩ := derives_of_parse h
  rw [scan_eq_iff.2 hlaid] at hpieces
  obtain ⟨nodes', hderives', hnodes⟩ := hderives.paired Node.Escapes.pairing hpieces
  have hlaid' : Laid [] escaped.toList (scan escaped.toList).pieces := by
    rw [← scan_eq_iff, ← hfault]
  exact ⟨nodes', (parse_eq_ok_iff escaped nodes').2 ⟨_, hlaid', hderives'⟩, hnodes⟩

/-! ## Rendering the two -/

/-- The step, with its text escaped. -/
def Step.escaped (s : Step String) : Step String := Step.bind s fun t => Step.pure (escape t)

namespace Step

theorem escaped_pure (s : String) : escaped (pure s) = pure (escape s) := rfl

/-- Steps in a row may be escaped one by one. -/
theorem escaped_concat {β : Type} (f : β → Step String) (l : List β) :
    concat (fun x => escaped (f x)) l = escaped (concat f l) := by
  induction l with
  | nil => rfl
  | cons x rest ih =>
    simp only [concat, ih]
    simp only [escaped, bind_assoc, pure_bind, Text.escape_append]

end Step

open Step (escaped)

theorem emit_escaped (v : Value) : emit v true = escape (emit v false) := by
  cases v <;> rfl

variable {setting : Setting}

/-- A block of the language hands on the text of one body, or of its turns in a row. -/
theorem runBlock_escaped (k : Keyword) (param : Param) (scopes : Scopes)
    (body : Scopes → Step String) (other : Step String) :
    setting.runBlock k param scopes (fun s => escaped (body s)) (escaped other) =
      escaped (setting.runBlock k param scopes body other) := by
  cases k with
  | whenTrue | whenFalse =>
    simp only [Setting.runBlock]
    split
    next => rfl
    next => rfl
  | within =>
    simp only [Setting.runBlock]
    split
    next => rfl
    next => rfl
  | each =>
    simp only [Setting.runBlock]
    split
    next => rfl
    next => exact Step.escaped_concat _ _

theorem renderNodes_cons_escaped {expand : Expand} {n m : Node} {ns ms : List Node}
    {scopes : Scopes}
    (hnode : renderNode setting expand m scopes = escaped (renderNode setting expand n scopes))
    (h : renderNodes setting expand ms scopes = escaped (renderNodes setting expand ns scopes)) :
    renderNodes setting expand (m :: ms) scopes =
      escaped (renderNodes setting expand (n :: ns) scopes) := by
  rw [renderNodes, renderNodes, hnode, h]
  simp only [escaped, Step.bind_assoc, Step.pure_bind, Text.escape_append]

/-- **What escaping nodes show is the escape of what the raw nodes show**, with the same progress and
the same faults. -/
theorem renderNodes_escapes {expand : Expand} {ns ms : List Node} (h : Node.Escapes ns ms) :
    ∀ scopes, renderNodes setting expand ms scopes =
      escaped (renderNodes setting expand ns scopes) := by
  induction h with
  | nil =>
    intro scopes
    rw [renderNodes]
    rfl
  | text s _ ih =>
    intro scopes
    refine renderNodes_cons_escaped ?_ (ih scopes)
    rw [renderNode, renderNode, Step.escaped_pure]
  | lookup path _ ih =>
    intro scopes
    refine renderNodes_cons_escaped ?_ (ih scopes)
    rw [renderNode, renderNode]
    split
    next v _ => rw [emit_escaped, Step.escaped_pure]
    next => rfl
  | call name params named _ ih =>
    intro scopes
    refine renderNodes_cons_escaped ?_ (ih scopes)
    rw [renderNode, renderNode]
    simp only [escaped, Step.bind_assoc, Step.pure_bind, emit_escaped]
  | block k param _ _ ihbody ih =>
    intro scopes
    refine renderNodes_cons_escaped ?_ (ih scopes)
    rw [renderNode_block, renderNode_block, ← runBlock_escaped, funext ihbody]
    rfl
  | blockElse k param _ _ _ ihbody ihother ih =>
    intro scopes
    refine renderNodes_cons_escaped ?_ (ih scopes)
    rw [renderNode_block, renderNode_block, ← runBlock_escaped, funext ihbody]
    simp only [renderOther, ihother]

theorem expand_escapes {ns ms : List Node} (h : Node.Escapes ns ms) (budget : Nat)
    (scopes : Scopes) :
    setting.expand budget ms scopes = escaped (setting.expand budget ns scopes) := by
  cases budget with
  | zero => rfl
  | succ budget => exact renderNodes_escapes h scopes

theorem render_escapes {ns ms : List Node} (h : Node.Escapes ns ms) (scopes : Scopes)
    (shelf : Shelf) :
    setting.render ms scopes shelf =
      (setting.render ns scopes shelf).map fun (r, shelf) => (r.map escape, shelf) := by
  unfold Setting.render
  rw [expand_escapes h]
  unfold escaped Step.bind
  generalize setting.expand expansionBudget ns scopes ⟨[], 0, shelf⟩ = outcome
  obtain _ | ⟨_ | _, _⟩ := outcome
  all_goals rfl

/-- **Escaping is faithful and goes piece by piece.** The escape of any text is inert: six of the
seven characters are missing, and each `&` begins one of the seven entities. Reading the entities back
from left to right gives the text again, whatever it looks like; so no two texts have one escape, and
the escapes are exactly the inert texts. The escape of two texts in a row is their escapes in a row.

So it makes no difference in which pieces a text is escaped. Take a template of literal text, raw
literals, raw lookups, raw calls and blocks of the language, and one that has the escaping tags in
the places of the raw ones and the literal text escaped by hand. Literals are joined to the text
around them when the templates are read, and values are put in when they are rendered; still the
second template can be read if the first one can, and shows the escape of what the first one shows as
a whole. -/
theorem escaping_faithful :
    (∀ s, Inert (escape s).toList ∧ unescape (escape s) = s) ∧ Function.Injective escape ∧
      (∀ t, (∃ s, escape s = t) ↔ Inert t.toList) ∧
      (∀ a b, escape (a ++ b) = escape a ++ escape b) ∧
      ∀ (text escaped : String) (nodes : List Node), parse text = .ok nodes →
        List.Forall₂ Piece.Escapes (scan text.toList).pieces (scan escaped.toList).pieces →
        (scan escaped.toList).fault = none →
          ∃ nodes', parse escaped = .ok nodes' ∧
            ∀ (setting : Setting) (scopes : Scopes) (shelf : Shelf),
              setting.render nodes' scopes shelf =
                (setting.render nodes scopes shelf).map fun (r, shelf) =>
                  (r.map escape, shelf) := by
  have hback : Function.LeftInverse unescape escape := Text.unescape_escape
  refine ⟨fun s => ⟨Text.inert_escape s, hback s⟩, hback.injective,
    fun t => Text.exists_escape_iff, Text.escape_append, ?_⟩
  intro text escaped nodes hparse hpieces hfault
  obtain ⟨nodes', hparse', hnodes⟩ := parse_escapes hparse hpieces hfault
  exact ⟨nodes', hparse', fun setting scopes shelf => render_escapes hnodes scopes shelf⟩

/-- A character of the markup in literal text, in a literal and in a value that looks like an entity:
the two literal texts become one node in both templates. -/
theorem escaping_faithful_of_ampersands :
    let text := "<\x7b\x7b\x7b'&'\x7d\x7d\x7d\x7b\x7b\x7ba\x7d\x7d\x7d"
    let escaped := "&lt;\x7b\x7b'&'\x7d\x7d\x7b\x7ba\x7d\x7d"
    let nodes := [Node.text "<&", .lookup (.named "a" []) false]
    parse text = .ok nodes ∧
      List.Forall₂ Piece.Escapes (scan text.toList).pieces (scan escaped.toList).pieces ∧
      (scan escaped.toList).fault = none ∧
      ∃ nodes', parse escaped = .ok nodes' ∧
        ∀ (setting : Setting) (scopes : Scopes) (shelf : Shelf),
          setting.render nodes' scopes shelf =
            (setting.render nodes scopes shelf).map fun (r, shelf) => (r.map escape, shelf) := by
  intro text escaped nodes
  have hparse : parse text = .ok nodes := by cbv
  have hpieces : List.Forall₂ Piece.Escapes (scan text.toList).pieces
      (scan escaped.toList).pieces := by
    have htext : (scan text.toList).pieces = [.text ['<'],
        .tag ⟨"<".toList.reverse, [], "\x7b\x7b\x7b'&'\x7d\x7d\x7d".toList, [],
          .literal (.text "&") false⟩,
        .tag ⟨"<\x7b\x7b\x7b'&'\x7d\x7d\x7d".toList.reverse, [],
          "\x7b\x7b\x7ba\x7d\x7d\x7d".toList, [], .lookup (.named "a" []) false⟩] := by cbv
    have hescaped : (scan escaped.toList).pieces = [.text "&lt;".toList,
        .tag ⟨"&lt;".toList.reverse, [], "\x7b\x7b'&'\x7d\x7d".toList, [],
          .literal (.text "&") true⟩,
        .tag ⟨"&lt;\x7b\x7b'&'\x7d\x7d".toList.reverse, [], "\x7b\x7ba\x7d\x7d".toList, [],
          .lookup (.named "a" []) true⟩] := by cbv
    rw [htext, hescaped]
    exact .cons (.text rfl) (.cons (.tag (.literal (.text "&")))
      (.cons (.tag (.lookup (.named "a" []))) .nil))
  have hfault : (scan escaped.toList).fault = none := by cbv
  exact ⟨hparse, hpieces, hfault,
    escaping_faithful.2.2.2.2 text escaped nodes hparse hpieces hfault⟩

end Stencil
