import Mathlib
import Stencil.Engine
import Stencil.Proofs.RenderRules
import Stencil.Proofs.ShelfAnswers

/-!
# What data can put into the output

The seven characters that can leave the text or attribute value they stand in are written as
entities wherever a value is printed, unless a template asks for the raw text: by a raw lookup, a
raw call, or a block that a helper fills. A template is guarded if it never does, and neither does
any template that it reaches through includes. Then the output of a render has only two kinds of
pieces:

> `render_pieces`: every piece is a text of one of these templates, or it is inert.

A text is inert (`Text.Inert`) if six of the characters are missing from it and every `&` begins
one of the seven entities. No value of the model, the extra values, a resolver or a helper can
put anything else between the texts that the templates' authors wrote.
-/

namespace Stencil

open Step (Keeps)

/-! ## Inert texts -/

namespace Text

/-- The entities of the seven characters. -/
def entities : List (List Char) :=
  ["&amp;", "&lt;", "&gt;", "&quot;", "&#x27;", "&#x60;", "&#x3D;"].map String.toList

/-- Nothing in the text can leave the place where it stands: six of the seven characters do not
occur, and every `&` begins an entity. -/
structure Inert (cs : List Char) : Prop where
  free : ∀ c ∈ cs, c ∉ ['<', '>', '"', '\'', '\x60', '=']
  entity : ∀ before after, cs = before ++ '&' :: after → ∃ e ∈ entities, e <+: '&' :: after

theorem inert_nil : Inert [] where
  free := by simp
  entity := by simp

theorem Inert.append {a b : List Char} (ha : Inert a) (hb : Inert b) : Inert (a ++ b) where
  free c hc := by
    rcases List.mem_append.1 hc with hc | hc
    · exact ha.free c hc
    · exact hb.free c hc
  entity before after h := by
    -- Either the `&` stands in `b`, or it stands in `a` and `more` is the part of `a` from it on.
    rcases List.append_eq_append_iff.1 h with ⟨more, rfl, hb'⟩ | ⟨more, ha', hafter⟩
    · exact hb.entity more after hb'
    · cases more with
      | nil => exact hb.entity [] after (by simpa using hafter.symm)
      | cons c more =>
        obtain ⟨rfl, rfl⟩ := List.cons.inj hafter
        obtain ⟨e, he, hprefix⟩ := ha.entity before more ha'
        exact ⟨e, he, hprefix.trans (List.prefix_append _ b)⟩

/-- An entity has its only `&` at the front. -/
theorem inert_of_mem_entities {cs : List Char} (h : cs ∈ entities) : Inert cs := by
  have hfront : ∀ e ∈ entities, (∀ c ∈ e, c ∉ ['<', '>', '"', '\'', '\x60', '=']) ∧
      '&' ∉ e.tail := by simp [entities]
  obtain ⟨hfree, htail⟩ := hfront cs h
  refine ⟨hfree, fun before after hcs => ⟨cs, h, ?_⟩⟩
  -- An `&` further in would be in the tail.
  cases before with
  | nil =>
    rw [hcs]
    exact List.prefix_rfl
  | cons c before =>
    rw [hcs] at htail
    simp at htail

theorem escapeChar_eq_self {c : Char} (h : c ∉ ['&', '<', '>', '"', '\'', '\x60', '=']) :
    escapeChar c = [c] := by
  unfold escapeChar
  split <;> simp_all

/-- However a character is written, the text of it is inert. -/
theorem inert_escapeChar (c : Char) : Inert (escapeChar c) := by
  by_cases hc : c ∈ ['&', '<', '>', '"', '\'', '\x60', '=']
  · have hwritten : ∀ d ∈ ['&', '<', '>', '"', '\'', '\x60', '='], escapeChar d ∈ entities := by
      simp [entities, escapeChar]
    exact inert_of_mem_entities (hwritten c hc)
  · rw [escapeChar_eq_self hc]
    constructor
    · intro d hd hspecial
      rw [List.mem_singleton.1 hd] at hspecial
      exact hc (List.mem_cons_of_mem _ hspecial)
    · intro before after h
      rcases List.cons_eq_append_iff.1 h with ⟨rfl, h⟩ | ⟨_, rfl, h⟩
      · cases h
        simp at hc
      · simp at h

theorem inert_escapeChars (cs : List Char) : Inert (escapeChars cs) := by
  induction cs with
  | nil => exact inert_nil
  | cons c rest ih =>
    rw [escapeChars_cons]
    exact (inert_escapeChar c).append ih

theorem inert_escape (s : String) : Inert (escape s).toList := by
  rw [escape, String.toList_ofList]
  exact inert_escapeChars _

end Text

open Text (Inert)

/-- What a value prints where it is escaped is inert, for every shape of value. -/
theorem inert_emit (v : Value) : Inert (emit v true).toList := by
  unfold emit
  split
  next => exact Text.inert_nil
  next =>
    rw [if_pos rfl]
    exact Text.inert_escape _

/-! ## Guarded templates -/

/-- The node does not print a value as raw text by itself. -/
def Node.guarded : Node → Bool
  | .lookup _ escape | .call _ _ _ escape => escape
  | .helperBlock .. => false
  | .text _ | .block .. | .inclusion .. | .region .. | .override .. => true

/-- The lists of nodes that a render can come to: those at hand, and those of every template that
is included from nodes it can come to. -/
inductive Engine.Reaches (e : Engine) (nodes : List Node) : List Node → Prop where
  | itself : Reaches e nodes nodes
  | included {ms found : List Node} {name : String} {context : Option Param}
      (h : Reaches e nodes ms) (hn : (Node.inclusion name context).Occurs ms)
      (hload : (e.shelf.load e.reader e.keeps name).1 = .ok found) : Reaches e nodes found

/-! ## Texts put together from pieces -/

/-- The text consists of pieces with a property. -/
def Composed (P : String → Prop) (s : String) : Prop :=
  ∃ pieces : List String, s = String.join pieces ∧ ∀ piece ∈ pieces, P piece

namespace Composed

variable {P : String → Prop}

theorem empty : Composed P "" := ⟨[], rfl, by simp⟩

theorem single {s : String} (h : P s) : Composed P s := ⟨[s], by simp, by simpa using h⟩

theorem append {a b : String} (ha : Composed P a) (hb : Composed P b) : Composed P (a ++ b) := by
  obtain ⟨as, rfl, has⟩ := ha
  obtain ⟨bs, rfl, hbs⟩ := hb
  refine ⟨as ++ bs, by rw [String.join_append], fun piece h => ?_⟩
  rcases List.mem_append.1 h with h | h
  · exact has piece h
  · exact hbs piece h

end Composed

/-! ## Renders of guarded templates -/

section

variable (e : Engine) (nodes : List Node)

/-- A node that a render can come to. -/
def Within (n : Node) : Prop := ∃ ms, e.Reaches nodes ms ∧ n.Occurs ms

/-- A piece that a guarded render may print. -/
def Allowed (s : String) : Prop := Within e nodes (.text s) ∨ Inert s.toList

/-- What holds all through a render: templates are answered as they were at the start, and the
overrides consist of nodes that the render can come to. -/
structure Contained (p : Progress) : Prop where
  answers : ∀ name, p.shelf.answer e.reader name = e.shelf.answer e.reader name
  overrides : ∀ name body, p.overrides.get? name = some body → ∀ n, n.Occurs body → Within e nodes n

variable {e nodes}

theorem contained_override {p : Progress} (hp : Contained e nodes p) {name : String}
    {body : List Node} (hbody : ∀ n, n.Occurs body → Within e nodes n) :
    Contained e nodes { p with overrides := p.overrides.insert name body } where
  answers := hp.answers
  overrides other replacement h := by
    rw [Table.get?_insert] at h
    split at h
    next =>
      cases h
      exact hbody
    next => exact hp.overrides other replacement h

/-- A guarded render sees to all its duties, if the levels below it do. -/
theorem duties_of_guarded (hguard : ∀ n, Within e nodes n → n.guarded = true) (chain : Chain)
    {expand : Expand}
    (ih : ∀ ms, (∀ n, n.Occurs ms → Within e nodes n) → ∀ scopes,
      Keeps (Contained e nodes) (Composed (Allowed e nodes)) (expand ms scopes)) :
    Duties (e.setting chain) expand (Within e nodes) (Contained e nodes)
      (Composed (Allowed e nodes)) where
  empty := .empty
  append _ _ := .append
  text _ hn := .single (.inl hn)
  lookup _ escape v hn := by
    obtain rfl : escape = true := hguard _ hn
    exact .single (.inr (inert_emit v))
  call _ _ _ escape v hn := by
    obtain rfl : escape = true := hguard _ hn
    exact .single (.inr (inert_emit v))
  -- What a helper makes of a block is printed raw, so a guarded template has none.
  helperBlock _ _ _ _ _ _ hn := by
    have := hguard _ hn
    cases this
  inclusion name context scopes hn := by
    obtain ⟨ms, hreach, hoccurs⟩ := hn
    refine runInclude_keeps (fun p hp => ?_) (fun p _ hp => ⟨hp.answers, hp.overrides⟩)
      (fun p hp found hload inner => ih found ?_ inner) context scopes
    · exact ⟨fun other => (Shelf.answer_load other).trans (hp.answers other), hp.overrides⟩
    · -- What the shelf answers now it has answered from the start, so `found` is reached.
      have hstart : (e.shelf.load e.reader e.keeps name).1 = .ok found := by
        rw [Shelf.load_fst, ← hp.answers name, ← hload, Shelf.load_fst]
        rfl
      exact fun n hn => ⟨found, .included hreach hoccurs hstart, hn⟩
  region _ hp name _ _ replacement hget scopes :=
    ih replacement (hp.overrides name replacement hget) scopes
  override _ hp _ _ _ hbody := contained_override hp hbody

end

/-- If neither the template nor any template it reaches asks for raw text, the output of a render
consists of texts of these templates and of inert pieces. -/
theorem render_pieces (e : Engine) (t : Template) (c : Context) {out : String} {e' : Engine}
    (hguard : ∀ ms, e.Reaches t.nodes ms → ∀ n : Node, n.Occurs ms → n.guarded = true)
    (hrender : e.render t c = some (.ok out, e')) :
    ∃ pieces : List String, out = String.join pieces ∧ ∀ s ∈ pieces,
      (∃ ms, e.Reaches t.nodes ms ∧ (Node.text s).Occurs ms) ∨ Inert s.toList := by
  have hwithin : ∀ n, Within e t.nodes n → n.guarded = true :=
    fun n ⟨ms, hreach, hn⟩ => hguard ms hreach n hn
  have hkeeps := expand_keeps (fun _ => duties_of_guarded hwithin (c.chainFor t))
    expansionBudget t.nodes (fun n hn => ⟨t.nodes, .itself, hn⟩) c.scopes
  unfold Engine.render Setting.render at hrender
  split at hrender
  next => cases hrender
  next r p hexpand =>
    cases hrender
    have hstart : Contained e t.nodes ⟨[], 0, e.shelf⟩ :=
      ⟨fun _ => rfl, fun _ _ h => by cases h⟩
    exact (hkeeps _ hstart _ _ hexpand).2 out rfl

/-- A page with an include, and a value that is all markup. -/
theorem render_pieces_of_page :
    let e := Engine.new (some (.own fun _ => .ok "<hr>\x7b\x7bname\x7d\x7d")) ⟨[], .empty⟩
    let t : Template := ⟨"page", [.text "<p>", .lookup (.named "name" []) true,
      .inclusion "foot" none], .default⟩
    let c := Context.of (.map [("name", .str "<&")])
    let out := "<p>&lt;&amp;<hr>&lt;&amp;"
    (e.render t c).map Prod.fst = some (.ok out) ∧
      (∀ ms, e.Reaches t.nodes ms → ∀ n : Node, n.Occurs ms → n.guarded = true) ∧
      ∃ pieces : List String, out = String.join pieces ∧ ∀ s ∈ pieces,
        (∃ ms, e.Reaches t.nodes ms ∧ (Node.text s).Occurs ms) ∨ Inert s.toList := by
  intro e t c out
  let foot : List Node := [.text "<hr>", .lookup (.named "name" []) true]
  have hload (name : String) : (e.shelf.load e.reader e.keeps name).1 = .ok foot := by cbv
  have hreaches : ∀ ms, e.Reaches t.nodes ms → ms = t.nodes ∨ ms = foot := by
    intro ms h
    induction h with
    | itself => exact .inl rfl
    | included _ _ hfound => exact .inr (Except.ok.inj (hfound.symm.trans (hload _)))
  have hguard : ∀ ms, e.Reaches t.nodes ms → ∀ n : Node, n.Occurs ms → n.guarded = true := by
    intro ms hms n hn
    rcases hreaches ms hms with rfl | rfl
    · simp [t, Node.bodies] at hn
      rcases hn with rfl | rfl | rfl
      all_goals rfl
    · simp [foot, Node.bodies] at hn
      rcases hn with rfl | rfl
      all_goals rfl
  have hrender : e.render t c =
      some (.ok out, { e with shelf := ⟨[("foot", foot)], ["foot"]⟩ }) := by
    -- The page and the included template are two levels; what is left of the budget stays closed.
    have hlevels : ∀ budget, (e.setting (c.chainFor t)).expand (budget + 2) t.nodes c.scopes
        ⟨[], 0, e.shelf⟩ = some (.ok out, ⟨[], 0, ⟨[("foot", foot)], ["foot"]⟩⟩) := by
      intro budget
      cbv
    unfold Engine.render
    rw [render_of_levels 2 (by decide) hlevels]
    rfl
  exact ⟨by rw [hrender]; rfl, hguard, render_pieces e t c hguard hrender⟩

end Stencil
