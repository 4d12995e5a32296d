import Mathlib
import Stencil.Proofs.BlockGrammar

/-!
# Literal text from the source to the nodes

What a template prints literally is the text of its text nodes. This file accounts for it
character by character: the source is a row of pieces (`Laid`), each of which is a stretch of
text or a tag with the indentation and the line end that it takes along; the text nodes, read in
the order of the template, hold the stretches of text, in each literal's place its text, and
nothing else.

> `Derives.texts`: no rule of the block grammar loses, doubles or moves text.
> `parse_keeps_text`: the same for a whole template, down to the characters of its source.
-/

namespace Stencil

mutual

/-- The literal text of a node in the order of the template, a main body before a second one. -/
def Node.texts : Node → List Char
  | .text s => s.toList
  | .block _ _ body inverse | .helperBlock _ _ _ body inverse =>
    Node.allTexts body ++
      match inverse with
      | some nodes => Node.allTexts nodes
      | none => []
  | .region _ body | .override _ body => Node.allTexts body
  | .lookup .. | .call .. | .inclusion .. => []

/-- The literal text of a list of nodes. -/
def Node.allTexts : List Node → List Char
  | [] => []
  | n :: rest => n.texts ++ allTexts rest

end

/-- What a piece adds to the literal text: a stretch of text itself, and a literal the text that
it stands for. -/
def Piece.shown : Piece → List Char
  | .text chars => chars
  | .tag placed =>
    match placed.tag with
    | .literal l escape => (Outline.literalText l escape).toList
    | _ => []

namespace Node

@[simp]
theorem allTexts_append (ns ms : List Node) :
    allTexts (ns ++ ms) = allTexts ns ++ allTexts ms := by
  induction ns with
  | nil => rfl
  | cons n ns ih => rw [List.cons_append, allTexts, ih, allTexts, List.append_assoc]

@[simp]
theorem allTexts_addText (ns : List Node) (s : String) :
    allTexts (addText ns s) = allTexts ns ++ s.toList := by
  fun_induction addText ns s with
  | case1 s => simp [allTexts, texts]
  | case2 t s => simp [allTexts, texts]
  | case3 n rest s _ ih => rw [allTexts, ih, allTexts, List.append_assoc]

theorem texts_of_leaf {t : Tag} {n : Node} (h : t.leaf? = some n) : n.texts = [] := by
  cases t <;> simp only [Tag.leaf?, Option.some.injEq, reduceCtorEq] at h <;> rw [← h, texts]

/-- A finished block shows its bodies in order. -/
theorem texts_block (o : Opening) (body : List Node) :
    (o.node body none).texts = allTexts body := by
  cases o <;> simp [Opening.node, texts]

theorem texts_blockElse {o : Opening} (hallows : o.allowsElse = true) (body inverse : List Node) :
    (o.node body (some inverse)).texts = allTexts body ++ allTexts inverse := by
  cases o <;> simp_all [Opening.node, texts, Opening.allowsElse]

end Node

/-! ## The block grammar keeps text -/

theorem shown_literal {placed : PlacedTag} {l : Literal} {escape : Bool}
    (h : placed.tag = .literal l escape) :
    (Piece.tag placed).shown = (Outline.literalText l escape).toList := by
  simp only [Piece.shown, h]

theorem shown_leaf {placed : PlacedTag} {n : Node} (h : placed.tag.leaf? = some n) :
    (Piece.tag placed).shown = [] := by
  cases htag : placed.tag <;> simp_all [Piece.shown, Tag.leaf?]

/-- Comments, openers, `else` and closers show nothing. -/
theorem shown_of_takesLine {placed : PlacedTag} (h : placed.tag.takesLine = true) :
    (Piece.tag placed).shown = [] := by
  cases htag : placed.tag <;> simp_all [Piece.shown, Tag.takesLine]

/-- **The block grammar keeps text**: the nodes of a derivation show what its pieces show, in the
same order. -/
theorem Derives.texts {pieces : List Piece} {nodes : List Node} (h : Derives pieces nodes) :
    Node.allTexts nodes = pieces.flatMap Piece.shown := by
  induction h with
  | nil => rfl
  | text chars _ ih =>
    -- The text may join a text node that stands there already; the characters are the same.
    rw [Node.allTexts_addText, ih, String.toList_ofList, List.flatMap_append]
    simp [Piece.shown]
  | literal htag _ ih =>
    rw [Node.allTexts_addText, ih, List.flatMap_append, List.flatMap_singleton,
      shown_literal htag]
  | comment htag _ ih =>
    rw [ih, List.flatMap_append, List.flatMap_singleton,
      shown_of_takesLine (by rw [htag]; rfl), List.append_nil]
  | leaf htag _ ih =>
    rw [Node.allTexts_append, ih, List.flatMap_append, List.flatMap_singleton, shown_leaf htag]
    simp [Node.allTexts, Node.texts_of_leaf htag]
  | block hopen hclose _ _ ih ihbody =>
    have hopener := shown_of_takesLine (by rw [hopen]; rfl)
    have hcloser := shown_of_takesLine (by rw [hclose]; rfl)
    rw [Node.allTexts_append, ih]
    simp [Node.allTexts, Node.texts_block, ihbody, hopener, hcloser]
  | blockElse hopen hturn hclose hallows _ _ _ ih ihbody ihother =>
    have hopener := shown_of_takesLine (by rw [hopen]; rfl)
    have hturner := shown_of_takesLine (by rw [hturn]; rfl)
    have hcloser := shown_of_takesLine (by rw [hclose]; rfl)
    rw [Node.allTexts_append, ih]
    simp [Node.allTexts, Node.texts_blockElse hallows, ihbody, ihother, hopener, hturner, hcloser]

/-! ## From the source to the nodes -/

/-- **No literal text is lost, doubled or moved.** The source of a template that can be read is a
row of pieces: stretches of text, and tags, each with the indentation and the line end that it
takes along exactly when it has its line to itself (`Laid`). The text nodes show the stretches of
text and, in the place of a literal, its text; so nothing of the source is missing from them but
the tags, those indentations and those line ends. -/
theorem parse_keeps_text {text : String} {nodes : List Node} (h : parse text = .ok nodes) :
    ∃ pieces, Laid [] text.toList pieces ∧ pieces.flatMap Piece.source = text.toList ∧
      Node.allTexts nodes = pieces.flatMap Piece.shown := by
  obtain ⟨pieces, hlaid, hderives⟩ := derives_of_parse h
  exact ⟨pieces, hlaid, laid_source hlaid, hderives.texts⟩

/-- A block whose tags have lines to themselves, around an escaped literal. -/
theorem parse_keeps_text_of_block :
    let text := "a\n  \x7b\x7b#if x\x7d\x7d \nb\x7b\x7b'<'\x7d\x7d\n\x7b\x7b/if\x7d\x7d"
    let nodes := [.text "a\n", .block .whenTrue (.path (.named "x" [])) [.text "b&lt;\n"] none]
    parse text = .ok nodes ∧
      ∃ pieces, Laid [] text.toList pieces ∧ pieces.flatMap Piece.source = text.toList ∧
        Node.allTexts nodes = pieces.flatMap Piece.shown := by
  intro text nodes
  have h : parse text = .ok nodes := by cbv
  exact ⟨h, parse_keeps_text h⟩

end Stencil
