import Stencil.Proofs.PairedDerivations
import Stencil.Proofs.NodeTree
import Mathlib

/-!
# Templates that differ in the named arguments of calls

Two templates are alike if they are built alike and differ only in the tables of named arguments
of their calls, and in these only as a relation allows. Being alike goes from the pieces of a text
to its nodes:

> `Derives.like`: where pieces correspond one by one and their tags are alike, one row of pieces
> derives from the block grammar if the other does, and the nodes are alike.

Nothing is said of where the tags stand, so with equality for the relation this also covers a text
that is moved as a whole (`Node.Like.eq`).
-/

namespace Stencil

variable {same : Table Param → Table Param → Prop}

/-- Openings that differ in named arguments only. -/
inductive Opening.Like (same : Table Param → Table Param → Prop) : Opening → Opening → Prop where
  | keyword (k : Keyword) (param : Param) : Like same (.keyword k param) (.keyword k param)
  | helper (name : String) (params : List Param) {named named'} (h : same named named') :
      Like same (.helper name params named) (.helper name params named')
  | region (name : String) : Like same (.region name) (.region name)
  | override (name : String) : Like same (.override name) (.override name)

/-- Tags that differ in named arguments only. -/
inductive Tag.Like (same : Table Param → Table Param → Prop) : Tag → Tag → Prop where
  | comment : Like same .comment .comment
  | lookup (path : Path) (escape : Bool) : Like same (.lookup path escape) (.lookup path escape)
  | literal (l : Literal) (escape : Bool) : Like same (.literal l escape) (.literal l escape)
  | call (name : String) (params : List Param) {named named'} (escape : Bool)
      (h : same named named') :
      Like same (.call name params named escape) (.call name params named' escape)
  | inclusion (name : String) (context : Option Param) :
      Like same (.inclusion name context) (.inclusion name context)
  | opener {o o'} (h : Opening.Like same o o') : Like same (.opener o) (.opener o')
  | otherwise : Like same .otherwise .otherwise
  | closer (name : String) : Like same (.closer name) (.closer name)

/-- Pieces that differ in named arguments and in the places of tags only. -/
inductive Piece.Like (same : Table Param → Table Param → Prop) : Piece → Piece → Prop where
  | text (chars : List Char) : Like same (.text chars) (.text chars)
  | tag {placed placed' : PlacedTag} (h : placed.tag.Like same placed'.tag) :
      Like same (.tag placed) (.tag placed')

/-- Nodes that differ in named arguments only, at every depth. -/
inductive Node.Like (same : Table Param → Table Param → Prop) : List Node → List Node → Prop where
  | nil : Like same [] []
  | leaf {n ns ms} (hn : n.bodies = [])
      (hcall : ∀ name params named escape, n ≠ .call name params named escape)
      (h : Like same ns ms) : Like same (n :: ns) (n :: ms)
  | call (name : String) (params : List Param) {named named'} (escape : Bool)
      (hnamed : same named named') {ns ms} (h : Like same ns ms) :
      Like same (.call name params named escape :: ns) (.call name params named' escape :: ms)
  | block {o o'} (ho : Opening.Like same o o') {body body' ns ms} (hbody : Like same body body')
      (h : Like same ns ms) : Like same (o.node body none :: ns) (o'.node body' none :: ms)
  | blockElse {o o'} (ho : Opening.Like same o o') {body body' other other' ns ms}
      (hbody : Like same body body') (hother : Like same other other') (h : Like same ns ms) :
      Like same (o.node body (some other) :: ns) (o'.node body' (some other') :: ms)

/-! ## Openings and tags -/

theorem Opening.Like.closer_eq {o o' : Opening} (h : o.Like same o') : o.closer = o'.closer := by
  cases h <;> rfl

theorem Opening.Like.allowsElse_eq {o o' : Opening} (h : o.Like same o') :
    o.allowsElse = o'.allowsElse := by
  cases h <;> rfl

theorem Opening.Like.eq {o o' : Opening} (h : o.Like Eq o') : o = o' := by
  cases h with
  | helper name params h => rw [h]
  | _ => rfl

theorem Tag.Like.takesLine_eq {t t' : Tag} (h : t.Like same t') : t.takesLine = t'.takesLine := by
  cases h <;> rfl

theorem Tag.like_eq (t : Tag) : t.Like Eq t := by
  cases t with
  | opener o =>
    cases o with
    | keyword k param => exact .opener (.keyword k param)
    | helper name params named => exact .opener (.helper name params rfl)
    | region name => exact .opener (.region name)
    | override name => exact .opener (.override name)
  | comment => exact .comment
  | lookup path escape => exact .lookup path escape
  | literal l escape => exact .literal l escape
  | call name params named escape => exact .call name params escape rfl
  | inclusion name context => exact .inclusion name context
  | otherwise => exact .otherwise
  | closer name => exact .closer name

theorem Opening.node_ne_text (o : Opening) (body : List Node) (inverse : Option (List Node))
    (s : String) : o.node body inverse ≠ .text s := by
  cases o <;> simp [Opening.node]

/-! ## Nodes -/

namespace Node.Like

variable {ns ms ns' ms' : List Node}

theorem eq (h : Like Eq ns ms) : ns = ms := by
  induction h with
  | nil => rfl
  | leaf _ _ _ ih => rw [ih]
  | call name params escape hnamed _ ih => rw [hnamed, ih]
  | block ho _ _ ihbody ih => rw [ho.eq, ihbody, ih]
  | blockElse ho _ _ _ ihbody ihother ih => rw [ho.eq, ihbody, ihother, ih]

theorem append (h : Like same ns ms) (h' : Like same ns' ms') :
    Like same (ns ++ ns') (ms ++ ms') := by
  induction h with
  | nil => exact h'
  | leaf hn hcall _ ih => exact .leaf hn hcall ih
  | call name params escape hnamed _ ih => exact .call name params escape hnamed ih
  | block ho hbody _ _ ih => exact .block ho hbody ih
  | blockElse ho hbody hother _ _ _ ih => exact .blockElse ho hbody hother ih

theorem text (s : String) (h : Like same ns ms) : Like same (.text s :: ns) (.text s :: ms) :=
  .leaf rfl (fun _ _ _ _ => by simp) h

theorem eq_nil_iff (h : Like same ns ms) : ns = [] ↔ ms = [] := by
  cases h <;> simp

/-- Text is added to alike nodes in the same place. -/
theorem addText (h : Like same ns ms) (s : String) :
    Like same (Node.addText ns s) (Node.addText ms s) := by
  induction h with
  | nil => exact .text s .nil
  | @leaf n ns ms hn hcall h ih =>
    -- Only where the node is the last one, and a text, does the added text join it.
    by_cases hns : ns = []
    · have hms := h.eq_nil_iff.1 hns
      subst hns hms
      by_cases htext : ∃ t, n = .text t
      · obtain ⟨t, rfl⟩ := htext
        exact .text (t ++ s) .nil
      · have hne : ∀ t, n ≠ .text t := fun t heq => htext ⟨t, heq⟩
        rw [addText_cons_of_ne_text hne]
        exact .leaf hn hcall ih
    · have hms := fun hms => hns (h.eq_nil_iff.2 hms)
      rw [addText_cons hns, addText_cons hms]
      exact .leaf hn hcall ih
  | call name params escape hnamed _ ih =>
    rw [addText_cons_of_ne_text (by simp), addText_cons_of_ne_text (by simp)]
    exact .call name params escape hnamed ih
  | block ho hbody _ _ ih =>
    rw [addText_cons_of_ne_text (Opening.node_ne_text _ _ _),
      addText_cons_of_ne_text (Opening.node_ne_text _ _ _)]
    exact .block ho hbody ih
  | blockElse ho hbody hother _ _ _ ih =>
    rw [addText_cons_of_ne_text (Opening.node_ne_text _ _ _),
      addText_cons_of_ne_text (Opening.node_ne_text _ _ _)]
    exact .blockElse ho hbody hother ih

end Node.Like

/-- Alike tags that are parts of their own stand for alike nodes. -/
theorem Tag.Like.leaf {t t' : Tag} (h : t.Like same t') {n : Node} (hn : t.leaf? = some n) :
    ∃ m, t'.leaf? = some m ∧ Node.Like same [n] [m] := by
  cases h with
  | call name params escape hnamed =>
    cases hn
    exact ⟨_, rfl, .call name params escape hnamed .nil⟩
  | lookup | inclusion =>
    cases hn
    exact ⟨_, rfl, .leaf rfl (by simp) .nil⟩
  | comment | literal | opener | otherwise | closer => cases hn

/-! ## Derivations -/

theorem Piece.Like.paired {p q : Piece} (h : p.Like same q) : p.Paired Eq (Tag.Like same) q := by
  cases h with
  | text chars => exact .text rfl
  | tag htag => exact .tag htag

/-- Being alike is kept by every rule of the block grammar. -/
theorem Node.Like.pairing : Pairing Eq (Tag.Like same) (Node.Like same) where
  nil := .nil
  text h hnodes := by
    rw [h]
    exact hnodes.addText _
  comment h := by
    cases h
    rfl
  literal h := by
    cases h
    exact ⟨_, _, rfl, fun ns ms hnodes => hnodes.addText _⟩
  leaf h hn := by
    obtain ⟨m, hm, hleaf⟩ := h.leaf hn
    exact ⟨m, hm, fun ns ms hnodes => hnodes.append hleaf⟩
  otherwise h := by
    cases h
    rfl
  closer h := by
    cases h
    rfl
  opener h := by
    cases h with
    | opener ho =>
      refine ⟨_, rfl, ho.closer_eq, ho.allowsElse_eq, ?_⟩
      intro ns ms body body' hnodes hbodies
      exact ⟨hnodes.append (.block ho hbodies .nil),
        fun other other' hothers => hnodes.append (.blockElse ho hbodies hothers .nil)⟩

/-- **Alike pieces derive alike nodes.** -/
theorem Derives.like {ps : List Piece} {ns : List Node} (h : Derives ps ns) {qs : List Piece}
    (hlike : List.Forall₂ (Piece.Like same) ps qs) :
    ∃ ms, Derives qs ms ∧ Node.Like same ns ms :=
  h.paired Node.Like.pairing (hlike.imp fun _ _ hpiece => hpiece.paired)

end Stencil
