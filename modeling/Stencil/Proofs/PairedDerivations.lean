import Stencil.Proofs.BlockGrammar
import Mathlib

/-!
# Two derivations side by side

Rows of pieces that correspond one by one are nested alike: if one of them derives from the block
grammar, then so does the other. What the nodes of the two derivations have to do with each other is
up to a relation that every way of adding to a derivation keeps (`Pairing`):

> `Derives.paired`: then the nodes of the two derivations are related.

Nothing is said of where the tags stand.
-/

namespace Stencil

/-- Pieces whose stretches of text, or whose tags, are related. -/
inductive Piece.Paired (X : List Char → List Char → Prop) (T : Tag → Tag → Prop) :
    Piece → Piece → Prop where
  | text {chars chars'} (h : X chars chars') : Paired X T (.text chars) (.text chars')
  | tag {placed placed' : PlacedTag} (h : T placed.tag placed'.tag) :
      Paired X T (.tag placed) (.tag placed')

/-- A relation of nodes that goes with relations of texts and of tags: each rule of the block grammar
keeps it, where related tags are of one kind, openers have one closer, and both or neither of them
allow an `else`. -/
structure Pairing (X : List Char → List Char → Prop) (T : Tag → Tag → Prop)
    (N : List Node → List Node → Prop) : Prop where
  nil : N [] []
  text {chars chars' ns ms} (h : X chars chars') (hnodes : N ns ms) :
    N (Node.addText ns (String.ofList chars)) (Node.addText ms (String.ofList chars'))
  comment {t} (h : T .comment t) : t = .comment
  literal {l escape t} (h : T (.literal l escape) t) :
    ∃ l' escape', t = .literal l' escape' ∧ ∀ ns ms, N ns ms →
      N (Node.addText ns (Outline.literalText l escape))
        (Node.addText ms (Outline.literalText l' escape'))
  leaf {t u n} (h : T t u) (hn : t.leaf? = some n) :
    ∃ m, u.leaf? = some m ∧ ∀ ns ms, N ns ms → N (ns ++ [n]) (ms ++ [m])
  otherwise {t} (h : T .otherwise t) : t = .otherwise
  closer {name t} (h : T (.closer name) t) : t = .closer name
  opener {o t} (h : T (.opener o) t) :
    ∃ o', t = .opener o' ∧ o.closer = o'.closer ∧ o.allowsElse = o'.allowsElse ∧
      ∀ ns ms body body', N ns ms → N body body' →
        N (ns ++ [o.node body none]) (ms ++ [o'.node body' none]) ∧
          ∀ other other', N other other' →
            N (ns ++ [o.node body (some other)]) (ms ++ [o'.node body' (some other')])

variable {X : List Char → List Char → Prop} {T : Tag → Tag → Prop}
  {N : List Node → List Node → Prop}

/-! ## Rows that correspond, taken apart -/

theorem forall₂_append_left {α β : Type} {R : α → β → Prop} {a b : List α} {l : List β}
    (h : List.Forall₂ R (a ++ b) l) :
    ∃ c d, l = c ++ d ∧ List.Forall₂ R a c ∧ List.Forall₂ R b d := by
  induction a generalizing l with
  | nil => exact ⟨[], l, rfl, .nil, h⟩
  | cons x a ih =>
    cases h with
    | cons hxy h =>
      obtain ⟨c, d, rfl, ha, hb⟩ := ih h
      exact ⟨_ :: c, d, rfl, .cons hxy ha, hb⟩

/-- A tag at the end of a row. -/
theorem forall₂_snoc_tag {ps qs : List Piece} {placed : PlacedTag}
    (h : List.Forall₂ (Piece.Paired X T) (ps ++ [.tag placed]) qs) :
    ∃ rs placed', qs = rs ++ [.tag placed'] ∧ List.Forall₂ (Piece.Paired X T) ps rs ∧
      T placed.tag placed'.tag := by
  obtain ⟨rs, last, rfl, hps, hlast⟩ := forall₂_append_left h
  cases hlast with
  | cons hpiece hnil =>
    cases hnil
    cases hpiece with
    | tag htag => exact ⟨rs, _, rfl, hps, htag⟩

/-- A tag in front of a row. -/
theorem forall₂_cons_tag {ps qs : List Piece} {placed : PlacedTag}
    (h : List.Forall₂ (Piece.Paired X T) (.tag placed :: ps) qs) :
    ∃ rs placed', qs = .tag placed' :: rs ∧ List.Forall₂ (Piece.Paired X T) ps rs ∧
      T placed.tag placed'.tag := by
  cases h with
  | cons hpiece hps =>
    cases hpiece with
    | tag htag => exact ⟨_, _, rfl, hps, htag⟩

/-! ## The derivations -/

/-- **Of pieces that correspond, both rows derive or neither, and the nodes are related.** -/
theorem Derives.paired (hN : Pairing X T N) {ps : List Piece} {ns : List Node} (h : Derives ps ns)
    {qs : List Piece} (hpieces : List.Forall₂ (Piece.Paired X T) ps qs) :
    ∃ ms, Derives qs ms ∧ N ns ms := by
  induction h generalizing qs with
  | nil =>
    cases hpieces
    exact ⟨[], .nil, hN.nil⟩
  | text chars _ ih =>
    obtain ⟨rs, last, rfl, hps, hlast⟩ := forall₂_append_left hpieces
    cases hlast with
    | cons hpiece hnil =>
      cases hnil
      cases hpiece with
      | @text _ chars' hchars =>
        obtain ⟨ms, hms, hnodes⟩ := ih hps
        exact ⟨_, .text chars' hms, hN.text hchars hnodes⟩
  | literal htag _ ih =>
    obtain ⟨rs, placed', rfl, hps, htags⟩ := forall₂_snoc_tag hpieces
    obtain ⟨ms, hms, hnodes⟩ := ih hps
    rw [htag] at htags
    obtain ⟨l', escape', htag', hadd⟩ := hN.literal htags
    exact ⟨_, .literal htag' hms, hadd _ _ hnodes⟩
  | comment htag _ ih =>
    obtain ⟨rs, placed', rfl, hps, htags⟩ := forall₂_snoc_tag hpieces
    obtain ⟨ms, hms, hnodes⟩ := ih hps
    rw [htag] at htags
    exact ⟨_, .comment (hN.comment htags) hms, hnodes⟩
  | leaf htag _ ih =>
    obtain ⟨rs, placed', rfl, hps, htags⟩ := forall₂_snoc_tag hpieces
    obtain ⟨ms, hms, hnodes⟩ := ih hps
    obtain ⟨m, hm, hadd⟩ := hN.leaf htags htag
    exact ⟨_, .leaf hm hms, hadd _ _ hnodes⟩
  | block hopen hclose _ _ ih ihbody =>
    -- The other row is taken apart at the same places, and its two tags go together because related
    -- openers have one closer.
    obtain ⟨rs, more, rfl, hps, hmore⟩ := forall₂_append_left hpieces
    rw [List.cons_append] at hmore
    obtain ⟨more, opener, rfl, hmore, hopener⟩ := forall₂_cons_tag hmore
    obtain ⟨inner, closer, rfl, hinner, hcloser⟩ := forall₂_snoc_tag hmore
    obtain ⟨ms, hms, hnodes⟩ := ih hps
    obtain ⟨body, hbody, hbodies⟩ := ihbody hinner
    rw [hopen] at hopener
    rw [hclose] at hcloser
    obtain ⟨o', hopen', hname, -, hadd⟩ := hN.opener hopener
    have hclose' := hN.closer hcloser
    rw [hname] at hclose'
    have hderives := Derives.block hopen' hclose' hms hbody
    rw [List.cons_append] at hderives
    exact ⟨_, hderives, (hadd _ _ _ _ hnodes hbodies).1⟩
  | blockElse hopen hturn hclose hallows _ _ _ ih ihbody ihother =>
    obtain ⟨rs, more, rfl, hps, hmore⟩ := forall₂_append_left hpieces
    obtain ⟨more, closer, rfl, hmore, hcloser⟩ := forall₂_snoc_tag hmore
    rw [List.cons_append] at hmore
    obtain ⟨more, opener, rfl, hmore, hopener⟩ := forall₂_cons_tag hmore
    obtain ⟨inner, more, rfl, hinner, hmore⟩ := forall₂_append_left hmore
    obtain ⟨others, turn, rfl, hothers, hturner⟩ := forall₂_cons_tag hmore
    obtain ⟨ms, hms, hnodes⟩ := ih hps
    obtain ⟨body, hbody, hbodies⟩ := ihbody hinner
    obtain ⟨inverse, hinverse, hinverses⟩ := ihother hothers
    rw [hopen] at hopener
    rw [hturn] at hturner
    rw [hclose] at hcloser
    obtain ⟨o', hopen', hname, helse, hadd⟩ := hN.opener hopener
    have hturn' := hN.otherwise hturner
    have hclose' := hN.closer hcloser
    rw [hname] at hclose'
    rw [helse] at hallows
    have hderives := Derives.blockElse hopen' hturn' hclose' hallows hms hbody hinverse
    exact ⟨_, hderives, (hadd _ _ _ _ hnodes hbodies).2 _ _ hinverses⟩

end Stencil
