import Stencil.Syntax.Outline
import Stencil.Proofs.Layout

/-!
# The block grammar

`Outline` reads pieces with a stack of open blocks. Here the nesting is said without a stack, as
a grammar over the pieces of a text:

> `Nodes ::= ε | Nodes text | Nodes expression | Nodes include | Nodes comment | Nodes Block`
> `Block ::= open(n) Nodes close(n) | open(n) Nodes else Nodes close(n)`

where only a block that is neither a region nor an override may have an `else`.
`Derives pieces nodes` is a derivation of the pieces together with the nodes it stands for: a
block's node holds the nodes of the derivations between its tags, and a second body exactly when
the derivation has an `else`.

The two directions meet in `parse_eq_ok_iff`:

> `takeAll_of_derives`: the stack follows every derivation, above whatever blocks are open.
> `take_reads`: what the stack holds is always a derivation cut off at the open blocks
> (`Reads`), and one more piece keeps it so.
-/

namespace Stencil

/-- The node of a tag that is a part of its own, without a closer. -/
def Tag.leaf? : Tag → Option Node
  | lookup path escape => some (.lookup path escape)
  | call name params named escape => some (.call name params named escape)
  | inclusion name context => some (.inclusion name context)
  | comment | literal .. | opener _ | otherwise | closer _ => none

/-- The block grammar: these pieces derive from `Nodes`, and the derivation stands for these
nodes. -/
inductive Derives : List Piece → List Node → Prop where
  | nil : Derives [] []
  | text {pieces nodes} (chars : List Char) (h : Derives pieces nodes) :
      Derives (pieces ++ [.text chars]) (Node.addText nodes (String.ofList chars))
  | literal {pieces nodes} {placed : PlacedTag} {l : Literal} {escape : Bool}
      (htag : placed.tag = .literal l escape) (h : Derives pieces nodes) :
      Derives (pieces ++ [.tag placed]) (Node.addText nodes (Outline.literalText l escape))
  | comment {pieces nodes} {placed : PlacedTag} (htag : placed.tag = .comment)
      (h : Derives pieces nodes) : Derives (pieces ++ [.tag placed]) nodes
  | leaf {pieces nodes} {placed : PlacedTag} {n : Node} (htag : placed.tag.leaf? = some n)
      (h : Derives pieces nodes) : Derives (pieces ++ [.tag placed]) (nodes ++ [n])
  | block {pieces nodes inner body} {opener closer : PlacedTag} {o : Opening}
      (hopen : opener.tag = .opener o) (hclose : closer.tag = .closer o.closer)
      (h : Derives pieces nodes) (hbody : Derives inner body) :
      Derives (pieces ++ (.tag opener :: inner ++ [.tag closer])) (nodes ++ [o.node body none])
  | blockElse {pieces nodes inner body other inverse} {opener turn closer : PlacedTag}
      {o : Opening} (hopen : opener.tag = .opener o) (hturn : turn.tag = .otherwise)
      (hclose : closer.tag = .closer o.closer) (hallows : o.allowsElse = true)
      (h : Derives pieces nodes) (hbody : Derives inner body) (hother : Derives other inverse) :
      Derives (pieces ++ (.tag opener :: inner ++ .tag turn :: other ++ [.tag closer]))
        (nodes ++ [o.node body (some inverse)])

namespace Outline

/-! ## Every derivation is followed -/

/-- Reading goes on where it stood. -/
theorem takeAll_append {o o' : Outline} {ps : List Piece} (qs : List Piece)
    (h : o.takeAll ps = .ok o') : o.takeAll (ps ++ qs) = o'.takeAll qs := by
  induction ps generalizing o with
  | nil =>
    simp only [takeAll, Except.ok.injEq] at h
    rw [List.nil_append, h]
  | cons p ps ih =>
    rw [List.cons_append]
    simp only [takeAll] at h ⊢
    cases hp : o.take p with
    | error f => simp [hp] at h
    | ok o₁ =>
      rw [hp] at h
      exact ih h

theorem takeAll_cons {o o₁ : Outline} {p : Piece} (ps : List Piece) (h : o.take p = .ok o₁) :
    o.takeAll (p :: ps) = o₁.takeAll ps := by
  simp only [takeAll, h]

theorem takeAll_snoc {o o₁ o₂ : Outline} {ps : List Piece} {p : Piece}
    (h : o.takeAll ps = .ok o₁) (hp : o₁.take p = .ok o₂) : o.takeAll (ps ++ [p]) = .ok o₂ := by
  rw [takeAll_append [p] h, takeAll_cons [] hp, takeAll]

theorem take_leaf {o : Outline} {placed : PlacedTag} {n : Node}
    (h : placed.tag.leaf? = some n) : o.take (.tag placed) = .ok (o.add n) := by
  cases ht : placed.tag <;> simp_all [Tag.leaf?, take, takeTag]

theorem take_opener {o : Outline} {placed : PlacedTag} {opening : Opening}
    (h : placed.tag = .opener opening) :
    o.take (.tag placed) = .ok ⟨[], ⟨opening, placed.before, o.level, none⟩ :: o.blocks⟩ := by
  simp only [take, takeTag, h, enter]

theorem take_turn {level : List Node} {blocks : List OpenBlock} {b : OpenBlock}
    {placed : PlacedTag} (h : placed.tag = .otherwise) (hallows : b.opening.allowsElse = true)
    (hmain : b.main = none) :
    take ⟨level, b :: blocks⟩ (.tag placed)
      = .ok ⟨[], { b with main := some level } :: blocks⟩ := by
  simp [take, takeTag, h, turn, hallows, hmain]

theorem take_closer {level : List Node} {blocks : List OpenBlock} {b : OpenBlock}
    {placed : PlacedTag} (h : placed.tag = .closer b.opening.closer) :
    take ⟨level, b :: blocks⟩ (.tag placed)
      = .ok ⟨b.outer ++ [OpenBlock.finish b level], blocks⟩ := by
  simp [take, takeTag, h, leave]

/-- The stack follows every derivation: above whatever blocks are open, it reads the pieces and
holds exactly the derivation's nodes. -/
theorem takeAll_of_derives {pieces : List Piece} {nodes : List Node}
    (h : Derives pieces nodes) :
    ∀ blocks : List OpenBlock, takeAll ⟨[], blocks⟩ pieces = .ok ⟨nodes, blocks⟩ := by
  induction h with
  | nil => intro blocks; rfl
  | text chars _ ih =>
    intro blocks
    exact takeAll_snoc (ih blocks) rfl
  | literal htag _ ih =>
    intro blocks
    refine takeAll_snoc (ih blocks) ?_
    simp only [take, takeTag, htag, addText]
  | comment htag _ ih =>
    intro blocks
    refine takeAll_snoc (ih blocks) ?_
    simp only [take, takeTag, htag]
  | leaf htag _ ih =>
    intro blocks
    exact takeAll_snoc (ih blocks) (take_leaf htag)
  | @block _ nodes _ _ opener _ o hopen hclose _ _ ih ihbody =>
    intro blocks
    -- The body is read above one block more, which the closer takes off again.
    rw [takeAll_append _ (ih blocks), List.cons_append, takeAll_cons _ (take_opener hopen)]
    exact takeAll_snoc (ihbody (⟨o, opener.before, nodes, none⟩ :: blocks)) (take_closer hclose)
  | @blockElse _ nodes _ body _ _ opener _ _ o hopen hturn hclose hallows _ _ _ ih ihbody ihother =>
    intro blocks
    rw [takeAll_append _ (ih blocks), List.append_assoc, List.cons_append, List.cons_append,
      takeAll_cons _ (take_opener hopen),
      takeAll_append _ (ihbody (⟨o, opener.before, nodes, none⟩ :: blocks)),
      takeAll_cons _ (take_turn hturn hallows rfl)]
    exact takeAll_snoc (ihother (⟨o, opener.before, nodes, some body⟩ :: blocks))
      (take_closer hclose)

/-! ## What the stack holds is a derivation cut off at the open blocks -/

/-- The invariant of reading: the pieces read so far are derivations set inside each other. The
current level is the nodes of the innermost one; each open block adds its opener, and its `else`
once its main body is set aside, behind the derivation of the level around it. -/
inductive Reads : List Piece → Outline → Prop where
  | closed {pieces nodes} (h : Derives pieces nodes) : Reads pieces ⟨nodes, []⟩
  | inMain {pieces outer blocks inner level} {opener : PlacedTag} {o : Opening}
      (hopen : opener.tag = .opener o) (h : Reads pieces ⟨outer, blocks⟩)
      (hlevel : Derives inner level) :
      Reads (pieces ++ .tag opener :: inner) ⟨level, ⟨o, opener.before, outer, none⟩ :: blocks⟩
  | inOther {pieces outer blocks inner main other level} {opener turn : PlacedTag}
      {o : Opening} (hopen : opener.tag = .opener o) (hturn : turn.tag = .otherwise)
      (hallows : o.allowsElse = true) (h : Reads pieces ⟨outer, blocks⟩)
      (hmain : Derives inner main) (hlevel : Derives other level) :
      Reads (pieces ++ (.tag opener :: inner ++ .tag turn :: other))
        ⟨level, ⟨o, opener.before, outer, some main⟩ :: blocks⟩

/-- What extends every derivation of the current level extends what has been read. -/
theorem Reads.extend {ps qs : List Piece} {level level' : List Node} {blocks : List OpenBlock}
    (h : Reads ps ⟨level, blocks⟩)
    (hext : ∀ inner, Derives inner level → Derives (inner ++ qs) level') :
    Reads (ps ++ qs) ⟨level', blocks⟩ := by
  cases h with
  | closed h => exact .closed (hext _ h)
  | inMain hopen h hlevel =>
    rw [List.append_assoc, List.cons_append]
    exact .inMain hopen h (hext _ hlevel)
  | inOther hopen hturn hallows h hmain hlevel =>
    rw [List.append_assoc, List.append_assoc, List.cons_append]
    exact .inOther hopen hturn hallows h hmain (hext _ hlevel)

/-- A closer that is accepted completes the innermost block's derivation, which then extends the
level around it. -/
theorem Reads.leave {ps : List Piece} {o o' : Outline} {placed : PlacedTag} {name : String}
    (htag : placed.tag = .closer name) (h : Reads ps o) (hleave : o.leave name = .ok o') :
    Reads (ps ++ [.tag placed]) o' := by
  cases h with
  | closed h => simp [Outline.leave] at hleave
  | inMain hopen h hlevel =>
    simp only [Outline.leave, OpenBlock.finish] at hleave
    split at hleave
    next hname =>
      subst hname
      cases hleave
      rw [List.append_assoc]
      exact h.extend fun _ hinner => .block hopen htag hinner hlevel
    next => cases hleave
  | inOther hopen hturn hallows h hmain hlevel =>
    simp only [Outline.leave, OpenBlock.finish] at hleave
    split at hleave
    next hname =>
      subst hname
      cases hleave
      rw [List.append_assoc]
      exact h.extend fun _ hinner => .blockElse hopen hturn htag hallows hinner hmain hlevel
    next => cases hleave

/-- An `else` that is accepted sets the level aside as the main body of the innermost block. -/
theorem Reads.turn {ps : List Piece} {o o' : Outline} {placed : PlacedTag}
    (htag : placed.tag = .otherwise) (h : Reads ps o) (hturn : o.turn = .ok o') :
    Reads (ps ++ [.tag placed]) o' := by
  cases h with
  | closed h => simp [Outline.turn] at hturn
  | inMain hopen h hlevel =>
    simp only [Outline.turn] at hturn
    split at hturn
    next => cases hturn
    next hallows =>
      cases hturn
      rw [List.append_assoc]
      exact .inOther hopen htag (by simpa using hallows) h hlevel .nil
  | inOther hopen _ hallows h hmain hlevel => simp [Outline.turn, hallows] at hturn

/-- One more piece keeps the invariant. -/
theorem take_reads {ps : List Piece} {o o' : Outline} {p : Piece} (h : Reads ps o)
    (htake : o.take p = .ok o') : Reads (ps ++ [p]) o' := by
  obtain ⟨level, blocks⟩ := o
  cases p with
  | text chars =>
    cases htake
    exact h.extend fun _ hinner => .text chars hinner
  | tag placed =>
    simp only [take] at htake
    split at htake
    -- Only a tag that was taken in goes on; which rule of the grammar it follows is in its kind.
    next o₁ hplaced =>
      cases htake
      cases htag : placed.tag with
      | comment =>
        simp only [takeTag, htag] at hplaced
        cases hplaced
        exact h.extend fun _ hinner => .comment htag hinner
      | literal l escape =>
        simp only [takeTag, htag] at hplaced
        cases hplaced
        exact h.extend fun _ hinner => .literal htag hinner
      | lookup | call | inclusion =>
        simp only [takeTag, htag] at hplaced
        cases hplaced
        exact h.extend fun _ hinner => .leaf (by rw [htag]; rfl) hinner
      | opener opening =>
        simp only [takeTag, htag] at hplaced
        cases hplaced
        exact .inMain htag h .nil
      | otherwise =>
        simp only [takeTag, htag] at hplaced
        exact h.turn htag hplaced
      | closer name =>
        simp only [takeTag, htag] at hplaced
        exact h.leave htag hplaced
    next => cases htake

/-- Every run keeps the invariant. -/
theorem takeAll_reads {ps qs : List Piece} {o o' : Outline} (h : Reads ps o)
    (htake : o.takeAll qs = .ok o') : Reads (ps ++ qs) o' := by
  induction qs generalizing ps o with
  | nil =>
    cases htake
    rwa [List.append_nil]
  | cons q qs ih =>
    simp only [takeAll] at htake
    split at htake
    next => cases htake
    next o₁ hq =>
      have hps := ih (take_reads h hq) htake
      rwa [List.append_assoc] at hps

theorem reads_of_takeAll {pieces : List Piece} {o : Outline}
    (h : start.takeAll pieces = .ok o) : Reads pieces o := by
  have h := takeAll_reads (.closed .nil) h
  rwa [List.nil_append] at h

/-- With no block open, what has been read is a derivation of the current level. -/
theorem Reads.derives {pieces : List Piece} {o : Outline} (h : Reads pieces o)
    (hclosed : o.blocks = []) : Derives pieces o.level := by
  cases h with
  | closed h => exact h
  | inMain => cases hclosed
  | inOther => cases hclosed

end Outline

/-! ## Reading a template -/

/-- A scanned text stands for nodes when all its pieces are taken in, no tag is at fault, and no
block is left open. -/
theorem Scanned.takeAll_of_nodes {s : Scanned} {nodes : List Node} (h : s.nodes = .ok nodes) :
    ∃ o, Outline.start.takeAll s.pieces = .ok o ∧ s.fault = none ∧ o.blocks = [] ∧
      o.level = nodes := by
  unfold Scanned.nodes at h
  split at h
  next => cases h
  next o htake =>
    split at h
    next => cases h
    next hfault =>
      unfold Outline.finish at h
      split at h
      next hblocks =>
        cases h
        exact ⟨o, htake, hfault, hblocks, rfl⟩
      next => cases h

theorem Scanned.nodes_of_derives {pieces : List Piece} {nodes : List Node}
    (h : Derives pieces nodes) : (Scanned.mk pieces none).nodes = .ok nodes := by
  have htake : Outline.start.takeAll pieces = .ok ⟨nodes, []⟩ := Outline.takeAll_of_derives h []
  simp only [Scanned.nodes, htake, Outline.finish]

/-- A template that is read is laid out in pieces, and they derive from the grammar. -/
theorem derives_of_parse {text : String} {nodes : List Node} (h : parse text = .ok nodes) :
    ∃ pieces, Laid [] text.toList pieces ∧ Derives pieces nodes := by
  unfold parse at h
  split at h
  next nodes' hnodes =>
    cases h
    obtain ⟨o, htake, hfault, hblocks, hlevel⟩ := Scanned.takeAll_of_nodes hnodes
    refine ⟨(scan text.toList).pieces, scan_eq_iff.1 (by rw [← hfault]), ?_⟩
    rw [← hlevel]
    exact (Outline.reads_of_takeAll htake).derives hblocks
  next => cases h

/-- **The grammar of templates.** A text is read exactly when it is laid out in pieces, each of its
tags being one that can be read on its own, and the pieces derive from the block grammar; it then
stands for the nodes of the derivation. -/
theorem parse_eq_ok_iff (text : String) (nodes : List Node) :
    parse text = .ok nodes ↔
      ∃ pieces, Laid [] text.toList pieces ∧ Derives pieces nodes := by
  constructor
  · exact derives_of_parse
  · rintro ⟨pieces, hlaid, hderives⟩
    rw [parse, scan_eq_iff.2 hlaid, Scanned.nodes_of_derives hderives]

end Stencil
