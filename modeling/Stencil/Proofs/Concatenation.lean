import Stencil.Proofs.MovedTags
import Stencil.Proofs.Accounts
import Stencil.Proofs.SourceText
import Mathlib

/-!
# Templates behind one another

A tag looks at the text around it: back to the start of its line, and ahead to the end of it. So
a template that ends with a line break can be continued by any other one without either being
read differently, and what the two stand for is put in a row:

> `Laid.append`: the layouts of the two texts, one behind the other, are a layout of the whole; a
> stretch of text at the seam is one piece.
> `Derives.append`: the nodes of the two derivations in a row are those of the pieces in a row;
> a text at the seam is one node.
> `parse_append`: so the nodes of the whole are those of the two parts, and they render to the
> text of the first part and that of the second, with the overrides of the first part in force.
-/

namespace Stencil

/-! ## The seam of two texts -/

/-- Nothing, or a text that ends with a line break. -/
def EndsLine (text : List Char) : Prop := text = [] ∨ ∃ a, text = a ++ ['\n']

theorem EndsLine.of_append {a b : List Char} (h : EndsLine (a ++ b)) : EndsLine b := by
  rcases h with h | ⟨front, h⟩
  · exact .inl (List.append_eq_nil_iff.1 h).2
  · rcases List.eq_nil_or_concat b with rfl | ⟨b', c, rfl⟩
    · exact .inl rfl
    · rw [List.concat_eq_append, ← List.append_assoc] at h
      obtain ⟨-, hc⟩ := List.append_inj' h rfl
      exact .inr ⟨b', by rw [List.concat_eq_append, hc]⟩

/-- A tag does not end a line, so in a text that does something follows it in its line. -/
theorem EndsLine.behind_tag {c : Cut} {rest : List Char} (h : EndsLine (c.text ++ rest)) :
    '\n' ∈ rest := by
  obtain ⟨t, ht⟩ := cut_text_ends c
  rcases h.of_append with rfl | ⟨a, rfl⟩
  · rw [List.append_nil, ht] at h
    rcases h with h | ⟨a, h⟩
    · exact absurd (List.append_eq_nil_iff.1 h).2 (by simp)
    · obtain ⟨-, hlast⟩ := List.append_inj' h rfl
      cases hlast
  · simp

theorem splitLine_append {line : List Char} (h : '\n' ∈ line) (more : List Char) :
    (splitLine (line ++ more)).1 = (splitLine line).1 := by
  induction line with
  | nil => cases h
  | cons c rest ih =>
    by_cases hc : c = '\n'
    · simp [splitLine, hc]
    · have hrest : '\n' ∈ rest := (List.mem_cons.1 h).resolve_left (Ne.symm hc)
      simp [splitLine, hc, ih hrest]

theorem sameEnd_append {line : List Char} (h : '\n' ∈ line) (more : List Char) :
    SameEnd line (line ++ more) := by
  have hline := (splitLine_append h more).symm
  exact ⟨by rw [hline], fun _ => hline⟩

/-- What stands before the line of a place is not seen from it. -/
theorem sameStart_nil {base : List Char} (h : EndsLine base.reverse) : SameStart [] base := by
  have hbase : lineStart base = [] := by
    rcases h with h | ⟨a, h⟩
    · rw [List.reverse_eq_nil_iff.1 h]
      rfl
    · rw [← List.reverse_reverse base, h, List.reverse_append]
      rfl
  have hnil : lineStart [] = lineStart base := hbase.symm
  exact ⟨by rw [hnil], fun _ => hnil⟩

/-- A stretch of text in a text that ends a line is plain whatever follows the line. -/
theorem plain_append {chars rest : List Char} (h : Plain chars rest)
    (hends : EndsLine (chars ++ rest))
    (more : List Char) : Plain chars (rest ++ more) := by
  intro a b hab hb hprefix
  have hseam : EndsLine (b ++ rest) := by
    rw [hab, List.append_assoc] at hends
    exact hends.of_append
  rw [← List.append_assoc] at hprefix
  by_cases hlength : 2 ≤ (b ++ rest).length
  · exact h a b hab hb (List.prefix_of_prefix_length_le hprefix (List.prefix_append _ _) hlength)
  · -- Only the line break is left, and it is no brace.
    obtain ⟨c, rest', hb'⟩ := List.exists_cons_of_ne_nil hb
    rcases hseam with hnil | ⟨front, hfront⟩
    · exact hb (List.append_eq_nil_iff.1 hnil).1
    · have hone : front = [] := by
        rw [hfront, List.length_append, List.length_singleton] at hlength
        exact List.length_eq_zero_iff.1 (by omega)
      rw [hfront, hone] at hprefix
      obtain ⟨t, ht⟩ := hprefix
      cases (List.cons.inj ht).1

/-- Two stretches of text in a row. -/
theorem plain_join {a b rest : List Char} (ha : Plain a (b ++ rest)) (hb : Plain b rest) :
    Plain (a ++ b) rest := by
  intro x y hxy hy
  rcases List.append_eq_append_iff.1 hxy with ⟨z, rfl, rfl⟩ | ⟨z, rfl, rfl⟩
  · exact hb z y rfl hy
  · by_cases hz : z = []
    · subst hz
      exact hb [] b rfl (by simpa using hy)
    · rw [List.append_assoc]
      exact ha x z rfl hz

/-! ## Layouts in a row -/

theorem fits_append {placed : PlacedTag} {before after : List Char} (h : placed.Fits before after)
    (hline : '\n' ∈ placed.lineEnd ++ after) (more : List Char) :
    placed.Fits before (after ++ more) := by
  have hplace : { placed with before := placed.indent.reverse ++ before } = placed := by
    rw [← h.place]
  have hmoved : PlacedTag.Fits { placed with before := placed.indent.reverse ++ before } before
      (after ++ more) := by
    refine h.move ?_ ?_
    · rw [h.place]
      exact .refl _
    · rw [← List.append_assoc]
      exact sameEnd_append hline more
  rwa [hplace] at hmoved

/-- Pieces in a row; a stretch of text at the seam is one piece. -/
def Piece.join : List Piece → List Piece → List Piece
  | [.text a], .text b :: qs => .text (a ++ b) :: qs
  | [], qs => qs
  | p :: ps, qs => p :: join ps qs

namespace Piece

theorem join_nil (qs : List Piece) : join [] qs = qs := by
  rw [join]

theorem join_texts (a b : List Char) (qs : List Piece) :
    join [.text a] (.text b :: qs) = .text (a ++ b) :: qs := by
  rw [join]

/-- Where no two stretches of text meet, nothing is joined. -/
theorem join_cons {p : Piece} {ps qs : List Piece}
    (h : ps ≠ [] ∨ startsText qs = false ∨ startsText [p] = false) :
    join (p :: ps) qs = p :: join ps qs := by
  rw [join]
  rintro a b qs' rfl rfl rfl
  rcases h with h | h | h
  · exact h rfl
  · cases h
  · cases h

theorem startsText_join {ps qs : List Piece} (h : ps ≠ []) :
    startsText (join ps qs) = startsText ps := by
  fun_induction join ps qs with
  | case1 a b qs => rfl
  | case2 qs => exact absurd rfl h
  | case3 p ps qs _ ih => cases p <;> rfl

end Piece

/-- **Layouts in a row.** Behind a text that ends a line any other text is laid out as it is, and
the text before it stays laid out as it was. -/
theorem Laid.append {before front rest : List Char} {ps qs : List Piece}
    (h : Laid before front ps) (hends : EndsLine front)
    (hrest : Laid (front.reverse ++ before) rest qs) :
    Laid before (front ++ rest) (Piece.join ps qs) := by
  induction h with
  | done => rwa [Piece.join_nil]
  | @text before chars front pieces hne hplain hmax hlaid ih =>
    have hends' : EndsLine front := hends.of_append
    rw [List.reverse_append, List.append_assoc] at hrest
    have hwhole := ih hends' hrest
    have hplain' : Plain chars (front ++ rest) := plain_append hplain hends rest
    rw [List.append_assoc]
    by_cases hpieces : pieces = []
    · -- The stretch of text goes up to the seam.
      subst hpieces
      have hfront : front = [] := by
        rw [← laid_source hlaid]
        rfl
      subst hfront
      rw [List.nil_append] at hplain' hwhole ⊢
      rw [Piece.join_nil] at hwhole
      cases hwhole with
      | done =>
        rw [Piece.join_cons (.inr (.inl rfl)), Piece.join_nil]
        exact .text hne hplain' rfl .done
      | @text _ more rest' qs' hne' hplain'' hmax' hlaid' =>
        rw [Piece.join_texts, ← List.append_assoc]
        refine .text (by simp [hne]) (plain_join hplain' hplain'') hmax' ?_
        rwa [List.reverse_append, List.append_assoc]
      | tag hfits' hlaid' =>
        rw [Piece.join_cons (.inr (.inl rfl)), Piece.join_nil]
        exact .text hne hplain' rfl (.tag hfits' hlaid')
    · rw [Piece.join_cons (.inl hpieces)]
      refine .text hne hplain' ?_ hwhole
      rw [Piece.startsText_join hpieces, hmax]
  | @tag before front pieces placed hfits hlaid ih =>
    obtain ⟨inner, c, -, -, htext, -⟩ := hfits.reads
    have hends' : EndsLine (c.text ++ (placed.lineEnd ++ front)) := by
      rw [htext]
      exact hends.of_append
    rw [Piece.join_cons (.inr (.inr rfl))]
    simp only [List.append_assoc]
    refine .tag (fits_append hfits hends'.behind_tag rest) (ih hends'.of_append.of_append ?_)
    simpa only [List.reverse_append, List.append_assoc, hfits.place] using hrest

/-! ## Nodes in a row -/

namespace Node

/-- Nodes in a row; a text at the seam is one node. -/
def join (ns : List Node) : List Node → List Node
  | .text s :: rest => addText ns s ++ rest
  | ms => ns ++ ms

theorem join_nil (ns : List Node) : join ns [] = ns := List.append_nil ns

theorem join_text (ns : List Node) (s : String) (rest : List Node) :
    join ns (.text s :: rest) = addText ns s ++ rest := rfl

theorem join_cons {n : Node} (h : ∀ s, n ≠ .text s) (ns rest : List Node) :
    join ns (n :: rest) = ns ++ n :: rest := by
  cases n with
  | text s => exact absurd rfl (h s)
  | _ => rfl

theorem join_addText (ns ms : List Node) (s : String) :
    join ns (addText ms s) = addText (join ns ms) s := by
  cases ms with
  | nil => rw [addText, join_text, join_nil, List.append_nil]
  | cons m ms =>
    by_cases hm : ∃ t, m = .text t
    · obtain ⟨t, rfl⟩ := hm
      by_cases hms : ms = []
      · subst hms
        rw [addText, join_text, join_text, List.append_nil, List.append_nil, addText_addText]
      · rw [addText_cons hms, join_text, join_text, addText_append hms]
    · have hm' : ∀ t, m ≠ .text t := fun t heq => hm ⟨t, heq⟩
      have hstill : ∃ more, addText (m :: ms) s = m :: more := by
        rw [addText]
        · exact ⟨_, rfl⟩
        · intro t heq
          exact absurd heq (hm' t)
      obtain ⟨more, hmore⟩ := hstill
      rw [join_cons hm', addText_append (List.cons_ne_nil m ms), hmore, join_cons hm']

theorem join_snoc {n : Node} (h : ∀ s, n ≠ .text s) (ns ms : List Node) :
    join ns (ms ++ [n]) = join ns ms ++ [n] := by
  cases ms with
  | nil => rw [List.nil_append, join_cons h, join_nil]
  | cons m ms =>
    rw [List.cons_append]
    by_cases hm : ∃ t, m = .text t
    · obtain ⟨t, rfl⟩ := hm
      rw [join_text, join_text, List.append_assoc]
    · have hm' : ∀ t, m ≠ .text t := fun t heq => hm ⟨t, heq⟩
      rw [join_cons hm', join_cons hm', List.append_assoc, List.cons_append]

end Node

theorem leaf_ne_text {t : Tag} {n : Node} (h : t.leaf? = some n) (s : String) : n ≠ .text s := by
  rintro rfl
  cases t <;> cases h

/-- **Derivations in a row.** The nodes of the pieces in a row are the nodes of the two rows of
pieces. -/
theorem Derives.append {ps qs : List Piece} {ns ms : List Node} (h : Derives ps ns)
    (h' : Derives qs ms) : Derives (ps ++ qs) (Node.join ns ms) := by
  induction h' with
  | nil =>
    rw [List.append_nil, Node.join_nil]
    exact h
  | text chars _ ih =>
    rw [← List.append_assoc, Node.join_addText]
    exact .text chars ih
  | literal htag _ ih =>
    rw [← List.append_assoc, Node.join_addText]
    exact .literal htag ih
  | comment htag _ ih =>
    rw [← List.append_assoc]
    exact .comment htag ih
  | leaf htag _ ih =>
    rw [← List.append_assoc, Node.join_snoc (leaf_ne_text htag)]
    exact .leaf htag ih
  | block hopen hclose _ hbody ih _ =>
    rw [← List.append_assoc, Node.join_snoc (Opening.node_ne_text _ _ _)]
    exact .block hopen hclose ih hbody
  | blockElse hopen hturn hclose hallows _ hbody hother ih _ _ =>
    rw [← List.append_assoc, Node.join_snoc (Opening.node_ne_text _ _ _)]
    exact .blockElse hopen hturn hclose hallows ih hbody hother

/-! ## Reading and rendering the whole -/

namespace Outline

/-- A stretch of text is read like its two parts. -/
theorem takeAll_join (o : Outline) (ps qs : List Piece) :
    o.takeAll (Piece.join ps qs) = o.takeAll (ps ++ qs) := by
  fun_induction Piece.join ps qs generalizing o with
  | case1 a b qs =>
    rw [List.singleton_append, takeAll_cons _ rfl, takeAll_cons _ rfl, takeAll_cons _ rfl]
    have hlevel : (o.addText (String.ofList a)).addText (String.ofList b) =
        o.addText (String.ofList (a ++ b)) := by
      unfold addText
      rw [Node.addText_addText, ← String.ofList_append]
    rw [hlevel]
  | case2 qs => rfl
  | case3 p ps qs _ ih =>
    rw [List.cons_append, takeAll, takeAll]
    split
    next => rfl
    next o' _ => exact ih o'

end Outline

/-- A text whose pieces are taken in without leaving a block open is read. -/
theorem parse_of_takeAll {text : String} {pieces : List Piece} {nodes : List Node}
    (hlaid : Laid [] text.toList pieces)
    (htake : Outline.start.takeAll pieces = .ok ⟨nodes, []⟩) : parse text = .ok nodes := by
  rw [parse, scan_eq_iff.2 hlaid]
  simp only [Scanned.nodes, htake, Outline.finish]

namespace Step

/-- Two texts one behind the other. -/
def append (s t : Step String) : Step String :=
  bind s fun a => bind t fun b => pure (a ++ b)

theorem append_assoc (s t u : Step String) :
    append (append s t) u = append s (append t u) := by
  simp only [append, bind_assoc, pure_bind, String.append_assoc]

theorem append_pure (a b : String) : append (pure a) (pure b) = pure (a ++ b) := by
  simp only [append, pure_bind]

end Step

section

variable (setting : Setting) (expand : Expand) (scopes : Scopes)

theorem renderNodes_cons (n : Node) (rest : List Node) :
    renderNodes setting expand (n :: rest) scopes =
      Step.append (renderNode setting expand n scopes) (renderNodes setting expand rest scopes) := by
  rw [renderNodes]
  rfl

theorem renderNodes_addText (ns : List Node) (s : String) :
    renderNodes setting expand (Node.addText ns s) scopes =
      Step.append (renderNodes setting expand ns scopes) (Step.pure s) := by
  fun_induction Node.addText ns s with
  | case1 s =>
    rw [renderNodes_singleton, renderNode, renderNodes, Step.append_pure, String.empty_append]
  | case2 t s =>
    rw [renderNodes_singleton, renderNodes_singleton, renderNode, renderNode, Step.append_pure]
  | case3 n rest s _ ih => rw [renderNodes_cons, ih, renderNodes_cons, Step.append_assoc]

/-- Nodes in a row render to texts in a row, whether or not texts meet. -/
theorem renderNodes_join (ns ms : List Node) :
    renderNodes setting expand (Node.join ns ms) scopes =
      Step.append (renderNodes setting expand ns scopes)
        (renderNodes setting expand ms scopes) := by
  by_cases htext : ∃ s rest, ms = .text s :: rest
  · obtain ⟨s, rest, rfl⟩ := htext
    rw [Node.join_text, renderNodes_append, renderNodes_addText, renderNodes_cons, renderNode]
    exact Step.append_assoc ..
  · have hjoin : Node.join ns ms = ns ++ ms := by
      cases ms with
      | nil => rfl
      | cons m ms => exact Node.join_cons (fun s heq => htext ⟨s, ms, by rw [heq]⟩) ns ms
    rw [hjoin, renderNodes_append]
    rfl

theorem expand_join (budget : Nat) (ns ms : List Node) :
    setting.expand budget (Node.join ns ms) scopes =
      Step.append (setting.expand budget ns scopes) (setting.expand budget ms scopes) := by
  cases budget with
  | zero => rfl
  | succ budget => exact renderNodes_join setting (setting.expand budget) scopes ns ms

end

/-- When a render from the start ends, no include is open, and the overrides in force are the last
ones that were come to. -/
theorem progress_at_end {setting : Setting} {budget : Nat} {nodes : List Node} {scopes : Scopes}
    {shelf : Shelf} {r : Except Fault String} {p : Progress}
    (h : setting.expand budget nodes scopes (.start shelf) = some (r, p)) :
    p.openIncludes = 0 ∧ ∀ name, p.overrides.get? name =
      lastOverride name (setting.visits budget nodes scopes (.start shelf)) := by
  have hends := (tour_accounts setting 0 budget nodes scopes []).ends (.start shelf)
    ⟨rfl, fun h => absurd rfl h⟩ r p ((congrFun (tour_step ..) _).trans h)
  refine ⟨hends.1.count, fun name => ?_⟩
  rw [hends.2, get?_declared]
  exact Option.or_none

/-- **Templates behind one another.** A template that is empty or ends with a line break can be
continued by any other one. The whole is read as the nodes of the first template and those of the
second, where two texts that meet are one node. It renders as the first one does, unless that
gives a text; then it gives this text and that of the second template, which is rendered with the
overrides that the first one has declared. -/
theorem parse_append {t₁ t₂ : String} {ns ms : List Node} (h₁ : parse t₁ = .ok ns)
    (h₂ : parse t₂ = .ok ms) (hends : t₁ = "" ∨ ∃ a, t₁ = a ++ "\n") :
    parse (t₁ ++ t₂) = .ok (Node.join ns ms) ∧
      ∀ (setting : Setting) (scopes : Scopes) (shelf : Shelf),
        (setting.render (Node.join ns ms) scopes shelf =
          match setting.expand expansionBudget ns scopes (.start shelf) with
          | none => none
          | some (.error e, p) => some (.error e, p.shelf)
          | some (.ok s, p) =>
            (setting.expand expansionBudget ms scopes ⟨p.overrides, 0, p.shelf⟩).map fun (r, q) =>
              (r.map (s ++ ·), q.shelf)) ∧
        ∀ s p, setting.expand expansionBudget ns scopes (.start shelf) = some (.ok s, p) →
          ∀ name, p.overrides.get? name =
            lastOverride name (setting.visits expansionBudget ns scopes (.start shelf)) := by
  have hline : EndsLine t₁.toList := by
    rcases hends with rfl | ⟨a, rfl⟩
    · exact .inl rfl
    · exact .inr ⟨a.toList, String.toList_append ..⟩
  obtain ⟨ps, hlaid₁, hderives₁⟩ := derives_of_parse h₁
  obtain ⟨qs, hlaid₂, hderives₂⟩ := derives_of_parse h₂
  constructor
  · -- Behind a line break the second text is laid out as at the very start.
    have hstart : SameStart [] (t₁.toList.reverse ++ []) := by
      rw [List.append_nil]
      exact sameStart_nil (by rwa [List.reverse_reverse])
    obtain ⟨rs, hrs, hlike⟩ := hlaid₂.rebase hstart
    obtain ⟨ms', hderives, hnodes⟩ := hderives₂.like hlike
    have hlaid := hlaid₁.append hline hrs
    rw [← String.toList_append] at hlaid
    refine parse_of_takeAll hlaid ?_
    rw [Outline.takeAll_join, hnodes.eq]
    exact Outline.takeAll_of_derives (hderives₁.append hderives) []
  · intro setting scopes shelf
    refine ⟨?_, fun s p h => (progress_at_end h).2⟩
    rw [render_eq, expand_join]
    unfold Step.append Step.bind Step.pure
    cases hfirst : setting.expand expansionBudget ns scopes (.start shelf) with
    | none => rfl
    | some ended =>
      obtain ⟨r, p⟩ := ended
      cases r with
      | error e => rfl
      | ok s =>
        have hopen : p = ⟨p.overrides, 0, p.shelf⟩ := by
          rw [← (progress_at_end hfirst).1]
        dsimp only
        rw [← hopen]
        cases setting.expand expansionBudget ms scopes p with
        | none => rfl
        | some ended =>
          obtain ⟨_ | _, _⟩ := ended
          all_goals rfl

/-- An override, and behind it the region that it replaces; the two texts between them meet. -/
theorem parse_append_of_override :
    let t₁ := "\x7b\x7b#partial x\x7d\x7dnew\x7b\x7b/partial\x7d\x7d\na\n"
    let t₂ := "b \x7b\x7b#block x\x7d\x7dold\x7b\x7b/block\x7d\x7d"
    let nodes : List Node :=
      [.override "x" [.text "new"], .text "\na\nb ", .region "x" [.text "old"]]
    let setting : Setting := ⟨[], .default, none, false⟩
    parse (t₁ ++ t₂) = .ok nodes ∧
      setting.render nodes (.root .null) .empty = some (.ok "\na\nb new", .empty) := by
  intro t₁ t₂ nodes setting
  have h₁ : parse t₁ = .ok [.override "x" [.text "new"], .text "\na\n"] := by cbv
  have h₂ : parse t₂ = .ok [.text "b ", .region "x" [.text "old"]] := by cbv
  have hends : t₁ = "" ∨ ∃ a, t₁ = a ++ "\n" :=
    .inr ⟨"\x7b\x7b#partial x\x7d\x7dnew\x7b\x7b/partial\x7d\x7d\na", by decide⟩
  obtain ⟨hparse, hrender⟩ := parse_append h₁ h₂ hends
  have hjoin : Node.join [.override "x" [.text "new"], .text "\na\n"]
      [.text "b ", .region "x" [.text "old"]] = nodes := rfl
  rw [hjoin] at hparse hrender
  refine ⟨hparse, ?_⟩
  have hfirst : ∀ k, setting.expand (k + 2) [.override "x" [.text "new"], .text "\na\n"]
      (.root .null) (.start .empty) = some (.ok "\na\n", ⟨[("x", [.text "new"])], 0, .empty⟩) := by
    intro k
    rfl
  have hsecond : ∀ k, setting.expand (k + 2) [.text "b ", .region "x" [.text "old"]] (.root .null)
      ⟨[("x", [.text "new"])], 0, .empty⟩ =
        some (.ok "b new", ⟨[("x", [.text "new"])], 0, .empty⟩) := by
    intro k
    rfl
  have hbudget : expansionBudget = 9998 + 2 := rfl
  rw [(hrender setting (.root .null) .empty).1, hbudget, hfirst 9998]
  dsimp only
  rw [hsecond 9998]
  rfl

end Stencil
