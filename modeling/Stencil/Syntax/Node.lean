import Stencil.Syntax.Tag

/-!
# Nodes: what a template means

A template is a list of nodes. Blocks hold their bodies; a block other than a region or an
override may have a second body, which is there exactly when an `else` was written.
-/

namespace Stencil

/-- A part of a template. -/
inductive Node where
  | text (s : String)
  | lookup (path : Path) (escape : Bool)
  | block (k : Keyword) (param : Param) (body : List Node) (inverse : Option (List Node))
  | helperBlock (name : String) (params : List Param) (named : Table Param)
      (body : List Node) (inverse : Option (List Node))
  | call (name : String) (params : List Param) (named : Table Param) (escape : Bool)
  | inclusion (name : String) (context : Option Param)
  | region (name : String) (body : List Node)
  | override (name : String) (body : List Node)
  deriving Inhabited

/-- The node of a finished block. A region or an override has no second body. -/
def Opening.node (o : Opening) (body : List Node) (inverse : Option (List Node)) : Node :=
  match o with
  | keyword k param => .block k param body inverse
  | helper name params named => .helperBlock name params named body inverse
  | region name => .region name body
  | override name => .override name body

/-- Adds text at the end of a list of nodes; it joins a text that stands there already. -/
def Node.addText : List Node → String → List Node
  | [], s => [.text s]
  | [.text t], s => [.text (t ++ s)]
  | n :: rest, s => n :: addText rest s

namespace Node

theorem addText_cons {rest : List Node} (h : rest ≠ []) (n : Node) (s : String) :
    addText (n :: rest) s = n :: addText rest s := by
  rw [addText]
  rintro t rfl rfl
  exact h rfl

theorem addText_cons_of_ne_text {n : Node} (h : ∀ s, n ≠ .text s) (rest : List Node) (s : String) :
    addText (n :: rest) s = n :: addText rest s := by
  rw [addText]
  intro t hn _
  exact h t hn

theorem addText_ne_nil (ns : List Node) (s : String) : addText ns s ≠ [] := by
  fun_induction addText ns s <;> simp

/-- Text that is added behind some nodes meets the last of them only. -/
theorem addText_append {rest : List Node} (h : rest ≠ []) (ns : List Node) (s : String) :
    addText (ns ++ rest) s = ns ++ addText rest s := by
  induction ns with
  | nil => rfl
  | cons n ns ih =>
    have hrest : ns ++ rest ≠ [] := by simp [h]
    rw [List.cons_append, addText_cons hrest, ih]
    rfl

/-- Text joins a text at the end of some nodes, and is a node of its own behind others. -/
theorem addText_cases (ns : List Node) (s : String) :
    (∃ front t, ns = front ++ [.text t] ∧ addText ns s = front ++ [.text (t ++ s)]) ∨
      (∀ front t, ns ≠ front ++ [.text t]) ∧ addText ns s = ns ++ [.text s] := by
  rcases List.eq_nil_or_concat ns with rfl | ⟨front, n, rfl⟩
  · exact .inr ⟨fun front t => by simp, rfl⟩
  · rw [List.concat_eq_append, addText_append (List.cons_ne_nil _ _)]
    by_cases hn : ∃ t, n = .text t
    · obtain ⟨t, rfl⟩ := hn
      exact .inl ⟨front, t, rfl, by rw [addText]⟩
    · refine .inr ⟨fun front' t heq => hn ⟨t, ?_⟩, ?_⟩
      · exact List.singleton_inj.1 (List.append_inj' heq rfl).2
      · rw [addText_cons_of_ne_text fun t heq => hn ⟨t, heq⟩, List.append_assoc]
        rfl

theorem addText_addText (ns : List Node) (s t : String) :
    addText (addText ns s) t = addText ns (s ++ t) := by
  fun_induction addText ns s with
  | case1 => rfl
  | case2 t' s => rw [addText, addText, String.append_assoc]
  | case3 n rest s h ih =>
    rw [addText_cons (addText_ne_nil rest s), ih, addText]
    exact h

end Node

end Stencil
