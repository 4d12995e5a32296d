import Stencil.Syntax.Node

/-!
# Nodes as trees

A node holds lists of nodes: its bodies. What is said of every list of nodes is proved by one
induction, in which each node comes with the statement for its bodies (`Node.induction`), and
`Node.Occurs` says that a node stands somewhere in a list, at any depth.
-/

namespace Stencil.Node

/-- The bodies of a node, the main body first. -/
def bodies : Node → List (List Node)
  | .block _ _ body inverse | .helperBlock _ _ _ body inverse => body :: inverse.toList
  | .region _ body | .override _ body => [body]
  | .text _ | .lookup .. | .call .. | .inclusion .. => []

/-- Induction over lists of nodes: a node may use the statement for each of its bodies. -/
theorem induction {motive : List Node → Prop} (nil : motive [])
    (cons : ∀ n rest, (∀ body ∈ n.bodies, motive body) → motive rest → motive (n :: rest))
    (nodes : List Node) : motive nodes := by
  have htwo : ∀ (body : List Node) (inverse : Option (List Node)), motive body →
      (∀ ns ∈ inverse.toList, motive ns) → ∀ ns ∈ body :: inverse.toList, motive ns := by
    intro body inverse hbody hinverse ns hns
    rcases List.mem_cons.1 hns with rfl | hns
    · exact hbody
    · exact hinverse ns hns
  have hone : ∀ body : List Node, motive body → ∀ ns ∈ [body], motive ns := by
    intro body hbody ns hns
    rw [List.mem_singleton.1 hns]
    exact hbody
  -- The recursor for nodes has a motive for each place where nodes stand: alone, in a list, and
  -- in a second body. Those for nodes and for second bodies speak of the lists in them.
  refine @Node.rec_1 (fun n => ∀ body ∈ n.bodies, motive body) motive
    (fun inverse => ∀ ns ∈ inverse.toList, motive ns)
    (fun _ => by simp [bodies]) (fun _ _ => by simp [bodies])
    (fun _ _ body inverse => htwo body inverse) (fun _ _ _ body inverse => htwo body inverse)
    (fun _ _ _ _ => by simp [bodies]) (fun _ _ => by simp [bodies])
    (fun _ body => hone body) (fun _ body => hone body)
    nil cons (by simp) (fun ns h => by simpa using h) nodes

/-- A node stands in a list of nodes, at some depth. -/
inductive Occurs (n : Node) : List Node → Prop where
  | here {nodes} (h : n ∈ nodes) : Occurs n nodes
  | inside {nodes m body} (hm : m ∈ nodes) (hbody : body ∈ m.bodies) (h : Occurs n body) :
      Occurs n nodes

variable {n m : Node} {nodes rest body : List Node}

theorem Occurs.head : Occurs n (n :: rest) := .here (List.mem_cons_self ..)

theorem Occurs.tail (h : Occurs n rest) : Occurs n (m :: rest) := by
  cases h with
  | here h => exact .here (List.mem_cons_of_mem _ h)
  | inside hm hbody h => exact .inside (List.mem_cons_of_mem _ hm) hbody h

/-- What stands in a body of the first node stands in the list. -/
theorem Occurs.inBody (h : Occurs n body) (hbody : body ∈ m.bodies) : Occurs n (m :: rest) :=
  .inside (List.mem_cons_self ..) hbody h

@[simp]
theorem not_occurs_nil : ¬ n.Occurs [] := by
  intro h
  cases h with
  | here h => cases h
  | inside hm => cases hm

@[simp]
theorem occurs_cons :
    n.Occurs (m :: rest) ↔ n = m ∨ (∃ body ∈ m.bodies, n.Occurs body) ∨ n.Occurs rest := by
  constructor
  · intro h
    cases h with
    | here h =>
      rcases List.mem_cons.1 h with rfl | h
      · exact .inl rfl
      · exact .inr (.inr (.here h))
    | inside hm hbody h =>
      rcases List.mem_cons.1 hm with rfl | hm
      · exact .inr (.inl ⟨_, hbody, h⟩)
      · exact .inr (.inr (.inside hm hbody h))
  · rintro (rfl | ⟨body, hbody, h⟩ | h)
    · exact .head
    · exact h.inBody hbody
    · exact h.tail

end Stencil.Node
