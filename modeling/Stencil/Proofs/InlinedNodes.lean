import Stencil.Proofs.NodeTree
import Stencil.Table

/-!
# Includes replaced by nodes

An include can be replaced by the nodes of its template: by the nodes themselves, or, if it has an
argument, by a block `with` around them (`Node.inlined`). `Inlines swaps nodes nodes'` says that
`nodes'` is `nodes` with some includes replaced, at any depth: in the bodies of blocks, regions and
overrides, and again in the nodes put in. Which includes may be replaced, and by what, is for
`swaps` to say; those that may be need not be.

`InlinesTable` says the same of tables of overrides.
-/

namespace Stencil

/-- What is put in the place of an include, given its argument and the nodes of its template. -/
def Node.inlined (found : List Node) : Option Param → List Node
  | none => found
  | some param => [.block .within param found none]

/-- The includes that may be replaced, by name and argument, and the nodes of their templates. -/
abbrev Swaps := String → Option Param → List Node → Prop

namespace Swaps

/-- One include. -/
def only (name : String) (context : Option Param) (found : List Node) : Swaps :=
  fun name' context' found' => name' = name ∧ context' = context ∧ found' = found

/-- No include at all. -/
def nowhere : Swaps := fun _ _ _ => False

end Swaps

/-- The second list is the first one with some includes replaced. -/
inductive Inlines (swaps : Swaps) : List Node → List Node → Prop where
  | nil : Inlines swaps [] []
  | leaf {n rest rest'} (hn : n.bodies = []) (hrest : Inlines swaps rest rest') :
      Inlines swaps (n :: rest) (n :: rest')
  | block (o : Opening) {body body' rest rest'} (hbody : Inlines swaps body body')
      (hrest : Inlines swaps rest rest') :
      Inlines swaps (o.node body none :: rest) (o.node body' none :: rest')
  | blockElse (o : Opening) {body body' other other' rest rest'} (hbody : Inlines swaps body body')
      (hother : Inlines swaps other other') (hrest : Inlines swaps rest rest') :
      Inlines swaps (o.node body (some other) :: rest) (o.node body' (some other') :: rest')
  | swapped {name context found found' rest rest'} (hswap : swaps name context found)
      (hfound : Inlines swaps found found') (hrest : Inlines swaps rest rest') :
      Inlines swaps (.inclusion name context :: rest) (Node.inlined found' context ++ rest')

/-- Nothing has to be replaced. -/
theorem Inlines.refl (swaps : Swaps) (nodes : List Node) : Inlines swaps nodes nodes := by
  induction nodes using Node.induction with
  | nil => exact .nil
  | cons n rest ihbody ihrest =>
    -- A block with a second body and one without are different cases of the relation.
    have htwo : ∀ (o : Opening) body inverse, Inlines swaps body body →
        (∀ other ∈ inverse.toList, Inlines swaps other other) →
        Inlines swaps (o.node body inverse :: rest) (o.node body inverse :: rest) := by
      intro o body inverse hbody hother
      cases inverse with
      | none => exact .block o hbody ihrest
      | some other => exact .blockElse o hbody (hother other (List.mem_singleton.2 rfl)) ihrest
    cases n with
    | block k param body inverse =>
      exact htwo (.keyword k param) body inverse (ihbody body (List.mem_cons_self ..))
        fun other h => ihbody other (List.mem_cons_of_mem body h)
    | helperBlock name params named body inverse =>
      exact htwo (.helper name params named) body inverse (ihbody body (List.mem_cons_self ..))
        fun other h => ihbody other (List.mem_cons_of_mem body h)
    | region name body => exact .block (.region name) (ihbody body (List.mem_cons_self ..)) ihrest
    | override name body =>
      exact .block (.override name) (ihbody body (List.mem_cons_self ..)) ihrest
    | _ => exact .leaf rfl ihrest

/-- Where no include may be replaced, nothing is. -/
theorem Inlines.eq_of_nowhere {nodes nodes' : List Node} (h : Inlines .nowhere nodes nodes') :
    nodes = nodes' := by
  induction h with
  | nil => rfl
  | leaf hn hrest ihrest => rw [ihrest]
  | block o hbody hrest ihbody ihrest => rw [ihbody, ihrest]
  | blockElse o hbody hother hrest ihbody ihother ihrest => rw [ihbody, ihother, ihrest]
  | swapped hswap => exact hswap.elim

/-- The same names in the same order; in the nodes under them some includes are replaced. -/
inductive InlinesTable (swaps : Swaps) : Table (List Node) → Table (List Node) → Prop where
  | nil : InlinesTable swaps [] []
  | cons (name : String) {body body' rest rest'} (hbody : Inlines swaps body body')
      (hrest : InlinesTable swaps rest rest') :
      InlinesTable swaps ((name, body) :: rest) ((name, body') :: rest')

namespace InlinesTable

variable {swaps : Swaps} {os os' : Table (List Node)}

theorem refl (swaps : Swaps) (os : Table (List Node)) : InlinesTable swaps os os := by
  induction os with
  | nil => exact .nil
  | cons entry rest ih => exact .cons entry.1 (.refl swaps entry.2) ih

theorem get? (h : InlinesTable swaps os os') (name : String) :
    Option.Rel (Inlines swaps) (os.get? name) (os'.get? name) := by
  induction h with
  | nil => exact .none
  | cons other hbody hrest ih =>
    rw [Table.get?, Table.get?]
    split
    next => exact .some hbody
    next => exact ih

theorem insert (h : InlinesTable swaps os os') {body body' : List Node}
    (hbody : Inlines swaps body body') (name : String) :
    InlinesTable swaps (os.insert name body) (os'.insert name body') := by
  induction h with
  | nil => exact .cons name hbody .nil
  | cons other hold hrest ih =>
    rw [Table.insert, Table.insert]
    split
    next => exact .cons other hbody hrest
    next => exact .cons other hold ih

theorem eq_of_nowhere (h : InlinesTable .nowhere os os') : os = os' := by
  induction h with
  | nil => rfl
  | cons name hbody hrest ih => rw [hbody.eq_of_nowhere, ih]

end InlinesTable

end Stencil
