import Stencil.Render

/-!
# Templates and contexts

A template is a list of nodes under a name, together with the chain of the handle that compiled
it. A context is what it is rendered against: a model, extra values behind the model, and
possibly a chain of its own, which then takes the place of the template's.
-/

namespace Stencil

open Text (quote)

namespace Chain

/-- The names of the resolvers, in order. -/
def text (c : Chain) : String :=
  "[" ++ Value.joined ", " (c.map fun r => quote r.name) ++ "]"

end Chain

/-- A compiled template. -/
structure Template where
  name : String
  nodes : List Node
  chain : Chain

/-- How messages and logs show a template. -/
def Template.text (t : Template) : String :=
  "Template \x7b name: " ++ quote t.name ++ ", nodes: " ++ toString t.nodes.length ++ " \x7d"

/-- What a template is rendered against. -/
structure Context where
  model : Value
  /-- Extra values by name, in the order of writing. -/
  extras : List (String × Value)
  chain : Option Chain

namespace Context

/-- A model alone. -/
def of (model : Value) : Context := ⟨model, [], none⟩

/-- The scopes at the start of a render: the model, and behind it the extra values if there are
any. -/
def scopes (c : Context) : Scopes :=
  if c.extras.isEmpty then .root c.model
  else (Scopes.root (.map (Table.ofWrites c.extras))).push (.of c.model)

/-- The chain that decides in a render of a template. -/
def chainFor (c : Context) (t : Template) : Chain := c.chain.getD t.chain

end Context

end Stencil
