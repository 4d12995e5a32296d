import Stencil.Syntax.Outline
import Stencil.Scope
import Stencil.Helper

/-!
# Rendering

Nodes are rendered against scopes. What one render changes as it goes is its `Progress`: the
overrides declared so far, how many includes are open, and the shelf of templates read by name.
A step keeps its progress also when it fails, because a helper may swallow the fault and go on.

Two things do not descend into the nodes at hand: an include, and a region with an override.
Both go through `expand`, and the nesting of such expansions is bounded by a budget. A render
that would exceed it has no result at all (`none`), which is kept apart from a fault: no helper
can swallow it. Includes alone never exceed `Fault.includeLimit`.

`renderNodes` is one level of the recursion, with `expand` left open; `expand` ties the knot.
-/

namespace Stencil

/-- Templates by name: the parsed ones that are kept, and the names that the source was asked
for, in order. -/
structure Shelf where
  kept : Table (List Node)
  asked : List String

/-- What reads the text of a template by its name. -/
abbrev Reader := String → Except Fault String

/-- What stays the same during a render. -/
structure Setting where
  helpers : Table Helper
  chain : Chain
  source : Option Reader
  /-- Whether templates read by name are kept for the next use. -/
  keeps : Bool

/-- What a render changes as it goes. -/
structure Progress where
  overrides : Table (List Node)
  openIncludes : Nat
  shelf : Shelf

/-- A step of a render: no result at all, or a result or fault together with the progress
made. -/
def Step (α : Type) : Type := Progress → Option (Except Fault α × Progress)

namespace Step

variable {α β : Type}

/-- A result without any effect. -/
def pure (x : α) : Step α := fun p => some (.ok x, p)

/-- A fault without any effect. -/
def fail (e : Fault) : Step α := fun p => some (.error e, p)

/-- Goes on with the result; a fault ends the step. -/
def bind (s : Step α) (f : α → Step β) : Step β := fun p =>
  match s p with
  | none => none
  | some (.error e, p) => some (.error e, p)
  | some (.ok x, p) => f x p

instance : Monad Step where
  pure := pure
  bind := bind

/-- The texts of steps in a row. -/
def concat (f : β → Step String) : List β → Step String
  | [] => pure ""
  | x :: rest => bind (f x) fun s => bind (concat f rest) fun t => pure (s ++ t)

end Step

namespace Shelf

/-- Nothing read yet. -/
def empty : Shelf := ⟨[], []⟩

/-- The nodes of a named template: the kept ones, or else those read from the source, which are
kept from then on if `keeps` says so. Failures are never kept. -/
def load (source : Option Reader) (keeps : Bool) (name : String) (shelf : Shelf) :
    Except Fault (List Node) × Shelf :=
  match source with
  | none => (.error (.noSource name), shelf)
  | some read =>
    match shelf.kept.get? name with
    | some nodes => (.ok nodes, shelf)
    | none =>
      let shelf := { shelf with asked := shelf.asked ++ [name] }
      match read name with
      | .error e => (.error e, shelf)
      | .ok text =>
        match parse text with
        | .error e => (.error e, shelf)
        | .ok nodes =>
          (.ok nodes, if keeps then { shelf with kept := shelf.kept.insert name nodes } else shelf)

end Shelf

/-- The text of a value in its place: null prints nothing. -/
def emit (v : Value) (escape : Bool) : String :=
  match v with
  | .null => ""
  | v => if escape then Text.escape v.display else v.display

/-- A marker that is there or hides its name. -/
def marker (on : Bool) (text : String) : Value := if on then .str text else .null

/-- The scope of the item at an index among `count` items. Markers that do not apply are bound
to null, so that they hide those of a loop further out. -/
def iteration (item : Value) (index count : Nat) : Scope :=
  (((((Scope.of item).bind "index" (.u64 (UInt64.ofNat index))).bind
    "index_1" (.u64 (UInt64.ofNat (index + 1)))).bind
    "first" (marker (index == 0) "first")).bind
    "last" (marker (index + 1 == count) "last")).bind
    "odd" (marker (index % 2 == 1) "odd") |>.bind
    "even" (marker (index % 2 == 0) "even")

/-- The scopes of a list's items from an index on. -/
def itemScopes (count : Nat) : Nat → List Value → List Scope
  | _, [] => []
  | index, v :: rest => iteration v index count :: itemScopes count (index + 1) rest

/-- The scopes of a map's entries from an index on; each binds its key. -/
def entryScopes (count : Nat) : Nat → Table Value → List Scope
  | _, [] => []
  | index, (k, v) :: rest =>
    (iteration v index count).bind "key" (.str k) :: entryScopes count (index + 1) rest

/-- The scopes that a loop over a value goes through: the items of a list in order, the entries
of a map in ascending order of their keys, and none for anything else. -/
def iterations : Option Value → List Scope
  | some (.list items) => itemScopes items.length 0 items
  | some (.map entries) => entryScopes entries.length 0 (Table.sorted entries)
  | _ => []

/-- What renders nodes in scopes. -/
abbrev Expand := List Node → Scopes → Step String

/-- Serves the requests of a helper. -/
def Script.run (body : Value → Step String) (inverse : Step String) : Script → Step Value
  | .done result => fun p => some (result, p)
  | .body subject resume => fun p =>
    match body subject p with
    | none => none
    | some (r, p) => (resume r).run body inverse p
  | .inverse resume => fun p =>
    match inverse p with
    | none => none
    | some (r, p) => (resume r).run body inverse p

/-- The call of a helper from a place in a template. -/
def Setting.call (setting : Setting) (scopes : Scopes) (name : String) (params : List Param)
    (named : Table Param) (isBlock : Bool) : Call where
  name := name
  params := params.map (scopes.evalOrNull setting.chain)
  named := named.mapValues (scopes.evalOrNull setting.chain)
  isBlock := isBlock
  context := scopes.subject
  lookup path := (Path.read? path.toList).bind (scopes.lookup setting.chain)

/-- Calls a helper and has its requests served. -/
def Setting.runHelper (setting : Setting) (scopes : Scopes) (name : String)
    (params : List Param) (named : Table Param) (isBlock : Bool)
    (body : Value → Step String) (inverse : Step String) : Step Value :=
  match setting.helpers.get? name with
  | none => Step.fail (.unknownHelper name)
  | some helper => (helper (setting.call scopes name params named isBlock)).run body inverse

/-- Renders a block of the language, given its two bodies: the main body in a scope inside, once
or, in a loop, once for every item; the other body where there is nothing to show. -/
def Setting.runBlock (setting : Setting) (k : Keyword) (param : Param) (scopes : Scopes)
    (body : Scopes → Step String) (other : Step String) : Step String :=
  let value := scopes.eval setting.chain param
  match k with
  | .whenTrue =>
    if (value.getD .null).truthy then body (scopes.push (.of scopes.subject)) else other
  | .whenFalse =>
    if (value.getD .null).truthy then other else body (scopes.push (.of scopes.subject))
  | .within =>
    match value with
    | some v => body (scopes.push (.of v))
    | none => other
  | .each =>
    match iterations value with
    | [] => other
    | first :: rest => Step.concat (fun s => body (scopes.push s)) (first :: rest)

/-- Renders an included template: at the limit it fails before the source is asked; otherwise
one more include is open until its nodes are done, in success and in failure. -/
def Setting.runInclude (setting : Setting) (expand : Expand) (name : String)
    (context : Option Param) (scopes : Scopes) : Step String := fun p =>
  if Fault.includeLimit ≤ p.openIncludes then some (.error (.tooDeep name), p)
  else
    match p.shelf.load setting.source setting.keeps name with
    | (.error e, shelf) => some (.error e, { p with shelf := shelf })
    | (.ok nodes, shelf) =>
      let inner :=
        match context with
        | some param => scopes.push (.of (scopes.evalOrNull setting.chain param))
        | none => scopes
      match expand nodes inner
          { p with shelf := shelf, openIncludes := p.openIncludes + 1 } with
      | none => none
      | some (r, q) => some (r, { q with openIncludes := p.openIncludes })

mutual

/-- Renders one node. -/
def renderNode (setting : Setting) (expand : Expand) : Node → Scopes → Step String
  | .text s, _ => Step.pure s
  | .lookup path escape, scopes =>
    match scopes.lookup setting.chain path with
    | some v => Step.pure (emit v escape)
    | none => Step.pure ""
  | .block k param body inverse, scopes =>
    let other :=
      match inverse with
      | some nodes => renderNodes setting expand nodes scopes
      | none => Step.pure ""
    setting.runBlock k param scopes (fun inner => renderNodes setting expand body inner) other
  | .helperBlock name params named body inverse, scopes =>
    let other :=
      match inverse with
      | some nodes => renderNodes setting expand nodes (scopes.push (.of scopes.subject))
      | none => Step.pure ""
    Step.bind
      (setting.runHelper scopes name params named true
        (fun subject => renderNodes setting expand body (scopes.push (.of subject))) other)
      fun v => Step.pure (emit v false)
  | .call name params named escape, scopes =>
    Step.bind
      (setting.runHelper scopes name params named false (fun _ => Step.pure "") (Step.pure ""))
      fun v => Step.pure (emit v escape)
  | .inclusion name context, scopes => setting.runInclude expand name context scopes
  | .region name body, scopes => fun p =>
    match p.overrides.get? name with
    | some replacement => expand replacement scopes p
    | none => renderNodes setting expand body scopes p
  | .override name body, _ => fun p =>
    some (.ok "", { p with overrides := p.overrides.insert name body })

/-- Renders nodes in order; the texts are put in a row. -/
def renderNodes (setting : Setting) (expand : Expand) : List Node → Scopes → Step String
  | [], _ => Step.pure ""
  | n :: rest, scopes =>
    Step.bind (renderNode setting expand n scopes) fun s =>
      Step.bind (renderNodes setting expand rest scopes) fun t => Step.pure (s ++ t)

end

/-- Renders nodes with a budget for nested expansions. -/
def Setting.expand (setting : Setting) : Nat → Expand
  | 0 => fun _ _ _ => none
  | budget + 1 => fun nodes scopes => renderNodes setting (setting.expand budget) nodes scopes

/-- The budget of a render: far more than includes can use up, so that only overrides that lead
back to their own region for ever exceed it. -/
def expansionBudget : Nat := 10000

/-- Renders nodes from the start: no overrides, no open includes. The shelf comes back changed,
also from a failed render. -/
def Setting.render (setting : Setting) (nodes : List Node) (scopes : Scopes) (shelf : Shelf) :
    Option (Except Fault String × Shelf) :=
  match setting.expand expansionBudget nodes scopes ⟨[], 0, shelf⟩ with
  | none => none
  | some (r, p) => some (r, p.shelf)

end Stencil
