import Stencil.Source.Location
import Stencil.Source.Assets
import Stencil.Render

/-!
# Sources of named templates

A source answers the name of a template with its text. It may hold the texts itself, look them
up in the store of assets, or read them from files; each of these goes through a location. A
user may also bring a source of their own, which answers in whatever way it likes. What lies
outside the source is its surroundings.
-/

namespace Stencil

/-- Where named templates come from. -/
inductive Source where
  /-- Texts by path, in memory. -/
  | memory (location : Location) (texts : Table String)
  | assets (location : Location)
  /-- Files below a directory. -/
  | files (location : Location) (root : String)
  /-- A source of the user's own. -/
  | own (answer : Reader)

/-- What sources look at: the store of assets, and the disk. -/
structure Surroundings where
  assets : AssetStore
  disk : Disk

namespace Source

/-- Adds a text under a name to a memory source; other sources stay as they are. -/
def insert (s : Source) (name text : String) : Source :=
  match s with
  | memory l texts => memory l (texts.insert (l.pathOf name) text)
  | s => s

/-- A memory source with texts written in order. -/
def ofTexts (l : Location) (texts : List (String × String)) : Source :=
  texts.foldl (fun s entry => s.insert entry.1 entry.2) (memory l [])

/-- The text of a named template. -/
def read (s : Source) (around : Surroundings) : Reader := fun name =>
  match s with
  | memory l texts =>
    match texts.get? (l.pathOf name) with
    | some text => .ok text
    | none => .error (.notFound (l.pathOf name))
  | assets l =>
    match around.assets.find? (l.pathOf name) with
    | some text => .ok text
    | none => .error (.notFound (l.pathOf name))
  | files l root =>
    let path := l.pathOf name
    let file := FilePath.append root.toList (Location.trimSlashes path.toList)
    match around.disk.read file with
    | .ok (some text) => .ok text
    | .ok none => .error (.notFound path)
    | .error cause => .error (.unreadableFile (String.ofList file) cause)
  | own answer => answer name

end Source

end Stencil
