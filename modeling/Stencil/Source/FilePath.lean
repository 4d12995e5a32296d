/-!
# File paths by components

A path is a row of components between slashes. Empty components do not count, and neither does
`.`, except at the very start of a relative path; `..` is a component like any other. Two paths
are compared, and one is taken off another, component by component.
-/

namespace Stencil.FilePath

/-- The parts of a text between slashes. -/
def parts : List Char → List Char × List (List Char)
  | [] => ([], [])
  | c :: rest =>
    let (head, tail) := parts rest
    if c = '/' then ([], head :: tail) else (c :: head, tail)

/-- The components of a path; an absolute path begins with the component `/`. -/
def components (path : List Char) : List (List Char) :=
  let (head, tail) := parts path
  let inner := fun (p : List Char) => p ≠ [] ∧ p ≠ ['.']
  match head with
  | [] =>
    match path with
    | [] => []
    | _ :: _ => ['/'] :: tail.filter fun p => decide (inner p)
  | head => head :: tail.filter fun p => decide (inner p)

/-- What is left of a path behind a base; the whole path if it does not lie below the base. -/
def relativeTo (base path : List Char) : List (List Char) :=
  let b := components base
  let p := components path
  if b.isPrefixOf p then p.drop b.length else p

/-- Components joined by slashes. -/
def joinSlashes : List (List Char) → List Char
  | [] => []
  | [p] => p
  | p :: rest => p ++ '/' :: joinSlashes rest

/-- The key of a file among the assets: a slash, and its components below the root. -/
def assetKey (root path : List Char) : String :=
  String.ofList ('/' :: joinSlashes (relativeTo root path))

/-- A path put behind a directory; an absolute path stands for itself. -/
def append (directory path : List Char) : List Char :=
  match path with
  | '/' :: _ => path
  | _ =>
    match directory.getLast? with
    | none => path
    | some '/' => directory ++ path
    | some _ => directory ++ '/' :: path

end Stencil.FilePath
