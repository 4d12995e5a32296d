/-!
# Locations

A location turns the logical name of a template into a path: a prefix, the name without its
leading slashes, and a suffix. A slash stands between prefix and name exactly when the prefix
is not empty and does not end in one already.
-/

namespace Stencil

/-- A prefix and a suffix around names. -/
structure Location where
  pre : String
  post : String
  deriving DecidableEq, Repr

namespace Location

/-- Templates at the root, with the usual extension. -/
def default : Location := ⟨"/", ".hbs"⟩

/-- A text without its leading slashes. -/
def trimSlashes (cs : List Char) : List Char := cs.dropWhile (· == '/')

/-- The separator behind a prefix. -/
def separator (pre : List Char) : List Char :=
  match pre.getLast? with
  | none => []
  | some c => if c = '/' then [] else ['/']

/-- The path of a name. -/
def pathOf (l : Location) (name : String) : String :=
  String.ofList (l.pre.toList ++ separator l.pre.toList ++ trimSlashes name.toList ++
    l.post.toList)

end Location

end Stencil
