import Stencil.Source.FileTree

/-!
# The store of assets

Template texts under keys that look like absolute paths. Keys are brought into one form, with
forward slashes and a slash in front, when they are written by pairs and when they are looked
up. Files are stored under the key of their path below the root.

Which files there are for a pattern is for a search to say, which lists paths. Nothing is assumed
of it: it may list any paths in any order, give up on some of them, or refuse the pattern. The files
are stored when the program runs, or embedded in it as pairs when it is built.
-/

namespace Stencil

/-- A search for the paths on a disk that a pattern describes: for each of them the path, or why it
could not be looked at; or why the pattern cannot be read. -/
abbrev PathSearch := Disk → List Char → Except String (List (Except String (List Char)))

/-- Asset texts by key. -/
abbrev AssetStore := Table String

namespace AssetStore

/-- Forward slashes only. -/
def forwardSlashes (cs : List Char) : List Char := cs.map fun c => if c = '\\' then '/' else c

/-- The form of a key in the store. -/
def normalize (key : String) : String :=
  match forwardSlashes key.toList with
  | '/' :: rest => String.ofList ('/' :: rest)
  | cs => String.ofList ('/' :: cs)

/-- The text under a key. -/
def find? (store : AssetStore) (key : String) : Option String := store.get? (normalize key)

/-- Writes pairs of keys and texts in order. An empty key is a fault; the pairs before it are
written all the same. -/
def putAll (store : AssetStore) : List (String × String) → Except Fault Unit × AssetStore
  | [] => (.ok (), store)
  | (key, text) :: rest =>
    if key = "" then (.error .emptyKey, store)
    else putAll (store.insert (normalize key) text) rest

/-- Stores the files among the paths listed for a pattern, in order, and counts them. A path that
could not be looked at is a fault, and so is a file that cannot be read; the files before it are
stored all the same. -/
def storeFiles (disk : Disk) (root pattern : String) (store : AssetStore) (count : Nat) :
    List (Except String (List Char)) → Except Fault Nat × AssetStore
  | [] => (.ok count, store)
  | .error why :: _ => (.error (.unlistedPath pattern why), store)
  | .ok path :: rest =>
    match disk.locate path with
    | .found (.file bytes) =>
      match String.fromUTF8? bytes with
      | some text =>
        storeFiles disk root pattern (store.insert (FilePath.assetKey root.toList path) text)
          (count + 1) rest
      | none => (.error (.unreadableFile (String.ofList path) .notUtf8), store)
    | .found (.directory _) | .missing | .blocked _ => storeFiles disk root pattern store count rest

/-- Stores every file that a pattern below `root` describes. -/
def load (search : PathSearch) (store : AssetStore) (disk : Disk) (root pattern : String) :
    Except Fault Nat × AssetStore :=
  match search disk (FilePath.append root.toList pattern.toList) with
  | .error why => (.error (.badPattern pattern why), store)
  | .ok listed => storeFiles disk root pattern store 0 listed

/-- The keys and texts of the files among the paths listed; nothing at all if one of them is no text.
Paths that could not be looked at are passed over. -/
def embedFiles (disk : Disk) (root : String) :
    List (Except String (List Char)) → Option (List (String × String))
  | [] => some []
  | .error _ :: rest => embedFiles disk root rest
  | .ok path :: rest =>
    match disk.locate path with
    | .found (.file bytes) =>
      match String.fromUTF8? bytes with
      | some text =>
        (embedFiles disk root rest).map ((FilePath.assetKey root.toList path, text) :: ·)
      | none => none
    | .found (.directory _) | .missing | .blocked _ => embedFiles disk root rest

/-- The pairs that are embedded for a pattern below `root`; none if the program cannot be built. The
root is the whole path, with the directory of the package in front. -/
def embedded (search : PathSearch) (disk : Disk) (root pattern : String) :
    Option (List (String × String)) :=
  match search disk (FilePath.append root.toList pattern.toList) with
  | .error _ => none
  | .ok listed => embedFiles disk root listed

end AssetStore

end Stencil
