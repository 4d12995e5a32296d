import Stencil.Table
import Stencil.Fault
import Stencil.Source.FilePath

/-!
# Files on a disk

A directory holds files and directories under their names. A disk is the root directory with all
that is below it, and the working directory somewhere in it. A path that begins with a slash is
walked from the root, and any other one from the working directory, component by component: `.`
and empty components stay, `..` goes back, but not beyond the root, and every component but the
last must be a directory, as must the last one if a slash follows it.

Reading a file gives its text, or nothing where there is no such file, or the cause that keeps
it from being read. There are no links among the files, and all of them may be read.
-/

namespace Stencil

/-- A file with its bytes, or a directory with its entries. -/
inductive FileTree where
  | file (bytes : ByteArray)
  | directory (entries : List (String × FileTree))
  deriving Inhabited

namespace FileTree

/-- A directory without entries. -/
def empty : FileTree := directory []

/-- The entries of a directory. -/
def entries? : FileTree → Option (Table FileTree)
  | file _ => none
  | directory entries => some entries

/-- The result of walking a path. -/
inductive Walk where
  | found (t : FileTree)
  | missing
  | blocked (cause : FileCause)

/-- The greatest number of bytes in a name. -/
def nameLimit : Nat := 255

/-- The number of bytes that a path must stay below. -/
def pathLimit : Nat := 4096

/-- Walks the parts of a path. The trail holds the directories above the current place; at the
root directory there are none. -/
def walk (trail : List FileTree) (here : FileTree) : List (List Char) → Walk
  | [] => .found here
  | part :: rest =>
    match here.entries? with
    | none => .blocked .notADirectory
    | some entries =>
      if part = [] ∨ part = ['.'] then walk trail here rest
      else if part = ['.', '.'] then
        match trail with
        | [] => walk [] here rest
        | up :: trail => walk trail up rest
      else if nameLimit < (String.ofList part).utf8ByteSize then .blocked .nameTooLong
      else
        match Table.get? entries (String.ofList part) with
        | none => .missing
        | some next => walk (here :: trail) next rest

end FileTree

/-- The files that a program can reach: the root directory, and the names of the directories that
lead from it to the working directory. -/
structure Disk where
  root : FileTree
  working : List String

namespace Disk

open FileTree (Walk walk nameLimit pathLimit)

/-- A disk without files. -/
def empty : Disk := ⟨.empty, []⟩

/-- The parts that lead from the root directory to a path. -/
def route (disk : Disk) (path : List Char) : List (List Char) :=
  let (head, tail) := FilePath.parts path
  match path with
  | '/' :: _ => head :: tail
  | _ => disk.working.map String.toList ++ head :: tail

/-- What a path leads to. -/
def locate (disk : Disk) (path : List Char) : Walk :=
  if path.contains '\x00' then .blocked .nulInName
  else if pathLimit ≤ (String.ofList path).utf8ByteSize then .blocked .nameTooLong
  else if path = [] then .missing
  else walk [] disk.root (disk.route path)

/-- The text of the file at a path; nothing if there is none. -/
def read (disk : Disk) (path : List Char) : Except FileCause (Option String) :=
  match disk.locate path with
  | .missing => .ok none
  | .blocked cause => .error cause
  | .found (.directory _) => .error .isDirectory
  | .found (.file bytes) =>
    match String.fromUTF8? bytes with
    | some text => .ok (some text)
    | none => .error .notUtf8

end Disk

end Stencil
