/-
  Recast shell — a tree of files.

  A path is looked up in a tree of files from its root directory.  Empty names and `.` stay where they
  are, which must be a directory; `..` goes up.  What lies above the root is not known: it has
  directories, but none of their entries.

  * `FileTree.insert` puts a file or a directory at a path and makes the directories on the way;
  * `FileTree.lookup` is what a path leads to.
-/
import Recast.Text.Basic

namespace Recast.Shell

/-- What a path leads to, for a reader of files. -/
inductive Source where
  | missing
  /-- something that is there and is no file -/
  | directory
  | file (bytes : ByteArray)

/-- A file, or a directory with its entries. -/
inductive FileTree where
  | file (bytes : ByteArray)
  | directory (entries : List (Text × FileTree))

/-- The names in a path. -/
def pathNames (path : Text) : List Text :=
  path.splitOnP (· = '/')

namespace FileTree

/-- A directory without entries. -/
def empty : FileTree :=
  .directory []

/-- The entries of a directory; a file has none. -/
def entries : FileTree → List (Text × FileTree)
  | .file _ => []
  | .directory entries => entries

/-- Entries with one put in, in place of an entry of the same name. -/
def setEntry (name : Text) (tree : FileTree) (entries : List (Text × FileTree)) :
    List (Text × FileTree) :=
  (name, tree) :: entries.filter fun entry => entry.1 != name

/-- A tree with a file, or with a directory if there are no bytes, at the end of a path. -/
def insert (tree : FileTree) (bytes : Option ByteArray) : List Text → FileTree
  | [] =>
    match bytes with
    | some bytes => .file bytes
    | none => .directory tree.entries
  | name :: more =>
    let child := (tree.entries.lookup name).getD empty
    .directory (setEntry name (insert child bytes more) tree.entries)

/-- What the names of a path lead to.  `above` are the directories around the place `here`, the
    nearest first; above the root there is no place. -/
def walk (above : List FileTree) (here : Option FileTree) : List Text → Source
  | [] =>
    match here with
    | some (.file bytes) => .file bytes
    | _ => .directory
  | name :: more =>
    match here with
    | some (.file _) => .missing
    | some (.directory entries) =>
      if name = [] ∨ name = ['.'] then walk above here more
      else if name = ['.', '.'] then walk above.tail above.head? more
      else
        match entries.lookup name with
        | some child => walk (.directory entries :: above) (some child) more
        | none => .missing
    | none =>
      if name = [] ∨ name = ['.'] ∨ name = ['.', '.'] then walk [] none more else .missing

/-- What a path leads to.  A path from the top of all directories is not in the tree. -/
def lookup (tree : FileTree) (path : Text) : Source :=
  match path with
  | '/' :: _ => walk [] none (pathNames path)
  | _ => walk [] (some tree) (pathNames path)

end FileTree

end Recast.Shell
