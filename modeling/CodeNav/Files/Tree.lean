import CodeNav.Files.Path

/-! # Directory trees

A snapshot of a file system without links. A path denotes an entry by a walk over its parts from
the root or from the working directory; every part but the last has to lead to a directory.
-/

namespace CodeNav

inductive FileError where
  | notFound
  | notDirectory
  | isDirectory
  | denied
  | notText
  deriving DecidableEq, Repr

def FileError.message : FileError → String
  | notFound => "No such file or directory (os error 2)"
  | notDirectory => "Not a directory (os error 20)"
  | isDirectory => "Is a directory (os error 21)"
  | denied => "Permission denied (os error 13)"
  | notText => "stream did not contain valid UTF-8"

inductive FileTree.Entry where
  | file (bytes : List UInt8)
  /-- A regular file that cannot be read. -/
  | unreadable
  | directory
  deriving DecidableEq, Repr

structure FileTree where
  /-- The entries by the names that lead to them from the root, which is always a directory. -/
  entries : List (List String × FileTree.Entry)
  /-- The names that lead to the directory where relative paths start. -/
  workingDirectory : List String
  deriving DecidableEq, Repr

namespace FileTree

def entry? (tree : FileTree) : List String → Option Entry
  | [] => some .directory
  | names => tree.entries.lookup names

/-- Follows parts from a directory. The names are in reverse order, so that `..` drops the first. -/
def walk (tree : FileTree) : List String → List String → Except FileError (List String)
  | names, [] => .ok names
  | names, part :: parts =>
    match tree.entry? names.reverse with
    | some .directory =>
      if part = "." then walk tree names parts
      else if part = ".." then walk tree names.tail parts
      else walk tree (part :: names) parts
    | some _ => .error .notDirectory
    | none => .error .notFound

/-- The names that a path leads to. There need not be an entry at the last one. A slash at the end
asks for a directory. -/
def locate (tree : FileTree) (path : String) : Except FileError (List String) := do
  if path.isEmpty then throw .notFound
  let start := if Path.isAbsolute path then [] else tree.workingDirectory.reverse
  let slash := if path.toList.getLast? == some '/' then ["."] else []
  let names ← tree.walk start (Path.parts path ++ slash)
  return names.reverse

def find (tree : FileTree) (path : String) : Except FileError (List String × Entry) := do
  let names ← tree.locate path
  match tree.entry? names with
  | some entry => return (names, entry)
  | none => throw .notFound

def exists? (tree : FileTree) (path : String) : Bool :=
  match tree.find path with
  | .ok _ => true
  | .error _ => false

def isDirectory (tree : FileTree) (path : String) : Bool :=
  match tree.find path with
  | .ok (_, .directory) => true
  | _ => false

def isFile (tree : FileTree) (path : String) : Bool :=
  match tree.find path with
  | .ok (_, .file _) => true
  | .ok (_, .unreadable) => true
  | _ => false

def read (tree : FileTree) (path : String) : Except FileError (List UInt8) := do
  match ← tree.find path with
  | (_, .file bytes) => return bytes
  | (_, .unreadable) => throw .denied
  | (_, .directory) => throw .isDirectory

/-- Adds an entry and the directories that lead to it, unless they are there already. -/
def insert (tree : FileTree) (names : List String) (entry : Entry) : FileTree :=
  let above := (List.range names.length).map fun n => (names.take n, Entry.directory)
  let missing := above.filter fun (outer, _) => (tree.entry? outer).isNone
  { tree with entries := tree.entries.filter (·.1 ≠ names) ++ missing ++ [(names, entry)] }

end FileTree

end CodeNav
