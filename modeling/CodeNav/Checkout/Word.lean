import CodeNav.Files.Tree
import CodeNav.Identifier
import CodeNav.Text.Utf8

/-! # The identifier at a place in a file

The file has to be well-formed UTF-8. A line past its end has no identifier, since the editor may
hold changes that are not saved.
-/

namespace CodeNav.Checkout

structure ReadError where
  path : String
  cause : FileError
  deriving DecidableEq, Repr

namespace ReadError

def message (error : ReadError) : String := "Failed to read " ++ error.path

end ReadError

def readText (tree : FileTree) (path : String) : Except FileError (List Char) := do
  match Text.Utf8.strict? (← tree.read path) with
  | some text => return text
  | none => throw .notText

def wordAt (tree : FileTree) (path : String) (line column : Nat) :
    Except ReadError (Option (List Char)) :=
  match readText tree path with
  | .ok text => .ok (identifierIn? text line column)
  | .error cause => .error ⟨path, cause⟩

end CodeNav.Checkout
