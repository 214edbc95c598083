import CodeNav.Channel.Address
import CodeNav.Files.Tree

/-! # Sockets

A host listens at the place in the file system that the path of its socket leads to from the
directory where the host works. A child connects by the same path, from the directory where the
child works.
-/

namespace CodeNav.Channel

/-- The greatest number of bytes in the path of a socket. -/
def maxSocketPath : Nat := 107

def socketPlace (tree : FileTree) (path : String) : Except String (List String) :=
  if path.toList.contains (Char.ofNat 0) then .error "paths must not contain interior null bytes"
  else if maxSocketPath < path.utf8ByteSize then .error "path must be shorter than SUN_LEN"
  else (tree.locate path).mapError FileError.message

/-- Why the child does not reach a host that listens at the given place, if there is a host. -/
def connectFailure? (tree : FileTree) (listener? : Option (List String)) (path : String) :
    Option String :=
  match socketPlace tree path with
  | .error cause => some cause
  | .ok place =>
    if listener? = some place then none
    else if (tree.entry? place).isSome then some "Connection refused (os error 111)"
    else some FileError.notFound.message

end CodeNav.Channel
