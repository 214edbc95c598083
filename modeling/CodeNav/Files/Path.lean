/-! # Path texts

A path is a text whose parts stand between slashes. Joining and taking the enclosing directory work
on the text alone: `..` is a part like any other, and a part `.` is left as it is written, except
that it does not count at the end.
-/

namespace CodeNav.Path

/-- The parts between the slashes of a text, some of which may be empty. -/
def split : List Char → List (List Char)
  | [] => [[]]
  | c :: text =>
    if c = '/' then [] :: split text
    else
      match split text with
      | [] => [[c]]
      | part :: parts => (c :: part) :: parts

def joinParts (parts : List (List Char)) : List Char := ['/'].intercalate parts

/-- The parts of a path, without empty ones. -/
def parts (path : String) : List String :=
  ((split path.toList).filter (· ≠ [])).map String.ofList

def isAbsolute (path : String) : Bool := path.toList.head? == some '/'

/-- A path within a directory. An absolute path replaces the directory. -/
def join (directory path : String) : String :=
  if isAbsolute path || directory.isEmpty then path
  else if directory.toList.getLast? == some '/' then directory ++ path
  else directory ++ "/" ++ path

/-- Parts that do not count at the end of a path. -/
def isTrivial (part : List Char) : Bool := part.isEmpty || part == ['.']

def dropTrivialEnd (parts : List (List Char)) : List (List Char) :=
  (parts.reverse.dropWhile isTrivial).reverse

/-- For parts in reverse order, the parts of each enclosing directory, the innermost first. -/
def enclosingParts : List (List Char) → List (List (List Char))
  | [] => []
  | part :: rest =>
    if isTrivial part then enclosingParts rest
    else dropTrivialEnd rest.reverse :: enclosingParts rest

/-- A path and its enclosing directories, as far as its text goes. A relative path ends with the
empty one, which stands for the working directory. -/
def ancestors (path : String) : List String :=
  path :: (match split path.toList with
    | [] :: body =>
      if path.isEmpty then []
      else (enclosingParts body.reverse).map fun parts => String.ofList ('/' :: joinParts parts)
    | first :: body =>
      (enclosingParts body.reverse).map (fun parts => String.ofList (joinParts (first :: parts)))
        ++ [""]
    | [] => [])

end CodeNav.Path
