import CodeNav.Files.Tree
import CodeNav.Repository.GitConfig
import CodeNav.Repository.Remote
import CodeNav.Text.Utf8

/-! # The repository around a directory

The root of a checkout is the nearest directory, by the text of the path, with an entry `.git`. Its
clone address is the setting `remote.origin.url` of the git directory found from there upwards.
-/

namespace CodeNav.Repository

/-- Why the clone address of a checkout cannot be told: what git writes to its standard error. -/
structure DetectError where
  report : String
  deriving DecidableEq, Repr

def DetectError.message (error : DetectError) : String :=
  "git config --get remote.origin.url failed: " ++ error.report

/-- The first enclosing directory with an entry `.git`, if the path leads to a directory. -/
def findRoot? (tree : FileTree) (directory : String) : Option String :=
  if tree.isDirectory directory then
    (Path.ancestors directory).find? fun candidate => tree.exists? (Path.join candidate ".git")
  else none

def isGitDirectory (tree : FileTree) (names : List String) : Bool :=
  (tree.entry? (names ++ ["HEAD"])).isSome &&
    tree.entry? (names ++ ["objects"]) == some .directory &&
    tree.entry? (names ++ ["refs"]) == some .directory

/-- The names of a directory and of all that enclose it, the innermost first. -/
def enclosing (names : List String) : List (List String) :=
  ((List.range (names.length + 1)).map names.take).reverse

/-- The configuration file of the innermost git directory around a directory. -/
def configText (tree : FileTree) (names : List String) : List Char :=
  match ((enclosing names).map (· ++ [".git"])).find? (isGitDirectory tree) with
  | some directory =>
    match tree.entry? (directory ++ ["config"]) with
    | some (.file bytes) => Text.Utf8.lenient bytes
    | _ => []
  | none => []

/-- The clone address of a checkout, without blanks around it. -/
def remoteAddress (tree : FileTree) (root : String) : Except DetectError String :=
  let directory := if root.isEmpty then "." else root
  let names := match tree.find directory with
    | .ok (names, _) => names
    | .error _ => []
  match GitConfig.settings (configText tree names) with
  | .error line =>
    .error ⟨"fatal: bad config line " ++ toString line.number ++ " in file .git/config\n"⟩
  | .ok settings =>
    match GitConfig.lookup? "remote.origin.url" settings with
    | none => .error ⟨""⟩
    | some value? => .ok (String.ofList (Text.trim (value?.getD "").toList))

/-- The repository around a directory. There is none outside of a checkout, or if its clone address
is none of Azure DevOps. -/
def detect (tree : FileTree) (directory : String) : Except DetectError (Option Repository) :=
  match findRoot? tree directory with
  | none => .ok none
  | some root => do return ofRemote? root (← remoteAddress tree root)

end CodeNav.Repository
