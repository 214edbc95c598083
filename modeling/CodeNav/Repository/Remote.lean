import CodeNav.Text.AsciiCase
import CodeNav.Text.Blank

/-! # Clone addresses of Azure DevOps

A clone address names an account, a first directory (a collection or a project), sometimes further
ones, and a repository. Names may hold dots and slashes, so an address can be cut in several ways:
of all cuts the one with the longest account counts, then the one with the longest project.
-/

namespace CodeNav

structure Repository where
  root : String
  projectUri : String
  projectName : String
  name : String
  deriving DecidableEq, Repr

namespace Repository

structure RemoteParts where
  account : List Char
  domain : List Char
  first : List Char
  project : Option (List Char)
  name : List Char
  deriving DecidableEq, Repr

namespace RemoteParts

/-- Compares a character with one of an address pattern, without regard to case. Two characters
outside ASCII fold to an ASCII letter: the long s and the Kelvin sign. -/
def matchesLetter (pattern c : Char) : Bool :=
  c.toLower == pattern || (pattern == 's' && c.toNat == 0x17F) ||
    (pattern == 'k' && c.toNat == 0x212A)

/-- Splits a text after the given pattern, if it starts with it. -/
def splitLiteral? : List Char → List Char → Option (List Char × List Char)
  | [], text => some ([], text)
  | _ :: _, [] => none
  | p :: pattern, c :: text =>
    if matchesLetter p c then
      (splitLiteral? pattern text).map fun (before, after) => (c :: before, after)
    else none

def dropLiteral? (pattern : String) (text : List Char) : Option (List Char) :=
  (splitLiteral? pattern.toList text).map (·.2)

/-- The ways to cut a text after at least one character and before the first line feed, the longest
first part first. -/
def cuts : List Char → List (List Char × List Char)
  | [] => []
  | c :: text =>
    if c = '\n' then []
    else (cuts text).map (fun (before, after) => (c :: before, after)) ++ [([c], text)]

/-- A name that goes on to the end of the address. -/
def lastName? (text : List Char) : Option (List Char) :=
  if text.isEmpty || text.contains '\n' then none else some text

/-- The repository after `/_git/`, with or without the mark of a partial clone. -/
def repository? (text : List Char) : Option (List Char) := do
  let text ← dropLiteral? "/_git/" text
  let marked := (dropLiteral? "_full/" text).orElse fun _ => dropLiteral? "_optimized/" text
  (marked.bind lastName?).orElse fun _ => lastName? text

/-- The project, if there is one, and the repository. -/
def projectAndRepository? (text : List Char) : Option (Option (List Char) × List Char) :=
  let withProject : Option (Option (List Char) × List Char) := match text with
    | '/' :: rest => (cuts rest).findSome? fun (project, after) =>
      (repository? after).map fun name => (some project, name)
    | _ => none
  withProject.orElse fun _ => (repository? text).map fun name => (none, name)

def domains : List String := ["visualstudio.com", "azure.com"]

/-- All that comes after the account. -/
def afterAccount? (account text : List Char) : Option RemoteParts := do
  let text ← dropLiteral? "." text
  domains.findSome? fun pattern => do
    let (domain, text) ← splitLiteral? pattern.toList text
    let text ← dropLiteral? "/" text
    let first := text.takeWhile (· ≠ '/')
    if first.isEmpty then none
    else
      let (project, name) ← projectAndRepository? (text.dropWhile (· ≠ '/'))
      return ⟨account, domain, first, project, name⟩

def ofAddress? (text : List Char) : Option RemoteParts := do
  let text ← dropLiteral? "https://" text
  (cuts text).findSome? fun (account, after) => afterAccount? account after

end RemoteParts

/-- Removes what comes before the last at sign of the host, in an address that starts with
`https://` in lower case. -/
def dropUserInfo (address : List Char) : List Char :=
  let scheme := "https://".toList
  if scheme.isPrefixOf address then
    let rest := address.drop scheme.length
    let host := rest.takeWhile (· ≠ '/')
    if host.contains '@' then
      scheme ++ (host.reverse.takeWhile (· ≠ '@')).reverse ++ rest.dropWhile (· ≠ '/')
    else address
  else address

/-- The collection that stands for a project named like the repository. -/
def defaultCollection : String := "DefaultCollection"

/-- The repository behind a clone address, for a checkout in the given directory. -/
def ofRemote? (root remote : String) : Option Repository := do
  let parts ← RemoteParts.ofAddress? (dropUserInfo (Text.trim remote.toList))
  let account := String.ofList parts.account
  let domain := String.ofList parts.domain
  let first := String.ofList parts.first
  let name := String.ofList (Text.dropTrailing '/' parts.name)
  let projectName := match parts.project with
    | some project => String.ofList project
    | none => if Text.equalsIgnoringAsciiCase first defaultCollection then name else first
  let projectUri :=
    if Text.equalsIgnoringAsciiCase account "dev" && Text.equalsIgnoringAsciiCase domain "azure.com"
    then "https://dev.azure.com/" ++ first ++ "/" ++ projectName
    else "https://" ++ account ++ "." ++ domain ++ "/" ++ projectName
  return { root, projectUri, projectName, name }

/-- The filters that restrict a search to a repository and a branch. -/
def searchFilters (repository : Repository) (branch : String) : List (String × List String) :=
  [("Project", [repository.projectName]), ("Repository", [repository.name]), ("Branch", [branch])]

end Repository

end CodeNav
