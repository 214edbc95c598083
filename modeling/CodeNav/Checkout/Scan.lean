import CodeNav.ErrorChain
import CodeNav.Files.Tree
import CodeNav.Placement
import CodeNav.Text.Utf8

/-! # Scanning a checkout

Hits are grouped by the path that the index reports, and each group is placed in its local file. A
path that leads nowhere, or out of the checkout, is passed over, since the checkout may differ from
the indexed copy. A file that cannot be read fails the whole scan, and so does a cancelled one.
-/

namespace CodeNav.Checkout

/-- The local path for a path of the index: the parts of the path within the root. There is none if
a part leads upwards, or if there are no parts. -/
def localPath? (root path : String) : Option String :=
  let parts := Path.parts path
  if parts.isEmpty || parts.contains ".." then none
  else some (Path.join root (String.ofList (Path.joinParts (parts.map String.toList))))

/-- Hits that the index reports under one path. -/
structure Group where
  path : String
  hits : List Hit
  deriving DecidableEq, Repr

def addToGroups (groups : List Group) (hit : Hit) : List Group :=
  match groups with
  | [] => [⟨hit.path, [hit]⟩]
  | group :: rest =>
    if group.path = hit.path then { group with hits := group.hits ++ [hit] } :: rest
    else group :: addToGroups rest hit

/-- The hits by their paths, each group in the order of the hits. -/
def groupByPath (hits : List Hit) : List Group := hits.foldl addToGroups []

inductive ScanError where
  | cancelled (path : String)
  | unreadable (path : String) (cause : FileError)
  deriving DecidableEq, Repr

def ScanError.message : ScanError → String
  | cancelled path => "Scan cancelled before reading " ++ path
  | unreadable path _ => "Failed to read " ++ path

def ScanError.chain : ScanError → ErrorChain
  | cancelled path => .root (message (cancelled path))
  | unreadable path cause => (ErrorChain.root cause.message).within (message (unreadable path cause))

structure Scanner where
  root : String
  endings : List LineEnding
  criterion : Criterion

namespace Scanner

/-- The symbols of one group; none if its file is passed over. -/
def scanGroup (scanner : Scanner) (tree : FileTree) (group : Group) :
    Except ScanError (Option (List Symbol)) :=
  match localPath? scanner.root group.path with
  | none => .ok none
  | some path =>
    if tree.isFile path then
      match tree.read path with
      | .ok bytes =>
        .ok (some (Placement.ofText scanner.endings scanner.criterion path group.hits
          (Text.Utf8.lenient bytes)).symbols)
      | .error .notFound => .ok none
      | .error cause => .error (.unreadable path cause)
    else .ok none

/-- All symbols of the groups, or the first error. -/
def collect : List (Except ScanError (Option (List Symbol))) → Except ScanError (List Symbol)
  | [] => .ok []
  | outcome :: outcomes => do
    let symbols ← outcome
    let rest ← collect outcomes
    return symbols.getD [] ++ rest

/-- Scans groups. A group whose turn comes after the scan was cancelled is not read. -/
def scan (scanner : Scanner) (tree : FileTree) (isCancelled : Group → Bool)
    (groups : List Group) : Except ScanError (List Symbol) :=
  collect <| groups.map fun group =>
    if isCancelled group then .error (.cancelled group.path) else scanner.scanGroup tree group

end Scanner

def threadCount (requested : Nat) : Nat := max requested 1

/-- The number of threads on a machine, which leaves one processor to the host. -/
def defaultThreadCount (processors : Nat) : Nat := threadCount (processors - 1)

end CodeNav.Checkout
