import CodeNav.Program.Run

/-! # The program

Reads what a command line needs from the file system and the environment, runs it, and prints. No
connection is made: the program runs on a machine without a network.
-/

namespace CodeNav.Program

def readEntry (path : String) : IO (Option FileTree.Entry) := do
  try
    let place ← IO.FS.realPath path
    if ← place.isDir then return some .directory
    if ← place.pathExists then
      try return some (.file (← IO.FS.readBinFile place).toList)
      catch _ => return some .unreadable
    return none
  catch _ => return none

/-- The names that lead to a path as it is written. -/
def namesOf (path : String) : List String := (Path.parts path).filter (· != ".")

def capture (tree : FileTree) (path : String) : IO FileTree := do
  match ← readEntry path with
  | some entry => return tree.insert (namesOf path) entry
  | none => return tree

/-- The paths that a command may read inside a directory. -/
def pathsWithin (directory : String) : List String :=
  [directory, Path.join directory ".git", Path.join directory ".git/HEAD",
    Path.join directory ".git/objects", Path.join directory ".git/refs",
    Path.join directory ".git/config", Settings.path directory]

/-- The paths that the child of a bridge may read, whichever directory around the given one is the
root of the checkout. -/
def pathsOfChild (workingDirectory directory sockets : String) : List String :=
  (Path.ancestors directory).flatMap fun root =>
    let childDirectory := Path.join workingDirectory root
    Path.join childDirectory sockets :: pathsWithin (Path.join childDirectory root)

def pathsOf (workingDirectory : String) (environment : Environment)
    (invocation : CommandLine.Invocation) : List String :=
  let sockets := Channel.socketDirectory environment
  let within (directory : String) : List String :=
    (Path.ancestors (Path.join workingDirectory directory)).flatMap pathsWithin
  within invocation.directory ++ [Path.join workingDirectory sockets] ++
    pathsOfChild workingDirectory invocation.directory sockets ++
    match invocation.command with
    | .definition file _ _ _ => [Path.join workingDirectory file]
    | .serve options => within options.root
    | _ => []

def variableNames : List String :=
  Settings.Variable.all.map (·.name) ++ ["TMPDIR", "XDG_RUNTIME_DIR", "NO_COLOR"]

def readEnvironment : IO Environment :=
  variableNames.filterMapM fun name => do return (← IO.getEnv name).map fun value => (name, value)

def readTree (environment : Environment) (arguments : List String) : IO FileTree := do
  let workingDirectory := (← IO.currentDir).toString
  let tree : FileTree := ⟨[], namesOf workingDirectory⟩
  match CommandLine.Invocation.ofArguments arguments with
  | .ok invocation => (pathsOf workingDirectory environment invocation).foldlM capture tree
  | .error _ => return tree

end CodeNav.Program

open CodeNav in
def main (arguments : List String) : IO UInt32 := do
  let environment ← Program.readEnvironment
  let world : Program.World := {
    tree := ← Program.readTree environment arguments
    environment
    network := Http.offline
    now := ⟨← IO.monoNanosNow⟩
    isTerminal := ← (← IO.getStdout).isTty }
  let result := Program.run world arguments
  IO.print result.printed.out
  IO.eprint result.printed.err
  return result.code.toUInt32
