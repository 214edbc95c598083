import CodeNav.CommandLine.Command
import CodeNav.Direct

/-! # The child of a bridge

The child is the same program under an internal command. It gets the repository and the name of the
channel on its command line and works in the directory of the checkout.
-/

namespace CodeNav.CommandLine.ChildOptions

def repository (options : ChildOptions) : Repository :=
  ⟨options.root, options.projectUri, options.projectName, options.repositoryName⟩

def texts (options : ChildOptions) : List String :=
  [options.root, options.projectUri, options.projectName, options.repositoryName, options.channel]

/-- Whether a process can be started with these arguments, none of which may hold a zero
character. -/
def isPassable (options : ChildOptions) : Bool :=
  options.texts.all fun text => !text.toList.contains (Char.ofNat 0)

/-- A text as an argument of a process. One that no argument can hold is replaced, and the process
is not started. -/
def argument (text : String) : String :=
  if text.toList.contains (Char.ofNat 0) then "<string-with-nul>" else text

/-- The command line that tells the child, without the name of the program. -/
def arguments (options : ChildOptions) : List String :=
  [serveName,
    "--root-dir", argument options.root,
    "--project-uri", argument options.projectUri,
    "--project-name", argument options.projectName,
    "--repo-name", argument options.repositoryName,
    "--channel", argument options.channel]

end CodeNav.CommandLine.ChildOptions

namespace CodeNav.Bridge

open CommandLine

def childOptions (repository : Repository) (channel : String) : ChildOptions :=
  ⟨repository.root, repository.projectUri, repository.projectName, repository.name, channel⟩

def childDirectory (repository : Repository) : String := repository.root

/-- The name of a channel, unique by the number of the process and a random number. -/
def channelName (process : Nat) (random : Nat) : String :=
  "fastnav-" ++ toString process ++ "-" ++
    String.ofList (List.replicate (32 - (Nat.toDigits 16 random).length) '0' ++
      Nat.toDigits 16 random)

end CodeNav.Bridge
