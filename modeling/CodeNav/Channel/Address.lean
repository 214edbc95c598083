import CodeNav.Files.Path
import CodeNav.Settings.Environment

/-! # The address of a channel

A channel is a socket file. Host and child find it by the name of the channel and by the directory
for such files, which the child inherits with the environment.
-/

namespace CodeNav.Channel

def temporaryDirectory (environment : Environment) : String :=
  (environment.lookup "TMPDIR").getD "/tmp"

/-- The directory for socket files: that of the session if it is absolute, else the temporary
one. -/
def socketDirectory (environment : Environment) : String :=
  match environment.lookup "XDG_RUNTIME_DIR" with
  | some directory =>
    if Path.isAbsolute directory then directory else temporaryDirectory environment
  | none => temporaryDirectory environment

def socketPath (environment : Environment) (name : String) : String :=
  Path.join (socketDirectory environment) (name ++ ".sock")

end CodeNav.Channel
