import CodeNav.Bridge.Child
import CodeNav.Channel.Socket
import CodeNav.Index.Endpoint
import CodeNav.Program.World
import CodeNav.Settings.File

/-! # Host and child of the program

The host listens at a socket and starts its child, which works in the directory of the checkout. The
child reads its own command line and the settings there and connects to the socket, so it sees all
paths from that directory. What it prints to its standard error is seen with that of the host.
-/

namespace CodeNav.Program

open CommandLine

def directBackend (world : World) (repository : Repository) (settings : Settings) : Backend :=
  (Direct.ofRepository repository settings).backend
    ((Index.Endpoint.ofRepository repository settings).source world.network) world.tree

/-- What the child serves to a host that listens at the given place, if there is a host. -/
def serve (world : World) (options : ChildOptions) (listener? : Option (List String)) :
    Except Error Backend := do
  let settings ← (Settings.load world.tree world.environment options.root).mapError fun cause =>
    Error.failed cause.chain
  let path := Channel.socketPath world.environment options.channel
  match Channel.connectFailure? world.tree listener? path with
  | some cause =>
    throw <| .failed <|
      (ErrorChain.root cause).within ("Failed to connect to bridge socket " ++ path)
  | none => return directBackend world options.repository settings

def versionText : String := "fnav 0.1.0"

def usageText : String := "Usage: fnav [OPTIONS] <COMMAND>"

/-- The result of a command line that is not carried out. Help and the version are no failures. -/
def usageResult : UsageError → Result
  | .displayHelp => ⟨0, { out := Report.line usageText }⟩
  | .displayVersion => ⟨0, { out := Report.line versionText }⟩
  | _ => ⟨2, { err := Report.line usageText }⟩

def errorResult : Error → Result
  | .failed error => ⟨1, Report.failure error⟩
  | .clock cause => ⟨101, { err := Report.line cause.message }⟩

inductive ChildStart where
  /-- It is not started, or not in time. -/
  | missing
  /-- It ends before it connects. -/
  | ended (result : Result)
  | connected (backend : Backend)

namespace ChildStart

def backend? : ChildStart → Option Backend
  | connected backend => some backend
  | _ => none

/-- What the child prints to its standard error. -/
def messages : ChildStart → String
  | ended result => result.printed.err
  | _ => ""

end ChildStart

/-- The world of the child. It is not started in what is no directory. -/
def childWorld? (world : World) (repository : Repository) : Option World :=
  match world.tree.find (Bridge.childDirectory repository) with
  | .ok (names, .directory) => some { world with tree.workingDirectory := names }
  | _ => none

/-- Runs a child by its command line, for a host that listens at the given place. -/
def runChild (world : World) (arguments : List String) (listener : List String) : ChildStart :=
  match Invocation.ofArguments arguments with
  | .error cause => .ended (usageResult cause)
  | .ok ⟨_, _, .serve options⟩ =>
    match serve world options (some listener) with
    | .ok backend => .connected backend
    | .error cause => .ended (errorResult cause)
  | .ok _ => .missing

/-- A channel name for a rehearsed child. -/
def rehearsedChannel : String := Bridge.channelName 1 0

def startUpTime : Duration := .ofMilliseconds 10

/-- Starts the child of a bridge for a repository. Only this program can be the child, its arguments
have to be passable, and it has to connect in time. -/
def startChild (world : World) (repository : Repository) (executable? : Option String)
    (connectTimeout : Duration) : ChildStart :=
  let socket := Channel.socketPath world.environment rehearsedChannel
  let options := Bridge.childOptions repository rehearsedChannel
  if executable?.isNone && options.isPassable && decide (startUpTime ≤ connectTimeout) then
    match Channel.socketPlace world.tree socket, childWorld? world repository with
    | .ok listener, some inner => runChild inner options.arguments listener
    | _, _ => .missing
  else .missing

/-- What a bridge for the repository has its child serve. -/
def bridgeChild? (world : World) (repository : Repository) (executable? : Option String)
    (connectTimeout : Duration) : Option Backend :=
  (startChild world repository executable? connectTimeout).backend?

end CodeNav.Program
