import CodeNav.Navigator
import CodeNav.Program.Search
import CodeNav.Repository.Detect

/-! # Running a command line

A command detects the repository, loads its settings, searches, and prints. A remote failure shows
as an empty result; every other error ends the program with a message.
-/

namespace CodeNav.Program

open CommandLine

def noRepository (directory : String) : ErrorChain :=
  .root (directory ++ " is not inside an Azure DevOps git repository.\n\n" ++
    "fnav needs a checkout whose 'origin' remote points at\n" ++
    "https://<account>.visualstudio.com/... or https://dev.azure.com/...")

def context (world : World) (directory : String) : Except ErrorChain (Repository × Settings) := do
  match Repository.detect world.tree directory with
  | .error cause => throw (.root cause.message)
  | .ok none => throw (noRepository directory)
  | .ok (some repository) =>
    let settings ←
      (Settings.load world.tree world.environment repository.root).mapError (·.chain)
    return (repository, settings)

/-- The results of a search, and what was printed to the standard error meanwhile. -/
structure Found where
  symbols : List Symbol
  messages : String

def printResults (world : World) (output : Output) (found : Found) : Report.Printed :=
  { err := found.messages : Report.Printed }.append <|
    if output.json then Report.json (Symbol.listToJson found.symbols) output.pretty
    else Report.symbols found.symbols (world.colors output.plain)

structure Session where
  settings : Settings
  searcher : Searcher
  navigator : Navigator

/-- The results for a user. A child starts with the first call to the backend, and nobody waits for
it when that call times out. -/
def Session.found (session : Session) (answer : Client.Answer (List Symbol)) : Found where
  symbols := answer.value
  messages :=
    match answer.call? with
    | none | some ⟨_, .timedOut⟩ => ""
    | some _ => session.searcher.messages

def session (world : World) (directory : String) : Except Error Session := do
  let (repository, settings) ← (context world directory).mapError .failed
  return {
    settings
    searcher := searcher world repository settings
    navigator := ⟨.ofTtl settings.cacheTtl, settings.timeout⟩ }

def query (world : World) (directory filter : String) (kind : Query.Kind) (exact : Bool)
    (maxResults? timeoutMs? : Option Nat) : Except Error Found := do
  let session ← session world directory
  let timeout := (timeoutMs?.map Duration.ofMilliseconds).getD session.settings.timeout
  let query := Query.capped filter (maxResults?.getD session.settings.maxResults) timeout exact kind
  let answer ← (session.navigator.ask session.searcher.backend world.now query).mapError .clock
  return session.found answer

/-- A definition is looked up at a line and a column that count from one. -/
def definition (world : World) (directory file : String) (line column : Nat) :
    Except Error Found := do
  if line = 0 ∨ column = 0 then throw (.failed (.root "Line and column are 1-based"))
  let session ← session world directory
  match session.navigator.definition session.searcher.backend world.now world.tree file (line - 1)
      (column - 1) with
  | .ok answer => return session.found { answer with value := answer.value.toList }
  | .error (.unreadable cause) =>
    throw (.failed ((ErrorChain.root cause.cause.message).within cause.message))
  | .error (.clock cause) => throw (.clock cause)

def references (world : World) (directory name : String) : Except Error Found := do
  let session ← session world directory
  let answer ←
    (session.navigator.references session.searcher.backend world.now name.toList []).mapError .clock
  return session.found answer

def symbols (world : World) (directory filter : String) (maxItems minLength : Nat) :
    Except Error Found := do
  let session ← session world directory
  let answer ← (session.navigator.symbols session.searcher.backend world.now filter.toList maxItems
    minLength []).mapError .clock
  return session.found answer

/-- The repository and the settings that matter, as lines. -/
def describe (repository : Repository) (settings : Settings) (address : String) : Report.Printed :=
  let described : Report.Printed := {
    out := String.join <| [
      "Repository:   " ++ repository.root,
      "Project:      " ++ repository.projectName ++ " (" ++ repository.projectUri ++ ")",
      "Remote repo:  " ++ repository.name,
      "Branch:       " ++ settings.branch,
      "Mode:         " ++ settings.mode.name,
      "Endpoint:     " ++ address].map Report.line }
  if settings.token?.isSome then described
  else
    described.append <| Report.warning
      "No personal access token configured (set FASTNAV_PAT or search.personal_access_token)."

def describeJson (repository : Repository) (settings : Settings) (address : String) : Json :=
  .object [
    ("branch", .string settings.branch),
    ("endpoint", .string address),
    ("mode", .string settings.mode.name),
    ("repo", .object [
      ("project_name", .string repository.projectName),
      ("project_uri", .string repository.projectUri),
      ("repo_name", .string repository.name),
      ("root_dir", .string repository.root)])]

def repositoryInfo (world : World) (directory : String) (json : Bool) :
    Except Error Report.Printed := do
  let (repository, settings) ← (context world directory).mapError .failed
  let address := (Index.Endpoint.ofRepository repository settings).address
  if json then return Report.json (describeJson repository settings address) true
  return describe repository settings address

/-- The child of a bridge that is started without its host, so that it cannot connect. -/
def serveAlone (world : World) (options : ChildOptions) : Except Error Report.Printed :=
  (serve world options none).map fun _ => {}

def perform (world : World) (directory : String) : Command → Except Error Report.Printed
  | .query filter kind exact maxResults? timeoutMs? output => do
    return printResults world output
      (← query world directory filter kind exact maxResults? timeoutMs?)
  | .definition file line column output => do
    return printResults world output (← definition world directory file line column)
  | .references name output => do
    return printResults world output (← references world directory name)
  | .symbols filter maxItems minLength output => do
    return printResults world output (← symbols world directory filter maxItems minLength)
  | .repositoryInfo json => repositoryInfo world directory json
  | .serve options => serveAlone world options

/-- Runs a command line, without the name of the program. -/
def run (world : World) (arguments : List String) : Result :=
  match Invocation.ofArguments arguments with
  | .error cause => usageResult cause
  | .ok invocation =>
    match perform world invocation.directory invocation.command with
    | .ok printed => ⟨0, printed⟩
    | .error cause => errorResult cause

end CodeNav.Program
