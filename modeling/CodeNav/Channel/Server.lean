import CodeNav.Backend
import CodeNav.Channel.Frame
import CodeNav.Text.Blank
import CodeNav.Wire

/-! # The serving end of the channel

The child reads frames one by one. A request starts a task that asks the backend; requests are not
answered in order. A cancelled request is answered at once with an error and its task is given up.
A line that is no frame is answered by an error without an identifier.
-/

namespace CodeNav.Channel

def searchMethod : String := "searchCode"

def warmUpMethod : String := "warmUp"

inductive Work where
  | search (query : Query)
  | warmUp
  | refused (failure : Failure)

namespace Work

/-- The only argument of a search, bare or in an array. -/
def searchArgument? : Option Json → Option Json
  | some (.array [argument]) => some argument
  | some (.object members) => some (.object members)
  | _ => none

/-- The program ends the second message with the reason that its JSON reader gives, which is not
known here. -/
def ofSearch (params? : Option Json) : Work :=
  match searchArgument? params? with
  | none =>
    refused { code := Failure.invalidParamsCode,
              message := searchMethod ++ " expects a single query request" }
  | some argument =>
    match Query.decoder.readValue? argument with
    | some query => search query
    | none =>
      refused { code := Failure.invalidParamsCode,
                message := "Invalid query request: no query can be read from it" }

def ofRequest (method : String) (params? : Option Json) : Work :=
  if method = searchMethod then ofSearch params?
  else if method = warmUpMethod then warmUp
  else refused { code := Failure.unknownMethodCode, message := "Unknown method: " ++ method }

def reply (backend : Backend) : Work → Timed Outcome
  | search query => (backend.search query).map fun outcome =>
    (outcome.mapError Failure.ofError).map fun symbols => (Symbol.listToJson symbols).sorted
  | warmUp => backend.warmUp.map fun outcome =>
    (outcome.mapError Failure.ofError).map fun _ => Json.null
  | refused failure => .now (.error failure)

end Work

structure Server where
  /-- The identifiers of the requests in work, with the numbers of their tasks. -/
  inFlight : List (Nat × Nat) := []
  nextTask : Nat := 0
  deriving DecidableEq, Repr

namespace Server

inductive Effect where
  | send (frame : Frame)
  | start (task id : Nat) (work : Work)
  | abort (task : Nat)

/-- The reason stands in for that of the JSON reader. -/
def malformed : Failure where
  code := Failure.parseErrorCode
  message := "Parse error: the line holds no frame"

def cancelled : Failure where
  code := Failure.cancelledCode
  message := "Request cancelled"

def untrack (server : Server) (id : Nat) : Server :=
  { server with inFlight := server.inFlight.filter (·.1 ≠ id) }

/-- Starts a task for a request. A request that reuses an identifier takes it over. -/
def start (server : Server) (id : Nat) (work : Work) : Server × List Effect :=
  let task := server.nextTask
  ({ inFlight := (server.untrack id).inFlight ++ [(id, task)], nextTask := task + 1 },
    [.start task id work])

def cancel (server : Server) (id : Nat) : Server × List Effect :=
  match server.inFlight.lookup id with
  | none => (server, [])
  | some task => (server.untrack id, [.abort task, .send (.response (some id) (.error cancelled))])

def receiveFrame (server : Server) (frame : Frame) : Server × List Effect :=
  match frame.method?, frame.id? with
  | some method, id? =>
    if method = Frame.cancelMethod then
      match frame.cancelledId? with
      | some id => server.cancel id
      | none => (server, [])
    else
      match id? with
      | some id => server.start id (.ofRequest method frame.params?)
      | none => (server, [])
  | none, _ => (server, [])

def receive (server : Server) (line : List Char) : Server × List Effect :=
  if line.all Text.isBlank then (server, [])
  else
    match Frame.decode? line with
    | some frame => server.receiveFrame frame
    | none => (server, [.send (.response none (.error malformed))])

/-- Takes the outcome of a task for a request. It is sent only if the request is still tracked. -/
def finish (server : Server) (id : Nat) (outcome : Outcome) : Server × List Effect :=
  match server.inFlight.lookup id with
  | some _ => (server.untrack id, [.send (.response (some id) outcome)])
  | none => (server, [])

/-- At the end of the input all requests in work are given up without an answer. -/
def endInput (server : Server) : Server × List Effect :=
  ({ server with inFlight := [] }, server.inFlight.map fun (_, task) => .abort task)

end Server

/-- An input that is no text ends a server. -/
def readError : ErrorChain :=
  (ErrorChain.root "stream did not contain valid UTF-8").within "Failed to read from bridge channel"

end CodeNav.Channel
