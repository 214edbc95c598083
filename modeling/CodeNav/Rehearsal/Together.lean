import CodeNav.Rehearsal.Script

/-! # Queries that run together

Queries of one client start at the same time, one after the other, and their calls end in the order
of the time that they take. The clock of the cache stands still.
-/

namespace CodeNav

/-- Queries that run together, some way on. -/
structure Together where
  client : Client
  events : List BackendEvent := []
  /-- The results by the place of the query. -/
  results : List (Nat × List Symbol) := []
  /-- The calls that still run, by the place of the query, with the time that they take. -/
  calls : List (Nat × Duration × Client.Call) := []
  error? : Option ClockError := none

namespace Together

/-- Takes the ending of a call. After an error, all calls are given up. -/
def finish (state : Together) (now : Instant) (place : Nat) (call : Client.Call) : Together :=
  if state.error?.isSome then
    { state with events := state.events ++ [.dropped call.query.filter] }
  else
    let events := state.events ++ (BackendEvent.ofCall call).tail
    match state.client.settle now call.query call.ending with
    | .ok (symbols, client) =>
      { state with client, events, results := state.results ++ [(place, symbols)] }
    | .error cause => { state with events, error? := some cause }

def start (state : Together) (backend : Backend) (now : Instant) (place : Nat) (query : Query) :
    Together :=
  if state.error?.isSome then state
  else
    match state.client.lookUp now query with
    | (some symbols, client) =>
      { state with client, results := state.results ++ [(place, symbols)] }
    | (none, client) =>
      let reply := backend.search query
      let call : Client.Call := ⟨query, .ofReply reply query.timeout⟩
      let state : Together :=
        { state with client, events := state.events ++ [BackendEvent.search query] }
      let time := reply.wait query.timeout
      if time.nanoseconds = 0 then state.finish now place call
      else { state with calls := state.calls ++ [(place, time, call)] }

def run (client : Client) (backend : Backend) (now : Instant) (queries : List Query) : Together :=
  let started := queries.zipIdx.foldl
    (fun (state : Together) (query, place) => state.start backend now place query) { client }
  let calls := started.calls.mergeSort fun (_, s, _) (_, t, _) => decide (s ≤ t)
  calls.foldl (fun state (place, _, call) => state.finish now place call) started

def sortedResults (state : Together) : List (List Symbol) :=
  (state.results.mergeSort fun (m, _) (n, _) => decide (m ≤ n)).map (·.2)

end Together

end CodeNav
