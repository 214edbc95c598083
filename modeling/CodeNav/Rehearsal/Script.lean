import CodeNav.Client

/-! # Scripted backends

A script fixes the answers of a backend by the filter of the query, so that what is built on a
backend can be rehearsed in virtual time.
-/

namespace CodeNav

structure Script where
  results : List (String × List Symbol) := []
  /-- The result for filters that have none of their own. -/
  otherwise : List Symbol := []
  failures : List (String × ErrorChain) := []
  delays : List (String × Duration) := []
  /-- The filters whose calls never end. -/
  hanging : List String := []
  warmUpFailure? : Option ErrorChain := none
  warmUpDelay : Duration := ⟨0⟩

namespace Script

def search (script : Script) (query : Query) : Reply (List Symbol) :=
  if script.hanging.contains query.filter then .never
  else
    .after ((script.delays.lookup query.filter).getD ⟨0⟩) <|
      match script.failures.lookup query.filter with
      | some error => .error error
      | none => .ok ((script.results.lookup query.filter).getD script.otherwise)

def backend (script : Script) : Backend where
  search := script.search
  warmUp := .after script.warmUpDelay <|
    match script.warmUpFailure? with
    | some error => .error error
    | none => .ok ()

end Script

inductive BackendEvent where
  | search (query : Query)
  | warmUp
  /-- A call was given up; it is named by its filter. -/
  | dropped (name : String)
  deriving DecidableEq, Repr

namespace BackendEvent

/-- The name of a warm-up call that is given up. -/
def warmUpName : String := "warm_up"

def isDropped : BackendEvent → Bool
  | dropped _ => true
  | _ => false

def name : BackendEvent → String
  | search query => query.filter
  | warmUp => warmUpName
  | dropped name => name

/-- Puts an event in front of sorted ones, in order within the run of calls that are given up. -/
def insertOrdered (event : BackendEvent) : List BackendEvent → List BackendEvent
  | [] => [event]
  | next :: rest =>
    if event.isDropped && next.isDropped && next.name < event.name then
      next :: insertOrdered event rest
    else event :: next :: rest

/-- Orders each run of calls that are given up by name. -/
def ordered (events : List BackendEvent) : List BackendEvent := events.foldr insertOrdered []

/-- What a backend notices of a call by a client. -/
def ofCall (call : Client.Call) : List BackendEvent :=
  search call.query ::
    match call.ending with
    | .timedOut => [dropped call.query.filter]
    | _ => []

end BackendEvent

end CodeNav
