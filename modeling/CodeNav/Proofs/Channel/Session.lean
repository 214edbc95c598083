import Mathlib.Logic.Relation
import CodeNav.Proofs.Channel.Frames

/-! # Caller and server at work

A session is a caller and a server with the frames on their way between them, in order, and the
tasks of the server. Calls start and are dropped, frames are read at both ends and tasks end in any
order. The log of a session keeps what happened in it, the latest event first.
-/

namespace CodeNav.Channel

open Relation

/-- A task of the server. One that was cancelled may still come to its end, but unheard. -/
structure Task where
  number : Nat
  id : Nat
  work : Work

inductive Event where
  | called (id : Nat) (method : String) (params : Json)
  | dropped (id : Nat)
  /-- A task came to its end. -/
  | computed (task : Task) (outcome : Outcome)
  /-- A task was given up because a frame said so. -/
  | cancelled (task : Task)
  | completed (id : Nat) (outcome : Outcome)

structure Session where
  caller : Caller := {}
  server : Server := {}
  /-- Whether the server still reads. -/
  isServing : Bool := true
  requests : List Frame := []
  responses : List Frame := []
  tasks : List Task := []
  log : List Event := []

namespace Session

variable {s : Session} {id : Nat} {method : String} {params : Json} {outcome : Outcome}
  {frame : Frame} {rest : List Frame} {task : Task}

def call (s : Session) (method : String) (params : Json) : Session :=
  match s.caller.start method params with
  | (caller, none) => { s with caller }
  | (caller, some (id, frame)) =>
    { s with
      caller
      requests := s.requests ++ [frame]
      log := .called id method params :: s.log }

def drop (s : Session) (id : Nat) : Session :=
  match s.caller.drop id with
  | (caller, none) => { s with caller }
  | (caller, some frame) =>
    { s with caller, requests := s.requests ++ [frame], log := .dropped id :: s.log }

def perform (s : Session) : Server.Effect → Session
  | .send frame => { s with responses := s.responses ++ [frame] }
  | .start number id work => { s with tasks := s.tasks ++ [⟨number, id, work⟩] }
  | .abort number =>
    match s.tasks.find? (·.number = number) with
    | some task => { s with log := .cancelled task :: s.log }
    | none => s

def serve (s : Session) : Session :=
  match s.requests with
  | [] => s
  | frame :: rest =>
    let (server, effects) := s.server.receive frame.encode
    effects.foldl perform { s with server, requests := rest }

def finish (s : Session) (task : Task) (outcome : Outcome) : Session :=
  let (server, effects) := s.server.finish task.id outcome
  effects.foldl perform
    { s with
      server
      tasks := s.tasks.filter (·.number ≠ task.number)
      log := .computed task outcome :: s.log }

def read (s : Session) : Session :=
  match s.responses with
  | [] => s
  | frame :: rest =>
    match s.caller.receive frame.encode with
    | (caller, none) => { s with caller, responses := rest }
    | (caller, some (id, outcome)) =>
      { s with caller, responses := rest, log := .completed id outcome :: s.log }

def closeCaller (s : Session) : Session := { s with caller := s.caller.close.1 }

def closeServer (s : Session) : Session :=
  { s with server := s.server.endInput.1, isServing := false }

/-- One step of a session. A frame that is read survives the channel. -/
inductive Step (s : Session) : Session → Prop where
  | call (method : String) (params : Json) (h : method ≠ Frame.cancelMethod) :
      Step s (s.call method params)
  | drop (id : Nat) : Step s (s.drop id)
  | serve {frame : Frame} {rest : List Frame} (hserving : s.isServing)
      (hnext : s.requests = frame :: rest) (h : frame.IsReadBack) : Step s s.serve
  | finish {task : Task} {outcome : Outcome} (htask : task ∈ s.tasks)
      (h : task.work.MayEnd outcome) : Step s (s.finish task outcome)
  | read {frame : Frame} {rest : List Frame} (hnext : s.responses = frame :: rest)
      (h : frame.IsReadBack) : Step s s.read
  | closeCaller : Step s s.closeCaller
  | closeServer : Step s s.closeServer

def Reachable (s : Session) : Prop := ReflTransGen Step {} s

theorem call_of_open (h : s.caller.isClosed = false) (method : String) (params : Json) :
    s.call method params =
      { s with
        caller := { s.caller with
          nextId := s.caller.nextId + 1
          pending := s.caller.pending ++ [s.caller.nextId] }
        requests := s.requests ++ [.request s.caller.nextId method params]
        log := .called s.caller.nextId method params :: s.log } := by
  simp [call, Caller.start, h]

theorem call_of_closed (h : s.caller.isClosed = true) (method : String) (params : Json) :
    s.call method params =
      { s with caller := { s.caller with nextId := s.caller.nextId + 1 } } := by
  simp [call, Caller.start, h]

theorem drop_of_mem (h : id ∈ s.caller.pending) :
    s.drop id =
      { s with
        caller := s.caller.settle id
        requests := s.requests ++ [.cancel id]
        log := .dropped id :: s.log } := by
  simp [drop, Caller.drop, h]

theorem drop_of_not_mem (h : id ∉ s.caller.pending) : s.drop id = s := by
  simp [drop, Caller.drop, h]

theorem serve_of_receive {server : Server} {effects : List Server.Effect}
    (hnext : s.requests = frame :: rest)
    (h : s.server.receive frame.encode = (server, effects)) :
    s.serve = effects.foldl perform { s with server, requests := rest } := by
  simp only [serve, hnext, h]

theorem serve_request (hnext : s.requests = .request id method params :: rest)
    (hmethod : method ≠ Frame.cancelMethod) (h : (Frame.request id method params).IsReadBack) :
    s.serve =
      { s with
        requests := rest
        server := (s.server.start id (.ofRequest method (some params))).1
        tasks := s.tasks ++ [⟨s.server.nextTask, id, .ofRequest method (some params)⟩] } :=
  serve_of_receive hnext (Server.receive_request hmethod h)

theorem serve_cancel (hnext : s.requests = .cancel id :: rest) (h : (Frame.cancel id).IsReadBack) :
    s.serve = { s with requests := rest } ∨
      ∃ number, s.server.inFlight.lookup id = some number ∧
        s.serve =
          (({ s with requests := rest, server := s.server.untrack id } : Session).perform
            (.abort number)).perform (.send (.response (some id) (.error Server.cancelled))) := by
  rcases Server.receive_cancel h with hreceive | hreceive
  · rw [Server.cancel] at hreceive
    cases hlookup : s.server.inFlight.lookup id with
    | none =>
      rw [hlookup] at hreceive
      exact .inl (serve_of_receive hnext hreceive)
    | some number =>
      rw [hlookup] at hreceive
      exact .inr ⟨number, rfl, serve_of_receive hnext hreceive⟩
  · exact .inl (serve_of_receive hnext hreceive)

theorem finish_of_lookup_some {number : Nat} (h : s.server.inFlight.lookup task.id = some number)
    (outcome : Outcome) :
    s.finish task outcome =
      { s with
        server := s.server.untrack task.id
        tasks := s.tasks.filter (·.number ≠ task.number)
        responses := s.responses ++ [.response (some task.id) outcome]
        log := .computed task outcome :: s.log } := by
  simp only [finish, Server.finish, h, List.foldl_cons, List.foldl_nil, perform]

theorem finish_of_lookup_none (h : s.server.inFlight.lookup task.id = none) (outcome : Outcome) :
    s.finish task outcome =
      { s with
        tasks := s.tasks.filter (·.number ≠ task.number)
        log := .computed task outcome :: s.log } := by
  simp only [finish, Server.finish, h, List.foldl_nil]

theorem read_of_mem (hnext : s.responses = .response (some id) outcome :: rest)
    (hid : id ∈ s.caller.pending) (h : (Frame.response (some id) outcome).IsReadBack) :
    s.read =
      { s with
        caller := s.caller.settle id
        responses := rest
        log := .completed id outcome.received :: s.log } := by
  have hreceive := Caller.receive_response s.caller h
  rw [if_pos hid] at hreceive
  simp only [read, hnext, hreceive]

theorem read_of_not_mem (hnext : s.responses = .response (some id) outcome :: rest)
    (hid : id ∉ s.caller.pending) (h : (Frame.response (some id) outcome).IsReadBack) :
    s.read = { s with responses := rest } := by
  have hreceive := Caller.receive_response s.caller h
  rw [if_neg hid] at hreceive
  simp only [read, hnext, hreceive]

end Session

end CodeNav.Channel
