import CodeNav.Channel.Frame
import CodeNav.Text.Blank

/-! # The calling end of the channel

The host numbers its calls and matches each response with the pending call of its identifier. A call
that is given up while it is pending is cancelled at the other end. A closed session completes no
call and takes no more.
-/

namespace CodeNav.Channel

structure Caller where
  isClosed : Bool := false
  /-- The identifiers of the calls that wait for a response. -/
  pending : List Nat := []
  nextId : Nat := 1
  deriving DecidableEq, Repr

inductive CallError where
  /-- The session was closed before the call. -/
  | closed
  /-- The session was closed during the call. -/
  | interrupted (method : String)
  /-- The session was closed before the request was queued. -/
  | stopped
  | failed (method : String) (failure : Failure)

namespace CallError

def failure? : CallError → Option Failure
  | failed _ failure => some failure
  | _ => none

def chain : CallError → ErrorChain
  | closed => .root "Bridge channel is closed"
  | interrupted method => .root ("Bridge channel closed while waiting for '" ++ method ++ "'")
  | stopped => .root "Bridge channel writer has stopped"
  | failed method failure =>
    (ErrorChain.root failure.text).within ("Bridge call '" ++ method ++ "' failed")

end CallError

namespace Caller

/-- Starts a call: its identifier and the frame that is sent, unless the session is closed. -/
def start (caller : Caller) (method : String) (params : Json) : Caller × Option (Nat × Frame) :=
  let id := caller.nextId
  let caller := { caller with nextId := id + 1 }
  if caller.isClosed then (caller, none)
  else ({ caller with pending := caller.pending ++ [id] }, some (id, .request id method params))

def settle (caller : Caller) (id : Nat) : Caller :=
  { caller with pending := caller.pending.filter (· ≠ id) }

/-- Gives a call up. The other end is told if the call is pending. -/
def drop (caller : Caller) (id : Nat) : Caller × Option Frame :=
  if caller.pending.contains id then (caller.settle id, some (.cancel id)) else (caller, none)

/-- The call that a frame completes, with its outcome. -/
def receiveFrame (caller : Caller) (frame : Frame) : Caller × Option (Nat × Outcome) :=
  match frame.id? with
  | some id =>
    if frame.isResponse && caller.pending.contains id then
      (caller.settle id, some (id, frame.outcome))
    else (caller, none)
  | none => (caller, none)

/-- Reads a line. One that holds no frame is passed over. -/
def receive (caller : Caller) (line : List Char) : Caller × Option (Nat × Outcome) :=
  if line.all Text.isBlank then (caller, none)
  else
    match Frame.decode? line with
    | some frame => caller.receiveFrame frame
    | none => (caller, none)

def close (caller : Caller) : Caller × List Nat :=
  ({ caller with isClosed := true, pending := [] }, caller.pending)

def result (method : String) (outcome : Outcome) : Except CallError Json :=
  outcome.mapError (.failed method)

end Caller

end CodeNav.Channel
