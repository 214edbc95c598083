import CodeNav.Channel.Caller
import CodeNav.Channel.Lines
import CodeNav.Timed

/-! # Rehearsing a caller

A caller against a peer whose bytes are given, in virtual time. Each call has a tag and may have a
timeout, at which it is given up.
-/

namespace CodeNav

open Channel

inductive Calling.Ending where
  | done (result : Except CallError Json)
  | timedOut

structure Calling.Waiting where
  tag : String
  method : String
  id : Nat
  deadline? : Option Instant

structure Calling where
  caller : Caller := {}
  now : Instant := ⟨0⟩
  buffer : List UInt8 := []
  /-- Whether the caller still reads what the peer sends. -/
  isReading : Bool := true
  /-- Whether the peer still reads what the caller sends. -/
  peerReads : Bool := true
  waiting : List Calling.Waiting := []
  /-- The frames that the peer received. -/
  frames : List Frame := []
  settled : List (String × Calling.Ending) := []

namespace Calling

/-- Closes the session. All calls that wait fail. -/
def close (state : Calling) : Calling :=
  let (caller, _) := state.caller.close
  { state with
    caller
    waiting := []
    settled := state.settled ++ state.waiting.map fun call =>
      (call.tag, .done (.error (.interrupted call.method))) }

/-- Writes frames. A failed write closes the session. -/
def write (state : Calling) (frames : List Frame) : Calling :=
  if frames.isEmpty then state
  else if state.peerReads then { state with frames := state.frames ++ frames }
  else state.close

/-- Gives up the call with the given identifier; the frame for the peer is yet to be written. -/
def giveUp (state : Calling) (id : Nat) : Calling × List Frame :=
  let (caller, frame?) := state.caller.drop id
  ({ state with caller, waiting := state.waiting.filter (·.id != id) }, frame?.toList)

def expire (state : Calling) (call : Waiting) : Calling × List Frame :=
  let (state, frames) := state.giveUp call.id
  ({ state with settled := state.settled ++ [(call.tag, Ending.timedOut)] }, frames)

def call (state : Calling) (tag method : String) (params : Json) (timeout? : Option Duration) :
    Calling :=
  match state.caller.start method params with
  | (caller, none) =>
    { state with
      caller
      settled := state.settled ++ [(tag, Ending.done (.error .closed))] }
  | (caller, some (id, frame)) =>
    let deadline? := timeout?.map fun d => (⟨state.now.nanoseconds + d.nanoseconds⟩ : Instant)
    let call : Waiting := ⟨tag, method, id, deadline?⟩
    let state : Calling := { state with caller, waiting := state.waiting ++ [call] }
    if timeout?.any (·.nanoseconds == 0) then
      let (state, frames) := state.expire call
      state.write (frame :: frames)
    else state.write [frame]

def drop (state : Calling) (tag : String) : Calling :=
  match state.waiting.find? (·.tag == tag) with
  | some call =>
    let (state, frames) := state.giveUp call.id
    state.write frames
  | none => state

/-- Reads a line. One that is no text closes the session. -/
def readLine (state : Calling) (text? : Option (List Char)) : Calling :=
  if state.isReading then
    match text? with
    | none => ({ state with isReading := false }).close
    | some line =>
      let (caller, completed?) := state.caller.receive line
      let state : Calling := { state with caller }
      match completed? with
      | none => state
      | some (id, outcome) =>
        { state with
          waiting := state.waiting.filter (·.id != id)
          settled := state.settled ++ (state.waiting.filter (·.id == id)).map fun call =>
            (call.tag, Ending.done (Caller.result call.method outcome)) }
  else state

def receive (state : Calling) (bytes : List UInt8) : Calling :=
  let (lines, rest) := cutLines (state.buffer ++ bytes)
  lines.foldl (fun state line => state.readLine (lineText? line)) { state with buffer := rest }

/-- The end of what the peer sends. A line that has not ended counts as well. -/
def endReplies (state : Calling) : Calling :=
  let state := if state.buffer.isEmpty then state else state.readLine (Text.Utf8.strict? state.buffer)
  if state.isReading then ({ state with isReading := false, buffer := [] }).close else state

/-- The peer reads no more. This shows at the next write. -/
def endRequests (state : Calling) : Calling := { state with peerReads := false }

/-- The call with the first deadline, up to the given time. -/
def next? (state : Calling) (time : Instant) : Option (Waiting × Instant) :=
  state.waiting.foldl (fun best? call =>
    match call.deadline?, best? with
    | some deadline, none => if deadline ≤ time then some (call, deadline) else none
    | some deadline, some (_, soonest) => if deadline < soonest then some (call, deadline) else best?
    | none, _ => best?) none

/-- Ends at most `n` calls at their deadlines, up to the given time. -/
def runUntil (time : Instant) : Nat → Calling → Calling
  | 0, state => { state with now := time }
  | n + 1, state =>
    match state.next? time with
    | none => { state with now := time }
    | some (call, deadline) =>
      let (state, frames) := ({ state with now := deadline } : Calling).expire call
      runUntil time n (state.write frames)

def pass (state : Calling) (duration : Duration) : Calling :=
  runUntil ⟨state.now.nanoseconds + duration.nanoseconds⟩ state.waiting.length state

def clear (state : Calling) : Calling := { state with frames := [], settled := [] }

end Calling

end CodeNav
