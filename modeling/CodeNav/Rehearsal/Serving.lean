import CodeNav.Channel.Lines
import CodeNav.Channel.Server
import CodeNav.Rehearsal.Script

/-! # Rehearsing a server

A server over a scripted backend in virtual time. All lines that have arrived are read before any
task runs; tasks run in the order in which they became ready; and time passes only while none is.
-/

namespace CodeNav

open Channel

/-- What waits for its turn. -/
inductive Serving.Ready where
  | start (task id : Nat) (work : Work)
  | drop (name : String)

/-- A task that waits for its backend. -/
structure Serving.Running where
  task : Nat
  id : Nat
  event : BackendEvent
  /-- When the backend answers, and what. -/
  answer? : Option (Instant × Outcome)

structure Serving where
  server : Server := {}
  script : Script
  now : Instant := ⟨0⟩
  /-- The bytes of a line that has not ended. -/
  buffer : List UInt8 := []
  isReading : Bool := true
  isStopped : Bool := false
  ready : List Serving.Ready := []
  running : List Serving.Running := []
  frames : List Frame := []
  events : List BackendEvent := []
  result? : Option (Except ErrorChain Unit) := none

namespace Serving

/-- The event of the work with a backend; work that is refused makes none. -/
def event? : Work → Option BackendEvent
  | .search query => some (.search query)
  | .warmUp => some .warmUp
  | .refused _ => none

/-- Gives a task up. One that has not begun leaves no trace. -/
def abort (state : Serving) (task : Nat) : Serving :=
  let isStart : Ready → Bool
    | .start other _ _ => other == task
    | .drop _ => false
  let dropped := state.running.filter (·.task == task)
  { state with
    ready := state.ready.filter (!isStart ·) ++ dropped.map fun running =>
      Ready.drop running.event.name
    running := state.running.filter (·.task != task) }

def perform (state : Serving) (effect : Server.Effect) : Serving :=
  match effect with
  | .send frame => { state with frames := state.frames ++ [frame] }
  | .start task id work => { state with ready := state.ready ++ [Ready.start task id work] }
  | .abort task => state.abort task

def update (state : Serving) (result : Server × List Server.Effect) : Serving :=
  result.2.foldl perform { state with server := result.1 }

def turn (state : Serving) : Ready → Serving
  | .drop name => { state with events := state.events ++ [BackendEvent.dropped name] }
  | .start task id work =>
    let reply := work.reply state.script.backend
    match event? work, reply with
    | some event, .never =>
      { state with
        events := state.events ++ [event]
        running := state.running ++ [⟨task, id, event, none⟩] }
    | some event, .after delay outcome =>
      let state : Serving := { state with events := state.events ++ [event] }
      if delay.nanoseconds = 0 then state.update (state.server.finish id outcome)
      else
        let time : Instant := ⟨state.now.nanoseconds + delay.nanoseconds⟩
        { state with running := state.running ++ [⟨task, id, event, some (time, outcome)⟩] }
    | none, .after _ outcome => state.update (state.server.finish id outcome)
    | none, .never => state

def settle (state : Serving) : Serving :=
  let state := state.ready.foldl turn { state with ready := [] }
  if !state.isReading && !state.isStopped && state.running.isEmpty then
    { state with isStopped := true, result? := some (.ok ()) }
  else state

/-- Reads a line. One that is no text ends the server, but not the tasks that run. -/
def readLine (state : Serving) (text? : Option (List Char)) : Serving :=
  if state.isReading then
    match text? with
    | some line => state.update (state.server.receive line)
    | none =>
      { state with isReading := false, isStopped := true, result? := some (.error readError) }
  else state

def receive (state : Serving) (bytes : List UInt8) : Serving :=
  let (lines, rest) := cutLines (state.buffer ++ bytes)
  let state : Serving := { state with buffer := rest }
  (lines.foldl (fun (state : Serving) line => state.readLine (lineText? line)) state).settle

/-- The end of the input. A line that has not ended counts as well. -/
def endInput (state : Serving) : Serving :=
  let state := if state.buffer.isEmpty then state else state.readLine (Text.Utf8.strict? state.buffer)
  if state.isReading then
    let state := state.update state.server.endInput
    ({ state with isReading := false }).settle
  else state.settle

/-- The task that ends first, up to the given time. -/
def next? (state : Serving) (time : Instant) : Option (Running × Instant × Outcome) :=
  state.running.foldl (fun best? running =>
    match running.answer?, best? with
    | some (ends, outcome), none => if ends ≤ time then some (running, ends, outcome) else none
    | some (ends, outcome), some (_, soonest, _) =>
      if ends < soonest then some (running, ends, outcome) else best?
    | none, _ => best?) none

def finishNext (state : Serving) (running : Running) (ends : Instant) (outcome : Outcome) :
    Serving :=
  let state : Serving :=
    { state with now := ends, running := state.running.filter (·.task != running.task) }
  (state.update (state.server.finish running.id outcome)).settle

/-- Ends at most `n` tasks, up to the given time. -/
def runUntil (time : Instant) : Nat → Serving → Serving
  | 0, state => { state with now := time }
  | n + 1, state =>
    match state.next? time with
    | none => { state with now := time }
    | some (running, ends, outcome) => runUntil time n (state.finishNext running ends outcome)

def pass (state : Serving) (duration : Duration) : Serving :=
  runUntil ⟨state.now.nanoseconds + duration.nanoseconds⟩ state.running.length state

def clear (state : Serving) : Serving := { state with frames := [], events := [], result? := none }

end Serving

end CodeNav
