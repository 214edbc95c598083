import CodeNav.Channel.Lines
import CodeNav.Proofs.Channel.Moves

/-! # A server and whatever it reads

A server reads lines that anyone may have written, while its tasks end in any order and a writer
takes the frames from their queue. A task looks its request up by the identifier alone, and queues
the response later. A task that is given up stops, unless its backend has answered by then. When the
input has ended, the tasks are gone and the queue is empty, the server returns.
-/

namespace CodeNav.Channel

open Relation

/-- What a line says to a server. -/
inductive Message where
  | request (id : Nat) (work : Work)
  | cancel (id : Nat)
  | malformed
  /-- A blank line, a response, or a notification of anything else. -/
  | nothing

namespace Message

def ofFrame (frame : Frame) : Message :=
  match frame.method?, frame.id? with
  | none, _ => nothing
  | some method, id? =>
    if method = Frame.cancelMethod then
      match frame.cancelledId? with
      | some id => cancel id
      | none => nothing
    else
      match id? with
      | some id => request id (.ofRequest method frame.params?)
      | none => nothing

def ofLine (line : List Char) : Message :=
  if line.all Text.isBlank then nothing
  else
    match Frame.decode? line with
    | some frame => ofFrame frame
    | none => malformed

end Message

namespace Server

theorem receiveFrame_eq (server : Server) (frame : Frame) :
    server.receiveFrame frame =
      match Message.ofFrame frame with
      | .request id work => server.start id work
      | .cancel id => server.cancel id
      | .malformed => (server, [.send (.response none (.error malformed))])
      | .nothing => (server, []) := by
  rw [receiveFrame, Message.ofFrame]
  cases frame.method? with
  | none => rfl
  | some method =>
    by_cases hcancel : method = Frame.cancelMethod
    · simp only [hcancel, if_true]
      cases frame.cancelledId? <;> rfl
    · simp only [hcancel, if_false]
      cases frame.id? <;> rfl

/-- A server heeds nothing of a line but its message. -/
theorem receive_eq (server : Server) (line : List Char) :
    server.receive line =
      match Message.ofLine line with
      | .request id work => server.start id work
      | .cancel id => server.cancel id
      | .malformed => (server, [.send (.response none (.error malformed))])
      | .nothing => (server, []) := by
  rw [receive, Message.ofLine]
  split
  · rfl
  · cases Frame.decode? line with
    | none => rfl
    | some frame => exact receiveFrame_eq server frame

theorem lookup_of_not_mem_ids {server : Server} {id : Nat} (h : id ∉ server.ids) :
    server.inFlight.lookup id = none := by
  by_contra hlookup
  obtain ⟨number, hlookup⟩ := Option.ne_none_iff_exists'.mp hlookup
  exact h (mem_ids_of_lookup hlookup)

theorem lookup_untrack_self (server : Server) (id : Nat) :
    (server.untrack id).inFlight.lookup id = none := by
  rw [untrack, List.lookup_eq_none_iff]
  intro entry hentry
  have hne : entry.1 ≠ id := by simpa using (List.mem_filter.mp hentry).2
  exact bne_iff_ne.mpr hne.symm

theorem lookup_untrack_of_ne {id i : Nat} (server : Server) (h : i ≠ id) :
    (server.untrack id).inFlight.lookup i = server.inFlight.lookup i := by
  have hfilter (entries : List (Nat × Nat)) :
      (entries.filter (·.1 ≠ id)).lookup i = entries.lookup i := by
    induction entries with
    | nil => rfl
    | cons entry entries ih =>
      obtain ⟨j, number⟩ := entry
      by_cases hj : j = id
      · rw [List.filter_cons_of_neg (by simpa using hj), List.lookup_cons, hj,
          beq_false_of_ne h, ih]
      · rw [List.filter_cons_of_pos (by simpa using hj), List.lookup_cons, List.lookup_cons, ih]
  exact hfilter server.inFlight

theorem lookup_start_self (server : Server) (id : Nat) (work : Work) :
    (server.start id work).1.inFlight.lookup id = some server.nextTask := by
  rw [start, List.lookup_append, lookup_untrack_self]
  simp

theorem lookup_start_of_ne {id i : Nat} (server : Server) (work : Work) (h : i ≠ id) :
    (server.start id work).1.inFlight.lookup i = server.inFlight.lookup i := by
  rw [start, List.lookup_append, lookup_untrack_of_ne server h]
  simp [List.lookup_cons, beq_false_of_ne h]

end Server

inductive Service.Stage where
  | working
  /-- The backend has answered, and the request is not looked up yet. -/
  | ended (outcome : Outcome)
  | answering (response : Frame)

structure Service.Running where
  task : Task
  stage : Service.Stage

/-- A server reads until its input ends, and then until all is written, or until a line is no
text. -/
inductive Service.Phase where
  | reading
  | draining
  | returned
  | failed

inductive Service.Event where
  | read (line : List Char)
  /-- A task found a request under its identifier. -/
  | took (task : Task) (outcome : Outcome)
  | inputEnded

structure Service where
  server : Server := {}
  phase : Service.Phase := .reading
  /-- The frames that the reader has yet to queue. -/
  owed : List Frame := []
  tasks : List Service.Running := []
  /-- The frames that wait for the writer. -/
  queue : List Frame := []
  written : List Frame := []
  /-- The latest event comes first. -/
  log : List Service.Event := []

namespace Service

variable {s : Service} {id number : Nat} {work : Work} {line : List Char} {task : Task}
  {outcome : Outcome} {before after : List Running}

namespace Running

def response? (running : Running) : Option Frame :=
  match running.stage with
  | .working | .ended _ => none
  | .answering response => some response

/-- Whether giving up the task of this number stops it. -/
def isStoppedBy (running : Running) (number : Nat) : Bool :=
  match running.stage with
  | .working => running.task.number = number
  | .ended _ | .answering _ => false

end Running

def sent (s : Service) : List Frame := s.written ++ s.queue

/-- The responses that someone has yet to queue. -/
def unqueued (s : Service) : List Frame := s.owed ++ s.tasks.filterMap Running.response?

def frames (s : Service) : List Frame := s.sent ++ s.unqueued

def perform (s : Service) : Server.Effect → Service
  | .send frame => { s with owed := s.owed ++ [frame] }
  | .start number id work => { s with tasks := s.tasks ++ [⟨⟨number, id, work⟩, .working⟩] }
  | .abort number => { s with tasks := s.tasks.filter fun running => !running.isStoppedBy number }

def read (s : Service) (line : List Char) : Service :=
  let (server, effects) := s.server.receive line
  effects.foldl perform { s with server, log := .read line :: s.log }

/-- A task looks its request up, between the tasks before it and those after it. -/
def take (s : Service) (before : List Running) (task : Task) (outcome : Outcome)
    (after : List Running) : Service :=
  match s.server.finish task.id outcome with
  | (server, .send response :: _) =>
    { s with
      server
      tasks := before ++ ⟨task, .answering response⟩ :: after
      log := .took task outcome :: s.log }
  | _ => { s with tasks := before ++ after }

def endInput (s : Service) : Service :=
  let (server, effects) := s.server.endInput
  effects.foldl perform { s with server, phase := .draining, log := .inputEnded :: s.log }

/-- One step of a server. A request has an identifier that is not in work. -/
inductive Step (s : Service) : Service → Prop where
  | read (line : List Char) (hreading : s.phase = .reading) (howed : s.owed = [])
      (hnew : ∀ id work, Message.ofLine line = .request id work → id ∉ s.server.ids) :
      Step s (s.read line)
  | send {frame : Frame} {rest : List Frame} (howed : s.owed = frame :: rest) :
      Step s { s with owed := rest, queue := s.queue ++ [frame] }
  | conclude {before : List Running} {task : Task} {outcome : Outcome} {after : List Running}
      (htasks : s.tasks = before ++ ⟨task, .working⟩ :: after) (hend : task.work.MayEnd outcome) :
      Step s { s with tasks := before ++ ⟨task, .ended outcome⟩ :: after }
  | take {before : List Running} {task : Task} {outcome : Outcome} {after : List Running}
      (htasks : s.tasks = before ++ ⟨task, .ended outcome⟩ :: after) :
      Step s (s.take before task outcome after)
  | answer {before : List Running} {task : Task} {response : Frame} {after : List Running}
      (htasks : s.tasks = before ++ ⟨task, .answering response⟩ :: after) :
      Step s { s with tasks := before ++ after, queue := s.queue ++ [response] }
  | write {frame : Frame} {rest : List Frame} (hqueue : s.queue = frame :: rest) :
      Step s { s with queue := rest, written := s.written ++ [frame] }
  | endInput (hreading : s.phase = .reading) (howed : s.owed = []) : Step s s.endInput
  /-- A line that is no text ends the server at once, but not its tasks or the writer. -/
  | fail {bytes : List UInt8} (htext : lineText? bytes = none) (hreading : s.phase = .reading)
      (howed : s.owed = []) : Step s { s with phase := .failed }
  | leave (hdraining : s.phase = .draining) (htasks : s.tasks = []) (hqueue : s.queue = []) :
      Step s { s with phase := .returned }

def Reachable (s : Service) : Prop := ReflTransGen Step {} s

theorem read_request (h : Message.ofLine line = .request id work) :
    s.read line =
      { s with
        server := (s.server.start id work).1
        tasks := s.tasks ++ [⟨⟨s.server.nextTask, id, work⟩, .working⟩]
        log := .read line :: s.log } := by
  simp only [read, Server.receive_eq, h]
  rfl

theorem read_cancel_of_lookup_some (h : Message.ofLine line = .cancel id)
    (hlookup : s.server.inFlight.lookup id = some number) :
    s.read line =
      { s with
        server := s.server.untrack id
        owed := s.owed ++ [.response (some id) (.error Server.cancelled)]
        tasks := s.tasks.filter fun running => !running.isStoppedBy number
        log := .read line :: s.log } := by
  simp only [read, Server.receive_eq, h, Server.cancel, hlookup]
  rfl

theorem read_cancel_of_lookup_none (h : Message.ofLine line = .cancel id)
    (hlookup : s.server.inFlight.lookup id = none) :
    s.read line = { s with log := .read line :: s.log } := by
  simp only [read, Server.receive_eq, h, Server.cancel, hlookup]
  rfl

theorem read_malformed (h : Message.ofLine line = .malformed) :
    s.read line =
      { s with
        owed := s.owed ++ [.response none (.error Server.malformed)]
        log := .read line :: s.log } := by
  simp only [read, Server.receive_eq, h]
  rfl

theorem read_nothing (h : Message.ofLine line = .nothing) :
    s.read line = { s with log := .read line :: s.log } := by
  simp only [read, Server.receive_eq, h]
  rfl

theorem take_of_lookup_some (hlookup : s.server.inFlight.lookup task.id = some number)
    (before : List Running) (outcome : Outcome) (after : List Running) :
    s.take before task outcome after =
      { s with
        server := s.server.untrack task.id
        tasks := before ++ ⟨task, .answering (.response (some task.id) outcome)⟩ :: after
        log := .took task outcome :: s.log } := by
  simp only [take, Server.finish, hlookup]

theorem take_of_lookup_none (hlookup : s.server.inFlight.lookup task.id = none)
    (before : List Running) (outcome : Outcome) (after : List Running) :
    s.take before task outcome after = { s with tasks := before ++ after } := by
  simp only [take, Server.finish, hlookup]

theorem foldl_perform_abort (numbers : List Nat) (s : Service) :
    (numbers.map Server.Effect.abort).foldl perform s =
      { s with tasks := s.tasks.filter fun running => !numbers.any running.isStoppedBy } := by
  induction numbers generalizing s with
  | nil => simp
  | cons number numbers ih =>
    rw [List.map_cons, List.foldl_cons, ih, perform, List.filter_filter]
    simp [Bool.and_comm]

theorem endInput_eq (s : Service) :
    s.endInput =
      { s with
        server := { s.server with inFlight := [] }
        phase := .draining
        tasks := s.tasks.filter fun running =>
          !(s.server.inFlight.map Prod.snd).any running.isStoppedBy
        log := .inputEnded :: s.log } := by
  have heffects : s.server.endInput =
      ({ s.server with inFlight := [] }, (s.server.inFlight.map Prod.snd).map .abort) := by
    rw [Server.endInput, List.map_map]
    rfl
  simp only [endInput, heffects, foldl_perform_abort]

end Service

end CodeNav.Channel
