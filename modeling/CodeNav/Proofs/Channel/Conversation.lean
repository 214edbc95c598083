import Mathlib.Logic.Function.Basic
import Mathlib.Logic.Relation
import CodeNav.Channel.Caller

/-! # A caller among its calls

Calls of one caller run at once with the reader of its input and the writer of its output, against a
peer that may write any lines. A call is registered first and queues its request later; one that is
given up is forgotten first and queues its cancellation later. In between the session may close, and
the writer may stop, after which nothing is queued.
-/

namespace CodeNav.Channel

open Relation

/-- The call that a line responds to, and the outcome that it reports. -/
def response? (line : List Char) : Option (Nat × Outcome) :=
  if line.all Text.isBlank then none
  else do
    let frame ← Frame.decode? line
    let id ← frame.id?
    if frame.isResponse then some (id, frame.outcome) else none

/-- A line completes the call that it responds to, if that call is pending. -/
theorem Caller.receive_eq (caller : Caller) (line : List Char) :
    caller.receive line =
      match response? line with
      | some (id, outcome) =>
        if id ∈ caller.pending then (caller.settle id, some (id, outcome)) else (caller, none)
      | none => (caller, none) := by
  unfold Caller.receive response?
  split
  · rfl
  · cases Frame.decode? line with
    | none => rfl
    | some frame =>
      cases hid : frame.id? with
      | none => simp [receiveFrame, hid]
      | some id => cases hresponse : frame.isResponse <;> simp [receiveFrame, hid, hresponse]

/-- Where a call stands: it has a frame to queue, or waits. -/
inductive Conversation.Stage where
  | opening (request : Frame)
  | waiting
  | closing (cancellation : Frame)

structure Conversation.Running where
  method : String
  stage : Stage
  /-- The outcome that was handed to the call. -/
  outcome? : Option Outcome := none

inductive Conversation.Deed where
  | opened (method : String) (params : Json)
  | refused
  | queued (frame : Frame)
  /-- The writer had stopped. -/
  | unsent (frame : Frame)
  | dropped (wasPending : Bool)
  | returned (result : Except CallError Json)

inductive Conversation.Event where
  | call (id : Nat) (deed : Deed)
  | read (line : List Char)
  | closed

/-- A failed write closes the session, and then the writer stops. -/
inductive Conversation.Writer where
  | running
  | failed
  | stopped
  deriving DecidableEq

/-- A caller with the calls that run, by their identifiers, and the log, the latest event first. -/
structure Conversation where
  caller : Caller := {}
  isReading : Bool := true
  writer : Conversation.Writer := .running
  calls : Nat → Option Conversation.Running := fun _ => none
  log : List Conversation.Event := []

namespace Conversation

variable {s s' : Conversation} {id other : Nat} {method : String} {params : Json}
  {outcome : Outcome} {line : List Char} {running? : Option Running}
  {deeds : List Deed} {log : List Event}

def trace (id : Nat) (log : List Event) : List Deed :=
  log.filterMap fun event =>
    match event with
    | .call other deed => if other = id then some deed else none
    | _ => none

def put (s : Conversation) (id : Nat) (running? : Option Running) (deeds : List Deed) :
    Conversation :=
  { s with
    calls := Function.update s.calls id running?
    log := deeds.map (.call id) ++ s.log }

/-- A call begins. It is registered, unless the session is closed. -/
def call (s : Conversation) (method : String) (params : Json) : Conversation :=
  match s.caller.start method params with
  | (caller, none) =>
    { s with caller }.put s.caller.nextId none [.returned (.error .closed), .refused]
  | (caller, some (id, request)) =>
    { s with caller }.put id (some ⟨method, .opening request, none⟩) [.opened method params]

def read (s : Conversation) (line : List Char) : Conversation :=
  match s.caller.receive line with
  | (caller, none) => { s with caller, log := .read line :: s.log }
  | (caller, some (id, outcome)) =>
    { s with
      caller
      calls := Function.update s.calls id
        ((s.calls id).map fun running => { running with outcome? := some outcome })
      log := .read line :: s.log }

def close (s : Conversation) : Conversation :=
  { s with caller := s.caller.close.1, log := .closed :: s.log }

def fail (s : Conversation) (id : Nat) (request : Frame) : Conversation :=
  { s with caller := (s.caller.drop id).1 }.put id none
    [.returned (.error .stopped), .unsent request]

def drop (s : Conversation) (id : Nat) (method : String) : Conversation :=
  match s.caller.drop id with
  | (caller, none) => { s with caller }.put id none [.dropped false]
  | (caller, some cancellation) =>
    { s with caller }.put id (some ⟨method, .closing cancellation, none⟩) [.dropped true]

inductive Progress (s : Conversation) : Conversation → Prop where
  | send {id : Nat} {method : String} {request : Frame} {outcome? : Option Outcome}
      (hcall : s.calls id = some ⟨method, .opening request, outcome?⟩)
      (hwriter : s.writer ≠ .stopped) :
      Progress s (s.put id (some ⟨method, .waiting, outcome?⟩) [.queued request])
  | fail {id : Nat} {method : String} {request : Frame} {outcome? : Option Outcome}
      (hcall : s.calls id = some ⟨method, .opening request, outcome?⟩)
      (hwriter : s.writer = .stopped) : Progress s (s.fail id request)
  | read (line : List Char) (h : s.isReading) : Progress s (s.read line)
  | endInput (h : s.isReading) : Progress s { s.close with isReading := false }
  | failWrite (h : s.writer = .running) : Progress s { s.close with writer := .failed }
  | stopWriter (h : s.writer = .failed) : Progress s { s with writer := .stopped }
  | answer {id : Nat} {method : String} {outcome : Outcome}
      (hcall : s.calls id = some ⟨method, .waiting, some outcome⟩) :
      Progress s (s.put id none [.returned (Caller.result method outcome)])
  | interrupt {id : Nat} {method : String} (hcall : s.calls id = some ⟨method, .waiting, none⟩)
      (hpending : id ∉ s.caller.pending) :
      Progress s (s.put id none [.returned (.error (.interrupted method))])
  | drop {id : Nat} {method : String} {outcome? : Option Outcome}
      (hcall : s.calls id = some ⟨method, .waiting, outcome?⟩) : Progress s (s.drop id method)
  | sendCancel {id : Nat} {method : String} {cancellation : Frame} {outcome? : Option Outcome}
      (hcall : s.calls id = some ⟨method, .closing cancellation, outcome?⟩)
      (hwriter : s.writer ≠ .stopped) : Progress s (s.put id none [.queued cancellation])
  | failCancel {id : Nat} {method : String} {cancellation : Frame} {outcome? : Option Outcome}
      (hcall : s.calls id = some ⟨method, .closing cancellation, outcome?⟩)
      (hwriter : s.writer = .stopped) : Progress s (s.put id none [.unsent cancellation])

inductive Step (s : Conversation) : Conversation → Prop where
  | call (method : String) (params : Json) : Step s (s.call method params)
  | progress {s' : Conversation} (h : Progress s s') : Step s s'

def Reachable (s : Conversation) : Prop := ReflTransGen Step {} s

theorem call_of_open (h : s.caller.isClosed = false) (method : String) (params : Json) :
    s.call method params =
      { s with caller := { s.caller with
          nextId := s.caller.nextId + 1
          pending := s.caller.pending ++ [s.caller.nextId] } }.put s.caller.nextId
        (some ⟨method, .opening (.request s.caller.nextId method params), none⟩)
        [.opened method params] := by
  simp only [call, Caller.start, h, Bool.false_eq_true, if_false]

theorem call_of_closed (h : s.caller.isClosed = true) (method : String) (params : Json) :
    s.call method params =
      { s with caller := { s.caller with nextId := s.caller.nextId + 1 } }.put s.caller.nextId
        none [.returned (.error .closed), .refused] := by
  simp only [call, Caller.start, h, if_true]

theorem read_of_mem (hline : response? line = some (id, outcome)) (hid : id ∈ s.caller.pending) :
    s.read line =
      { s with
        caller := s.caller.settle id
        calls := Function.update s.calls id
          ((s.calls id).map fun running => { running with outcome? := some outcome })
        log := .read line :: s.log } := by
  simp only [read, Caller.receive_eq, hline, if_pos hid]

theorem read_of_not_mem
    (h : ∀ id outcome, response? line = some (id, outcome) → id ∉ s.caller.pending) :
    s.read line = { s with log := .read line :: s.log } := by
  unfold read
  rw [Caller.receive_eq]
  cases hline : response? line with
  | none => rfl
  | some response => simp [h response.1 response.2 hline]

theorem drop_of_mem (h : id ∈ s.caller.pending) (method : String) :
    s.drop id method =
      { s with caller := s.caller.settle id }.put id
        (some ⟨method, .closing (.cancel id), none⟩) [.dropped true] := by
  simp [drop, Caller.drop, h]

theorem drop_of_not_mem (h : id ∉ s.caller.pending) (method : String) :
    s.drop id method = s.put id none [.dropped false] := by
  simp [drop, Caller.drop, h]

theorem fail_of_not_mem (h : id ∉ s.caller.pending) (request : Frame) :
    s.fail id request = s.put id none [.returned (.error .stopped), .unsent request] := by
  simp [fail, Caller.drop, h]

@[simp] theorem calls_put_self : (s.put id running? deeds).calls id = running? :=
  Function.update_self ..

theorem calls_put_of_ne (h : other ≠ id) : (s.put id running? deeds).calls other = s.calls other :=
  Function.update_of_ne h ..

theorem trace_append (id : Nat) (later log : List Event) :
    trace id (later ++ log) = trace id later ++ trace id log := by
  simp [trace]

theorem trace_put_self : trace id (s.put id running? deeds).log = deeds ++ trace id s.log := by
  have hdeeds : trace id (deeds.map (.call id)) = deeds := by
    simp only [trace, List.filterMap_map, Function.comp_def, if_true, List.filterMap_some]
  rw [put, trace_append, hdeeds]

theorem trace_put_of_ne (h : other ≠ id) :
    trace other (s.put id running? deeds).log = trace other s.log := by
  have hdeeds : trace other (deeds.map (.call id)) = [] := by simp [trace, Ne.symm h]
  rw [put, trace_append, hdeeds, List.nil_append]

theorem mem_trace_iff {deed : Deed} : deed ∈ trace id log ↔ .call id deed ∈ log := by
  unfold trace
  rw [List.mem_filterMap]
  constructor
  · rintro ⟨event, hevent, heq⟩
    cases event with
    | call other deed' =>
      obtain ⟨rfl, rfl⟩ : other = id ∧ deed' = deed := by simpa using heq
      exact hevent
    | read line => cases heq
    | closed => cases heq
  · intro h
    exact ⟨_, h, by simp⟩

end Conversation

end CodeNav.Channel
