import Mathlib.Data.List.Nodup
import CodeNav.Proofs.Channel.Log

/-! # Moves of a session

What a session does is told by twelve moves, as long as every frame and every task in it goes back
to a call in the log, and every request in work has a task.
-/

namespace CodeNav.Channel

variable {log log' : List Event} {id : Nat} {frame : Frame}

def Server.ids (server : Server) : List Nat := server.inFlight.map (·.1)

namespace Server

variable {server : Server}

theorem ids_untrack (server : Server) (id : Nat) :
    (server.untrack id).ids = server.ids.filter (· ≠ id) := by
  simp only [ids, untrack, List.filter_map]
  rfl

theorem ids_start (server : Server) (id : Nat) (work : Work) :
    (server.start id work).1.ids = server.ids.filter (· ≠ id) ++ [id] := by
  rw [← ids_untrack]
  simp [ids, start]

theorem mem_inFlight_of_lookup {number : Nat} (h : server.inFlight.lookup id = some number) :
    (id, number) ∈ server.inFlight := by
  obtain ⟨_, _, heq, -⟩ := List.lookup_eq_some_iff.mp h
  simp [heq]

theorem mem_ids_of_lookup {number : Nat} (h : server.inFlight.lookup id = some number) :
    id ∈ server.ids :=
  List.mem_map.mpr ⟨_, mem_inFlight_of_lookup h, rfl⟩

theorem not_mem_ids_of_lookup (h : server.inFlight.lookup id = none) : id ∉ server.ids := by
  intro hid
  obtain ⟨entry, hentry, rfl⟩ := List.mem_map.mp hid
  simpa using List.lookup_eq_none_iff.mp h entry hentry

end Server

/-- A frame on its way to the server: the request of a call, or the end of a dropped one. -/
def IsSent (log : List Event) (frame : Frame) : Prop :=
  (∃ id method params, .called id method params ∈ log ∧ method ≠ Frame.cancelMethod ∧
      frame = .request id method params) ∨
    ∃ id, .dropped id ∈ log ∧ frame = .cancel id

def IsAnswer (log : List Event) (id : Nat) (outcome : Outcome) : Prop :=
  IsOwnOutcome log id outcome ∨ .dropped id ∈ log

/-- A frame on its way back: the outcome of a call, or the end of a dropped one. -/
def IsReturned (log : List Event) (frame : Frame) : Prop :=
  ∃ id outcome, IsAnswer log id outcome ∧ outcome.received = outcome ∧
    frame = .response (some id) outcome

theorem IsSent.mono (h : IsSent log frame) (hlog : log ⊆ log') : IsSent log' frame := by
  rcases h with ⟨id, method, params, hcalled, hframe⟩ | ⟨id, hdropped, hframe⟩
  · exact .inl ⟨id, method, params, hlog hcalled, hframe⟩
  · exact .inr ⟨id, hlog hdropped, hframe⟩

theorem IsReturned.mono (h : IsReturned log frame) (hlog : log ⊆ log') :
    IsReturned log' frame := by
  obtain ⟨id, outcome, hanswer, hframe⟩ := h
  exact ⟨id, outcome, hanswer.imp (·.mono hlog) (hlog ·), hframe⟩

theorem IsRequested.exists_called {task : Task} (h : IsRequested log task) :
    ∃ method params, .called task.id method params ∈ log := by
  obtain ⟨method, params, hcalled, -⟩ := h
  exact ⟨method, params, hcalled⟩

theorem IsSent.exists_called (h : IsSent log frame) (hid : frame.id? = some id) :
    ∃ method params, .called id method params ∈ log := by
  rcases h with ⟨other, method, params, hcalled, -, rfl⟩ | ⟨other, -, rfl⟩
  · obtain rfl : other = id := Option.some.inj hid
    exact ⟨method, params, hcalled⟩
  · cases hid

theorem IsReturned.exists_called (hlog : IsConsistent log) (h : IsReturned log frame)
    (hid : frame.id? = some id) : ∃ method params, .called id method params ∈ log := by
  obtain ⟨other, outcome, hanswer, -, rfl⟩ := h
  obtain rfl : other = id := by simpa using hid
  rcases hanswer with ⟨task, rfl, hrequested, -⟩ | hdropped
  · exact hrequested.exists_called
  · exact hlog.exists_called hdropped

namespace Session

variable {s s' : Session}

/-- All that is under way goes back to calls in the log. -/
structure IsTraced (s : Session) : Prop where
  called : ∀ id method params, .called id method params ∈ s.log → id < s.caller.nextId
  pending : s.caller.pending = waiting s.log ∨ s.caller.isClosed = true ∧ s.caller.pending = []
  requests : ∀ frame ∈ s.requests, IsSent s.log frame
  tasks : ∀ task ∈ s.tasks, IsRequested s.log task
  responses : ∀ frame ∈ s.responses, IsReturned s.log frame
  log : IsConsistent s.log

/-- A request in work has a task of its own. -/
structure IsTracked (s : Session) : Prop where
  number_lt : ∀ task ∈ s.tasks, task.number < s.server.nextTask
  nodup : (s.tasks.map Task.number).Nodup
  inFlight : ∀ entry ∈ s.server.inFlight, ∃ task ∈ s.tasks, entry = (task.id, task.number)

theorem IsTraced.mem_waiting (hs : IsTraced s) (hid : id ∈ s.caller.pending) :
    id ∈ waiting s.log := by
  rcases hs.pending with heq | ⟨-, heq⟩
  · rwa [← heq]
  · simp [heq] at hid

theorem IsTraced.not_dropped (hs : IsTraced s) (hid : id ∈ s.caller.pending) :
    .dropped id ∉ s.log :=
  fun hdropped => hs.log.not_mem_waiting hdropped (hs.mem_waiting hid)

theorem IsTracked.eq_of_number_eq (ht : IsTracked s) {task task' : Task} (h : task ∈ s.tasks)
    (h' : task' ∈ s.tasks) (hnumber : task.number = task'.number) : task = task' :=
  List.inj_on_of_nodup_map ht.nodup h h' hnumber

theorem IsTracked.exists_find? (ht : IsTracked s) {number : Nat}
    (h : (id, number) ∈ s.server.inFlight) :
    ∃ task ∈ s.tasks, task.id = id ∧ s.tasks.find? (·.number = number) = some task := by
  obtain ⟨task, htask, heq⟩ := ht.inFlight _ h
  simp only [Prod.mk.injEq] at heq
  cases hfind : s.tasks.find? (·.number = number) with
  | none => simp [heq.2] at hfind; exact absurd rfl (hfind task htask)
  | some found =>
    have hnumber : found.number = number := by simpa using List.find?_some hfind
    have hfound := ht.eq_of_number_eq (List.mem_of_find?_eq_some hfind) htask (hnumber.trans heq.2)
    exact ⟨found, hfound ▸ htask, hfound ▸ heq.1.symm, rfl⟩

/-- The steps of a session by what they change. -/
inductive Move (s : Session) : Session → Prop where
  | idle (nextId : Nat) (h : s.caller.nextId ≤ nextId) :
      Move s { s with caller := { s.caller with nextId } }
  | call (method : String) (params : Json) (hmethod : method ≠ Frame.cancelMethod)
      (hopen : s.caller.isClosed = false) :
      Move s
        { s with
          caller := { s.caller with
            nextId := s.caller.nextId + 1
            pending := s.caller.pending ++ [s.caller.nextId] }
          requests := s.requests ++ [.request s.caller.nextId method params]
          log := .called s.caller.nextId method params :: s.log }
  | drop {id : Nat} (hid : id ∈ s.caller.pending) :
      Move s
        { s with
          caller := s.caller.settle id
          requests := s.requests ++ [.cancel id]
          log := .dropped id :: s.log }
  | accept {id : Nat} {method : String} {params : Json} {rest : List Frame}
      (hnext : s.requests = .request id method params :: rest)
      (hcalled : .called id method params ∈ s.log) :
      Move s
        { s with
          requests := rest
          server := (s.server.start id (.ofRequest method (some params))).1
          tasks := s.tasks ++ [⟨s.server.nextTask, id, .ofRequest method (some params)⟩] }
  | cancel {task : Task} {rest : List Frame} (hnext : s.requests = .cancel task.id :: rest)
      (hdropped : .dropped task.id ∈ s.log) (hwork : task.id ∈ s.server.ids) :
      Move s
        { s with
          requests := rest
          server := s.server.untrack task.id
          responses := s.responses ++ [.response (some task.id) (.error Server.cancelled)]
          log := .cancelled task :: s.log }
  | ignore {id : Nat} {rest : List Frame} (hnext : s.requests = .cancel id :: rest) :
      Move s { s with requests := rest }
  | answer {task : Task} {outcome : Outcome} (htask : task ∈ s.tasks)
      (hend : task.work.MayEnd outcome) (hwork : task.id ∈ s.server.ids) :
      Move s
        { s with
          server := s.server.untrack task.id
          tasks := s.tasks.filter (·.number ≠ task.number)
          responses := s.responses ++ [.response (some task.id) outcome]
          log := .computed task outcome :: s.log }
  | discard {task : Task} {outcome : Outcome} (htask : task ∈ s.tasks)
      (hend : task.work.MayEnd outcome) (hwork : task.id ∉ s.server.ids) :
      Move s
        { s with
          tasks := s.tasks.filter (·.number ≠ task.number)
          log := .computed task outcome :: s.log }
  | complete {id : Nat} {outcome : Outcome} {rest : List Frame}
      (hnext : s.responses = .response (some id) outcome :: rest)
      (hanswer : IsAnswer s.log id outcome) (hid : id ∈ s.caller.pending) :
      Move s
        { s with
          caller := s.caller.settle id
          responses := rest
          log := .completed id outcome :: s.log }
  | pass {id : Nat} {outcome : Outcome} {rest : List Frame}
      (hnext : s.responses = .response (some id) outcome :: rest) (hid : id ∉ s.caller.pending) :
      Move s { s with responses := rest }
  | closeCaller : Move s s.closeCaller
  | closeServer : Move s s.closeServer

theorem Step.move (hs : IsTraced s) (ht : IsTracked s) (h : Step s s') : Move s s' := by
  cases h with
  | call method params hmethod =>
    cases hopen : s.caller.isClosed with
    | false =>
      rw [call_of_open hopen]
      exact .call method params hmethod hopen
    | true =>
      rw [call_of_closed hopen]
      exact .idle _ (Nat.le_succ _)
  | drop id =>
    by_cases hid : id ∈ s.caller.pending
    · rw [drop_of_mem hid]
      exact .drop hid
    · rw [drop_of_not_mem hid]
      exact .idle _ (Nat.le_refl _)
  | @serve frame rest _ hnext h =>
    rcases hs.requests frame (by simp [hnext]) with
      ⟨id, method, params, hcalled, hmethod, rfl⟩ | ⟨id, hdropped, rfl⟩
    · rw [serve_request hnext hmethod h]
      exact .accept hnext hcalled
    · rcases serve_cancel hnext h with hserve | ⟨number, hlookup, hserve⟩
      · rw [hserve]
        exact .ignore hnext
      · -- What a request in work names is a task for the same call.
        obtain ⟨task, -, rfl, hfind⟩ := ht.exists_find? (Server.mem_inFlight_of_lookup hlookup)
        rw [hserve]
        simp only [perform, hfind]
        exact .cancel hnext hdropped (Server.mem_ids_of_lookup hlookup)
  | @finish task outcome htask hend =>
    cases hlookup : s.server.inFlight.lookup task.id with
    | none =>
      rw [finish_of_lookup_none hlookup]
      exact .discard htask hend (Server.not_mem_ids_of_lookup hlookup)
    | some number =>
      rw [finish_of_lookup_some hlookup]
      exact .answer htask hend (Server.mem_ids_of_lookup hlookup)
  | @read frame rest hnext h =>
    obtain ⟨id, outcome, hanswer, hreceived, rfl⟩ := hs.responses frame (by simp [hnext])
    by_cases hid : id ∈ s.caller.pending
    · rw [read_of_mem hnext hid h, hreceived]
      exact .complete hnext hanswer hid
    · rw [read_of_not_mem hnext hid h]
      exact .pass hnext hid
  | closeCaller => exact .closeCaller
  | closeServer => exact .closeServer

end Session

end CodeNav.Channel
