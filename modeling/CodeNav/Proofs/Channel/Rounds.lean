import CodeNav.Proofs.Channel.Service

/-! # The fate of each request

What becomes of the requests that a server has read can be told from the log alone. The first later
event that concerns a request decides its fate: a task looks up its identifier, a line cancels it,
or the input ends. The task need not be that of the request.
-/

namespace CodeNav.Channel.Service

inductive Fate where
  /-- The task of this number took the request. -/
  | answered (number : Nat) (outcome : Outcome)
  | cancelled
  | abandoned

def Fate.answer? : Fate → Option Outcome
  | answered _ outcome => some outcome
  | cancelled => some (.error Server.cancelled)
  | abandoned => none

/-- A request that was read, with the number of its task. -/
structure Round where
  number : Nat
  work : Work
  /-- There is none while the request is in work. -/
  fate? : Option Fate := none

def Round.answer? (round : Round) : Option Outcome := round.fate?.bind Fate.answer?

namespace Event

def request? : Event → Option (Nat × Work)
  | read line =>
    match Message.ofLine line with
    | .request id work => some (id, work)
    | .cancel _ | .malformed | .nothing => none
  | took .. | inputEnded => none

def Requests (event : Event) (i : Nat) : Bool := event.request?.any (·.1 = i)

def Cancels (event : Event) (i : Nat) : Bool :=
  match event with
  | read line =>
    match Message.ofLine line with
    | .cancel id => id = i
    | .request .. | .malformed | .nothing => false
  | took .. | inputEnded => false

def isMalformed : Event → Bool
  | read line =>
    match Message.ofLine line with
    | .malformed => true
    | .request .. | .cancel _ | .nothing => false
  | took .. | inputEnded => false

/-- What becomes of a request in work that bears the identifier `i`. -/
def fate? (event : Event) (i : Nat) : Option Fate :=
  match event with
  | read _ => if event.Cancels i then some .cancelled else none
  | took task outcome => if task.id = i then some (.answered task.number outcome) else none
  | inputEnded => some .abandoned

end Event

def started (log : List Event) : Nat := log.countP (·.request?.isSome)

def requests (i : Nat) (log : List Event) : Nat := log.countP (·.Requests i)

def Round.next (i : Nat) (event : Event) (round : Round) : Round :=
  { round with fate? := round.fate?.or (event.fate? i) }

def opened (i number : Nat) (event : Event) : List Round :=
  match event.request? with
  | some (id, work) => if id = i then [{ number, work }] else []
  | none => []

/-- The requests that bore an identifier, the earliest one first, with their fates. -/
def rounds (i : Nat) : List Event → List Round
  | [] => []
  | event :: earlier => (rounds i earlier).map (.next i event) ++ opened i (started earlier) event

/-- What was sent in response to an identifier. -/
def outcomes (i : Nat) (frames : List Frame) : List Outcome :=
  frames.filterMap fun frame => if frame.id? = some i then some frame.outcome else none

variable {i j number : Nat} {work : Work} {event : Event} {fate : Fate} {round : Round}
  {log : List Event} {list : List Round}

theorem opened_cases (i number : Nat) (event : Event) :
    opened i number event = [] ∧ event.Requests i = false ∨
      ∃ work, opened i number event = [{ number, work }] ∧ event.request? = some (i, work) := by
  rw [opened, Event.Requests]
  cases hrequest : event.request? with
  | none => exact .inl ⟨rfl, rfl⟩
  | some request =>
    obtain ⟨id, work⟩ := request
    by_cases hid : id = i
    · subst hid
      exact .inr ⟨work, by simp, rfl⟩
    · exact .inl ⟨by simp [hid], by simp [hid]⟩

theorem started_cons (event : Event) (log : List Event) :
    started (event :: log) = started log + if event.request?.isSome then 1 else 0 :=
  List.countP_cons ..

theorem numbers_rounds_cons (i : Nat) (event : Event) (log : List Event) :
    (rounds i (event :: log)).map Round.number =
      (rounds i log).map Round.number ++ (opened i (started log) event).map Round.number := by
  rw [rounds, List.map_append, List.map_map]
  rfl

theorem number_lt_started (h : number ∈ (rounds i log).map Round.number) :
    number < started log := by
  induction log with
  | nil => simp [rounds] at h
  | cons event earlier ih =>
    rw [numbers_rounds_cons, List.mem_append] at h
    rw [started_cons]
    rcases h with h | h
    · exact Nat.lt_add_right _ (ih h)
    · rcases opened_cases i (started earlier) event with ⟨hopened, -⟩ | ⟨work, hopened, hrequest⟩
      · simp [hopened] at h
      · obtain rfl : number = started earlier := by simpa [hopened] using h
        simp [hrequest]

theorem pairwise_numbers (i : Nat) (log : List Event) :
    ((rounds i log).map Round.number).Pairwise (· < ·) := by
  induction log with
  | nil => exact List.Pairwise.nil
  | cons event earlier ih =>
    rw [numbers_rounds_cons]
    rcases opened_cases i (started earlier) event with ⟨hopened, -⟩ | ⟨work, hopened, -⟩
    · simpa [hopened] using ih
    · rw [hopened, List.map_singleton, List.pairwise_append]
      refine ⟨ih, List.pairwise_singleton .., fun number hnumber last hlast => ?_⟩
      rw [List.mem_singleton.mp hlast]
      exact number_lt_started hnumber

theorem mem_rounds_cons (h : round ∈ rounds i (event :: log)) :
    (∃ round' ∈ rounds i log, round = round'.next i event) ∨
      ∃ work, round = { number := started log, work } ∧ event.request? = some (i, work) := by
  rw [rounds, List.mem_append, List.mem_map] at h
  rcases h with ⟨round', hmem, rfl⟩ | h
  · exact .inl ⟨round', hmem, rfl⟩
  · rcases opened_cases i (started log) event with ⟨hopened, -⟩ | ⟨work, hopened, hrequest⟩
    · simp [hopened] at h
    · exact .inr ⟨work, by simpa [hopened] using h, hrequest⟩

/-- The requests with one identifier, and the number of the one in work. Only the last one can be
that. -/
inductive Books : Option Nat → List Round → Prop where
  | settled {list : List Round} (h : ∀ round ∈ list, round.fate? ≠ none) : Books none list
  | waiting {list : List Round} {number : Nat} {work : Work}
      (h : ∀ round ∈ list, round.fate? ≠ none) :
      Books (some number) (list ++ [⟨number, work, none⟩])

theorem Round.next_of_settled (h : round.fate? ≠ none) (i : Nat) (event : Event) :
    round.next i event = round := by
  obtain ⟨number, work, fate?⟩ := round
  cases fate? with
  | none => exact absurd rfl h
  | some fate => rfl

theorem map_next_of_settled (h : ∀ round ∈ list, round.fate? ≠ none) (i : Nat) (event : Event) :
    list.map (.next i event) = list :=
  (List.map_congr_left fun round hround => round.next_of_settled (h round hround) i event).trans
    (List.map_id list)

namespace Books

variable {number? : Option Nat}

theorem map_next_eq (hb : Books number? list) (h : number?.isSome → event.fate? i = none) :
    list.map (.next i event) = list := by
  cases hb with
  | settled hsettled => exact map_next_of_settled hsettled i event
  | @waiting list number work hsettled =>
    rw [List.map_append, map_next_of_settled hsettled]
    simp [Round.next, h rfl]

theorem settle (hb : Books (some number) list) (h : event.fate? i = some fate) :
    Books none (list.map (.next i event)) ∧
      (list.map (.next i event)).filterMap Round.answer? =
        list.filterMap Round.answer? ++ fate.answer?.toList := by
  cases hb with
  | @waiting list _ work hsettled =>
    have hnext : (list ++ [Round.mk number work none]).map (.next i event) =
        list ++ [Round.mk number work (some fate)] := by
      rw [List.map_append, map_next_of_settled hsettled]
      simp [Round.next, h]
    rw [hnext]
    refine ⟨.settled fun round hround => ?_, ?_⟩
    · rcases List.mem_append.mp hround with hround | hround
      · exact hsettled round hround
      · rw [List.mem_singleton.mp hround]
        exact Option.some_ne_none fate
    · rw [List.filterMap_append, List.filterMap_append]
      cases hanswer : fate.answer? <;> simp [Round.answer?, hanswer]

theorem start (hb : Books none list) (number : Nat) (work : Work) :
    Books (some number) (list ++ [⟨number, work, none⟩]) := by
  cases hb with
  | settled hsettled => exact .waiting hsettled

theorem exists_open (hb : Books (some number) list) :
    ∃ work, ⟨number, work, none⟩ ∈ list := by
  cases hb with
  | @waiting list _ work => exact ⟨work, by simp⟩

theorem number_eq (hb : Books (some number) list) (hround : round ∈ list)
    (hopen : round.fate? = none) : round.number = number := by
  cases hb with
  | waiting hsettled =>
    rcases List.mem_append.mp hround with hround | hround
    · exact absurd hopen (hsettled round hround)
    · exact congrArg Round.number (List.mem_singleton.mp hround)

/-- A request that is in work is the one with the greatest number. -/
theorem number_le (hb : Books (some number) list)
    (hsorted : (list.map Round.number).Pairwise (· < ·)) (hround : round ∈ list) :
    round.number ≤ number := by
  cases hb with
  | @waiting list _ work =>
    rw [List.map_append, List.pairwise_append] at hsorted
    rcases List.mem_append.mp hround with hround | hround
    · exact Nat.le_of_lt (hsorted.2.2 _ (List.mem_map_of_mem hround) number (by simp))
    · exact Nat.le_of_eq (congrArg Round.number (List.mem_singleton.mp hround))

end Books

theorem fate?_next (h : (round.next i event).fate? = some fate) :
    round.fate? = some fate ∨ event.fate? i = some fate := by
  rcases Option.or_eq_some_iff.mp h with h | ⟨-, h⟩
  · exact .inl h
  · exact .inr h

def uncancelled (j : Nat) (log : List Event) : List Event :=
  log.filter fun event => !event.Cancels j

end CodeNav.Channel.Service
