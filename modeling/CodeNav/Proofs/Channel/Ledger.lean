import CodeNav.Proofs.Channel.Rounds

/-! # What the log knows of a server

The log explains which requests a server has in work and what it has sent or has yet to send: every
event has its place in the books, identifier by identifier. The log also tells whose outcome a
response bears, and which tasks are no longer wanted.
-/

namespace CodeNav.Channel

theorem Frame.outcome_response_some (id? : Option Nat) (outcome : Outcome) :
    (Frame.response id? outcome).outcome = outcome := by
  cases outcome <;> rfl

namespace Work

end Work

namespace Service

variable {s s' : Service} {i id number : Nat} {work : Work} {task : Task} {outcome : Outcome}
  {event : Event} {fate : Fate} {round : Round} {log : List Event} {server : Server}
  {frames others : List Frame} {line : List Char} {list : List Round} {tasks : List Running}
  {before after : List Running}

def anonymous (frames : List Frame) : List Frame := frames.filter (·.id?.isNone)

theorem outcomes_append (i : Nat) (frames others : List Frame) :
    outcomes i (frames ++ others) = outcomes i frames ++ outcomes i others :=
  List.filterMap_append

theorem anonymous_append (frames others : List Frame) :
    anonymous (frames ++ others) = anonymous frames ++ anonymous others :=
  List.filter_append ..

theorem outcomes_response_self (i : Nat) (outcome : Outcome) :
    outcomes i [.response (some i) outcome] = [outcome] := by
  simp [outcomes, Frame.outcome_response_some]

theorem outcomes_response_of_ne {id? : Option Nat} (h : id? ≠ some i) (outcome : Outcome) :
    outcomes i [.response id? outcome] = [] := by
  simp [outcomes, h]

/-- The log explains what the server has in work, and the frames that it has sent or owes, in some
order. -/
structure Ledger (server : Server) (log : List Event) (frames : List Frame) : Prop where
  number : server.nextTask = started log
  books : ∀ i, Books (server.inFlight.lookup i) (rounds i log)
  answers : ∀ i, (outcomes i frames).Perm ((rounds i log).filterMap Round.answer?)
  anonymous : anonymous frames =
    .replicate (log.countP Event.isMalformed) (.response none (.error Server.malformed))

namespace Ledger

theorem of_perm (hl : Ledger server log frames) (h : others.Perm frames) :
    Ledger server log others where
  number := hl.number
  books := hl.books
  answers i := (h.filterMap _).trans (hl.answers i)
  anonymous := List.perm_replicate.mp ((h.filter _).trans (.of_eq hl.anonymous))

/-- An event that concerns no request in work. -/
theorem pass (hl : Ledger server log frames) (others : List Frame)
    (hrequest : event.request? = none)
    (hfate : ∀ i, (server.inFlight.lookup i).isSome → event.fate? i = none)
    (houtcomes : ∀ i, outcomes i others = [])
    (hanonymous : Service.anonymous others =
      .replicate (if event.isMalformed then 1 else 0) (.response none (.error Server.malformed))) :
    Ledger server (event :: log) (frames ++ others) := by
  have hrounds (i : Nat) : rounds i (event :: log) = rounds i log := by
    rw [rounds, (hl.books i).map_next_eq (hfate i), opened, hrequest, List.append_nil]
  constructor
  · rw [started_cons, hrequest]
    exact hl.number
  · intro i
    rw [hrounds]
    exact hl.books i
  · intro i
    rw [hrounds, outcomes_append, houtcomes, List.append_nil]
    exact hl.answers i
  · rw [anonymous_append, hl.anonymous, hanonymous, List.countP_cons,
      List.replicate_append_replicate]

theorem answer (hl : Ledger server log frames) (hlookup : server.inFlight.lookup id = some number)
    (hrequest : event.request? = none) (hmalformed : event.isMalformed = false)
    (hfate : event.fate? id = some fate) (hothers : ∀ i, i ≠ id → event.fate? i = none)
    (hanswer : fate.answer? = some outcome) :
    Ledger (server.untrack id) (event :: log) (frames ++ [.response (some id) outcome]) := by
  have hself := (hlookup ▸ hl.books id).settle hfate
  have hrounds (i : Nat) : rounds i (event :: log) = (rounds i log).map (.next i event) := by
    rw [rounds, opened, hrequest, List.append_nil]
  have hsame {i : Nat} (hi : i ≠ id) : (rounds i log).map (.next i event) = rounds i log :=
    (hl.books i).map_next_eq fun _ => hothers i hi
  constructor
  · rw [started_cons, hrequest]
    exact hl.number
  · intro i
    rw [hrounds]
    by_cases hi : i = id
    · rw [hi, Server.lookup_untrack_self]
      exact hself.1
    · rw [hsame hi, Server.lookup_untrack_of_ne server hi]
      exact hl.books i
  · intro i
    rw [hrounds, outcomes_append]
    by_cases hi : i = id
    · rw [hi, hself.2, hanswer, outcomes_response_self]
      exact (hl.answers id).append_right _
    · have hid : (some id : Option Nat) ≠ some i := fun h => hi (Option.some.inj h).symm
      rw [hsame hi, outcomes_response_of_ne hid, List.append_nil]
      exact hl.answers i
  · have hresponse : Service.anonymous [.response (some id) outcome] = [] := by
      simp [Service.anonymous]
    rw [anonymous_append, hl.anonymous, hresponse, List.countP_cons, hmalformed, List.append_nil]
    rfl

theorem start (hl : Ledger server log frames) (hnew : server.inFlight.lookup id = none)
    (hrequest : event.request? = some (id, work)) (hmalformed : event.isMalformed = false)
    (hfate : ∀ i, event.fate? i = none) :
    Ledger (server.start id work).1 (event :: log) frames := by
  have hrounds (i : Nat) :
      rounds i (event :: log) = rounds i log ++ opened i (started log) event := by
    rw [rounds, (hl.books i).map_next_eq fun _ => hfate i]
  constructor
  · rw [started_cons, hrequest, Server.start, hl.number]
    rfl
  · intro i
    rw [hrounds, opened, hrequest]
    by_cases hi : i = id
    · subst hi
      rw [Server.lookup_start_self, hl.number]
      simpa using (hnew ▸ hl.books i).start (started log) work
    · rw [Server.lookup_start_of_ne server work hi]
      simpa [Ne.symm hi] using hl.books i
  · intro i
    have hopened : (opened i (started log) event).filterMap Round.answer? = [] := by
      rcases opened_cases i (started log) event with ⟨hopened, -⟩ | ⟨work, hopened, -⟩
      · rw [hopened]
        rfl
      · rw [hopened]
        rfl
    rw [hrounds, List.filterMap_append, hopened, List.append_nil]
    exact hl.answers i
  · rw [hl.anonymous, List.countP_cons, hmalformed]
    rfl

theorem abandon (hl : Ledger server log frames) :
    Ledger { server with inFlight := [] } (.inputEnded :: log) frames := by
  have hrounds (i : Nat) : Books none (rounds i (.inputEnded :: log)) ∧
      (rounds i (.inputEnded :: log)).filterMap Round.answer? =
        (rounds i log).filterMap Round.answer? := by
    have hbooks := hl.books i
    rw [rounds, opened, Event.request?, List.append_nil]
    cases hlookup : server.inFlight.lookup i with
    | none =>
      rw [hlookup] at hbooks
      rw [hbooks.map_next_eq (by simp)]
      exact ⟨hbooks, rfl⟩
    | some number =>
      rw [hlookup] at hbooks
      have hsettled := hbooks.settle (show Event.inputEnded.fate? i = some .abandoned from rfl)
      exact ⟨hsettled.1, hsettled.2.trans (List.append_nil _)⟩
  exact ⟨hl.number, fun i => (hrounds i).1, fun i => (hrounds i).2 ▸ hl.answers i, hl.anonymous⟩

end Ledger

/-- An event leaves each request where it is, and the fate that it may have. -/
theorem exists_mem_rounds_cons (event : Event) (h : round ∈ rounds i log) :
    ∃ round' ∈ rounds i (event :: log), round'.number = round.number ∧ round'.work = round.work ∧
      ∀ fate, round.fate? = some fate → round'.fate? = some fate := by
  refine ⟨round.next i event, List.mem_append_left _ (List.mem_map_of_mem h), rfl, rfl, ?_⟩
  intro fate hfate
  rw [Round.next, hfate]
  rfl

def IsForsaken (list : List Round) (number : Nat) : Prop :=
  ∃ round ∈ list, round.number ≤ number ∧ round.fate? = some .cancelled

theorem IsForsaken.mono {other : Nat} (h : IsForsaken list number) (hle : number ≤ other) :
    IsForsaken list other := by
  obtain ⟨round, hround, hnumber, hfate⟩ := h
  exact ⟨round, hround, Nat.le_trans hnumber hle, hfate⟩

theorem IsForsaken.cons (event : Event) (h : IsForsaken (rounds i log) number) :
    IsForsaken (rounds i (event :: log)) number := by
  obtain ⟨round, hround, hnumber, hfate⟩ := h
  obtain ⟨round', hround', heq, -, hkeeps⟩ := exists_mem_rounds_cons event hround
  exact ⟨round', hround', heq ▸ hnumber, hkeeps _ hfate⟩

/-- The outcome is one of the work of the request itself, or of an earlier request with the same
identifier that was given up. -/
def IsHeard (list : List Round) (round : Round) (number : Nat) (outcome : Outcome) : Prop :=
  (∃ asked ∈ list, asked.number = number ∧ asked.work.MayEnd outcome) ∧
    (number = round.number ∨ number < round.number ∧ IsForsaken list number)

theorem IsHeard.cons (event : Event) (h : IsHeard (rounds i log) round number outcome) :
    IsHeard (rounds i (event :: log)) (round.next i event) number outcome := by
  obtain ⟨⟨asked, hasked, hnumber, hend⟩, hwhose⟩ := h
  obtain ⟨asked', hasked', hnumber', hwork', -⟩ := exists_mem_rounds_cons event hasked
  refine ⟨⟨asked', hasked', hnumber'.trans hnumber, hwork' ▸ hend⟩, ?_⟩
  exact hwhose.imp_right fun ⟨hlt, hforsaken⟩ => ⟨hlt, hforsaken.cons event⟩

structure Tasked (tasks : List Task) (log : List Event) : Prop where
  nodup : (tasks.map Task.number).Nodup
  asked : ∀ task ∈ tasks, ∃ round ∈ rounds task.id log,
    round.number = task.number ∧ round.work = task.work

namespace Tasked

variable {tasks tasks' : List Task}

theorem mono (ht : Tasked tasks log) (h : tasks'.Sublist tasks) : Tasked tasks' log where
  nodup := ht.nodup.sublist (h.map _)
  asked task htask := ht.asked task (h.subset htask)

theorem cons (ht : Tasked tasks log) (event : Event) : Tasked tasks (event :: log) where
  nodup := ht.nodup
  asked task htask := by
    obtain ⟨round, hround, hnumber, hwork⟩ := ht.asked task htask
    obtain ⟨round', hround', hnumber', hwork', -⟩ := exists_mem_rounds_cons event hround
    exact ⟨round', hround', hnumber'.trans hnumber, hwork'.trans hwork⟩

theorem start (ht : Tasked tasks log) (hrequest : event.request? = some (id, work)) :
    Tasked (tasks ++ [⟨started log, id, work⟩]) (event :: log) where
  nodup := by
    rw [List.map_append, List.nodup_append]
    refine ⟨ht.nodup, by simp, fun number hnumber last hlast => ?_⟩
    obtain ⟨task, htask, rfl⟩ := List.mem_map.mp hnumber
    obtain ⟨round, hround, heq, -⟩ := ht.asked task htask
    rw [List.mem_singleton.mp hlast, ← heq]
    exact Nat.ne_of_lt (number_lt_started (List.mem_map_of_mem hround))
  asked task htask := by
    rcases List.mem_append.mp htask with htask | htask
    · exact (ht.cons event).asked task htask
    · rw [List.mem_singleton.mp htask]
      exact ⟨⟨started log, work, none⟩, by simp [rounds, opened, hrequest], rfl, rfl⟩

end Tasked

/-- What is known of the tasks that have not looked up their requests. -/
structure Expected (server : Server) (tasks : List Running) (log : List Event) : Prop where
  outcome : ∀ task outcome, ⟨task, .ended outcome⟩ ∈ tasks → task.work.MayEnd outcome
  /-- While the input goes on, the request is in work, unless one up to it was cancelled. -/
  wanted : .inputEnded ∉ log → ∀ running ∈ tasks, running.response? = none →
    server.inFlight.lookup running.task.id = some running.task.number ∨
      IsForsaken (rounds running.task.id log) running.task.number

namespace Expected

variable {tasks' : List Running}

theorem mono (he : Expected server tasks log)
    (h : ∀ running ∈ tasks', running.response? = none → running ∈ tasks) :
    Expected server tasks' log where
  outcome task outcome hended := he.outcome task outcome (h _ hended rfl)
  wanted hlog running hrunning hresponse :=
    he.wanted hlog running (h running hrunning hresponse) hresponse

theorem cons (he : Expected server tasks log) (event : Event) :
    Expected server tasks (event :: log) where
  outcome := he.outcome
  wanted hlog running hrunning hresponse := by
    have hearlier : .inputEnded ∉ log := fun hmem => hlog (List.mem_cons_of_mem _ hmem)
    exact (he.wanted hearlier running hrunning hresponse).imp_right (IsForsaken.cons event)

theorem start (he : Expected server tasks log) (hnew : server.inFlight.lookup id = none)
    (event : Event) (work : Work) :
    Expected (server.start id work).1 (tasks ++ [⟨⟨server.nextTask, id, work⟩, .working⟩])
      (event :: log) where
  outcome task outcome hended := by
    rcases List.mem_append.mp hended with hended | hended
    · exact he.outcome task outcome hended
    · simp at hended
  wanted hlog running hrunning hresponse := by
    rcases List.mem_append.mp hrunning with hrunning | hrunning
    · rcases (he.cons event).wanted hlog running hrunning hresponse with hlookup | hforsaken
      · have hid : running.task.id ≠ id := fun heq => by simp [heq, hnew] at hlookup
        exact .inl ((Server.lookup_start_of_ne server work hid).trans hlookup)
      · exact .inr hforsaken
    · rw [List.mem_singleton.mp hrunning]
      exact .inl (Server.lookup_start_self server id work)

/-- A request leaves the work, and those who wanted it have to know it as cancelled. -/
theorem untrack (he : Expected server tasks log)
    (hlookup : server.inFlight.lookup id = some number)
    (htasks : ∀ running ∈ tasks', running.response? = none → running ∈ tasks)
    (hforsaken : .inputEnded ∉ log → ∀ running ∈ tasks', running.response? = none →
      running.task.id = id → running.task.number = number →
        IsForsaken (rounds id (event :: log)) number) :
    Expected (server.untrack id) tasks' (event :: log) where
  outcome task outcome hended := he.outcome task outcome (htasks _ hended rfl)
  wanted hlog running hrunning hresponse := by
    have hearlier : .inputEnded ∉ log := fun hmem => hlog (List.mem_cons_of_mem _ hmem)
    have hbefore := htasks running hrunning hresponse
    rcases he.wanted hearlier running hbefore hresponse with hwanted | hgiven
    · by_cases hid : running.task.id = id
      · have hnumber : running.task.number = number := by
          rw [hid, hlookup] at hwanted
          exact (Option.some.inj hwanted).symm
        rw [hid, hnumber]
        exact .inr (hforsaken hearlier running hrunning hresponse hid hnumber)
      · exact .inl ((Server.lookup_untrack_of_ne server hid).trans hwanted)
    · exact .inr (hgiven.cons event)

end Expected

def HearsAll (log : List Event) : Prop :=
  ∀ i, ∀ round ∈ rounds i log, ∀ number outcome,
    round.fate? = some (.answered number outcome) → IsHeard (rounds i log) round number outcome

theorem HearsAll.cons (h : HearsAll log)
    (hevent : ∀ i, ∀ round ∈ rounds i log, round.fate? = none → ∀ number outcome,
      event.fate? i = some (.answered number outcome) →
        IsHeard (rounds i log) round number outcome) :
    HearsAll (event :: log) := by
  intro i round hround number outcome hfate
  rcases mem_rounds_cons hround with ⟨round', hmem, rfl⟩ | ⟨work, rfl, -⟩
  · refine IsHeard.cons event ?_
    cases hopen : round'.fate? with
    | none =>
      have hgiven := (fate?_next hfate).resolve_left (by simp [hopen])
      exact hevent i round' hmem hopen number outcome hgiven
    | some fate =>
      rw [round'.next_of_settled (by simp [hopen])] at hfate
      exact h i round' hmem number outcome hfate
  · cases hfate

theorem HearsAll.read (h : HearsAll log) (line : List Char) : HearsAll (.read line :: log) :=
  h.cons fun i round _ _ number outcome hfate => by simp [Event.fate?] at hfate

end Service

end CodeNav.Channel
