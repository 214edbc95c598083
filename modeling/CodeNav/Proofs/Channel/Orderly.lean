import Mathlib
import CodeNav.Proofs.Channel.Fates

/-! # Order among calls

Whatever the peer writes and however the calls interleave, identifiers are used once, a call takes
the first response that comes for it while the session is open, and nothing else, and a closed
session leaves no call behind.
-/

namespace CodeNav.Channel.Conversation

variable {s s' : Conversation} {id other : Nat} {method : String} {params : Json}
  {outcome : Outcome} {line : List Char} {running? : Option Running}
  {deeds : List Deed} {log : List Event} {caller : Caller}

def IsNumbered (log : List Event) : Prop :=
  begun log = (List.range' 1 (begun log).length).reverse

/-- The log explains the caller and its calls. -/
structure IsSound (s : Conversation) : Prop where
  nextId : s.caller.nextId = (begun s.log).length + 1
  numbered : IsNumbered s.log
  pending_iff : ∀ id, id ∈ s.caller.pending ↔ fate id s.log = .awaited
  closed_iff : s.caller.isClosed = true ↔ .closed ∈ s.log
  closed : s.caller.isClosed = true → s.caller.pending = []
  writer : s.writer ≠ .running → s.caller.isClosed = true
  course : ∀ id, Course id (s.calls id) (fate id s.log) (trace id s.log)
  log : IsConsistent s.log

theorem isSound_initial : IsSound {} where
  nextId := rfl
  numbered := rfl
  pending_iff id := by simp [fate]
  closed_iff := by simp
  closed := by simp
  writer := by simp
  course _ := .unborn
  log := trivial

theorem closed_mem_put_iff : .closed ∈ (s.put id running? deeds).log ↔ .closed ∈ s.log := by
  simp [put]

theorem isConsistent_put_cons {deed : Deed}
    (hdeed : deed.Follows (s.put id running? deeds).log id)
    (hlog : IsConsistent (s.put id running? deeds).log) :
    IsConsistent (s.put id running? (deed :: deeds)).log :=
  ⟨hdeed, hlog⟩

namespace IsSound

theorem not_closed_mem (hs : IsSound s) (h : s.caller.isClosed = false) : .closed ∉ s.log := by
  intro hmem
  simp [hs.closed_iff.mpr hmem] at h

theorem not_isClosed (hs : IsSound s) (h : .closed ∉ s.log) : s.caller.isClosed = false :=
  Bool.eq_false_iff.mpr fun hclosed => h (hs.closed_iff.mp hclosed)

theorem not_mem_pending (hs : IsSound s) (h : fate id s.log ≠ .awaited) :
    id ∉ s.caller.pending :=
  fun hid => h ((hs.pending_iff id).mp hid)

theorem trace_nextId (hs : IsSound s) : trace s.caller.nextId s.log = [] := by
  by_contra hne
  have hmem := (hs.course s.caller.nextId).mem_begun hne
  rw [hs.numbered, List.mem_reverse, List.mem_range'_1, hs.nextId] at hmem
  omega

theorem fate_nextId (hs : IsSound s) : fate s.caller.nextId s.log = .gone := by
  have hcourse := hs.course s.caller.nextId
  rw [hs.trace_nextId] at hcourse
  exact hcourse.fate_of_nil

theorem put (hs : IsSound s) (caller : Caller) (hclosed : caller.isClosed = s.caller.isClosed)
    (hnextId : caller.nextId = (begun (s.put id running? deeds).log).length + 1)
    (hnumbered : IsNumbered (s.put id running? deeds).log)
    (hothers : ∀ other, other ≠ id → (other ∈ caller.pending ↔ other ∈ s.caller.pending))
    (hid : id ∈ caller.pending ↔ fate id (s.put id running? deeds).log = .awaited)
    (hempty : caller.isClosed = true → caller.pending = [])
    (hcourse : Course id running? (fate id (s.put id running? deeds).log)
      (deeds ++ trace id s.log))
    (hlog : IsConsistent (s.put id running? deeds).log) :
    IsSound ({ s with caller }.put id running? deeds) where
  nextId := hnextId
  numbered := hnumbered
  pending_iff other := by
    by_cases h : other = id
    · subst h
      exact hid
    · exact (hothers other h).trans ((hs.pending_iff other).trans (by rw [fate_put_of_ne h]))
  closed_iff := by
    rw [closed_mem_put_iff]
    exact hclosed ▸ hs.closed_iff
  closed := hempty
  writer h := hclosed.trans (hs.writer h)
  course other := by
    by_cases h : other = id
    · subst h
      rw [calls_put_self, trace_put_self]
      exact hcourse
    · rw [calls_put_of_ne h, trace_put_of_ne h, fate_put_of_ne h]
      exact hs.course other
  log := hlog

theorem go (hs : IsSound s) (hbegun : begun (s.put id running? deeds).log = begun s.log)
    (hid : fate id (s.put id running? deeds).log = .awaited ↔ fate id s.log = .awaited)
    (hcourse : Course id running? (fate id (s.put id running? deeds).log)
      (deeds ++ trace id s.log))
    (hlog : IsConsistent (s.put id running? deeds).log) : IsSound (s.put id running? deeds) := by
  refine hs.put s.caller rfl ?_ ?_ (fun _ _ => Iff.rfl) ?_ hs.closed hcourse hlog
  · rw [hbegun, hs.nextId]
  · rw [IsNumbered, hbegun]
    exact hs.numbered
  · rw [hs.pending_iff, hid]

theorem isNumbered (hs : IsSound s) (hbegun : begun log = s.caller.nextId :: begun s.log) :
    s.caller.nextId + 1 = (begun log).length + 1 ∧ IsNumbered log := by
  rw [IsNumbered, hbegun, List.length_cons, hs.nextId]
  refine ⟨rfl, ?_⟩
  rw [List.range'_1_concat, List.reverse_concat, ← hs.numbered, Nat.add_comm]

theorem call (hs : IsSound s) (method : String) (params : Json) :
    IsSound (s.call method params) := by
  have hgone : s.caller.nextId ∉ s.caller.pending :=
    hs.not_mem_pending (by simp [hs.fate_nextId])
  cases hclosed : s.caller.isClosed with
  | true =>
    have hlog : .closed ∈ s.log := hs.closed_iff.mp hclosed
    rw [call_of_closed hclosed]
    refine hs.put _ rfl (hs.isNumbered rfl).1 (hs.isNumbered rfl).2 (fun _ _ => Iff.rfl) ?_
      hs.closed ?_ ?_
    · simpa [fate_put_cons, Deed.next] using hgone
    · rw [hs.trace_nextId]
      simpa [fate_put_cons, Deed.next] using Course.refused
    · exact isConsistent_put_cons (.refused (List.mem_cons_of_mem _ hlog))
        (isConsistent_put_cons hlog hs.log)
  | false =>
    rw [call_of_open hclosed]
    refine hs.put _ rfl (hs.isNumbered rfl).1 (hs.isNumbered rfl).2 ?_ ?_ ?_ ?_ ?_
    · intro other hother
      simp [hother]
    · simp [fate_put_cons, Deed.next]
    · simp [hclosed]
    · rw [hs.trace_nextId, fate_put_cons]
      exact .opening method params (by simp [Deed.next]) rfl
    · exact isConsistent_put_cons (hs.not_closed_mem hclosed) hs.log

theorem send {request : Frame} {outcome? : Option Outcome} (hs : IsSound s)
    (hcall : s.calls id = some ⟨method, .opening request, outcome?⟩) :
    IsSound (s.put id (some ⟨method, .waiting, outcome?⟩) [.queued request]) := by
  obtain ⟨params, hrequest, hgoes, houtcome, htrace⟩ := (hcall ▸ hs.course id).of_opening
  refine hs.go rfl (by simp [fate_put_cons, Deed.next]) ?_ (isConsistent_put_cons trivial hs.log)
  rw [htrace, hrequest, fate_put_cons, fate_put_nil]
  exact .waiting method params hgoes houtcome

theorem fail {request : Frame} {outcome? : Option Outcome} (hs : IsSound s)
    (hcall : s.calls id = some ⟨method, .opening request, outcome?⟩)
    (hwriter : s.writer = .stopped) : IsSound (s.fail id request) := by
  obtain ⟨params, hrequest, -, -, htrace⟩ := (hcall ▸ hs.course id).of_opening
  have hclosed := hs.writer (by simp [hwriter])
  have hlog : .closed ∈ s.log := hs.closed_iff.mp hclosed
  have hpending : id ∉ s.caller.pending := by simp [hs.closed hclosed]
  rw [fail_of_not_mem hpending]
  refine hs.go rfl ?_ ?_ ?_
  · rw [hs.pending_iff] at hpending
    simpa [fate_put_cons, Deed.next] using hpending
  · rw [htrace, hrequest, fate_put_cons]
    exact .unsent method params
  · exact isConsistent_put_cons (.stopped (List.mem_cons_of_mem _ hlog))
      (isConsistent_put_cons hlog hs.log)

theorem drop {outcome? : Option Outcome} (hs : IsSound s)
    (hcall : s.calls id = some ⟨method, .waiting, outcome?⟩) : IsSound (s.drop id method) := by
  obtain ⟨params, hgoes, -, htrace⟩ := (hcall ▸ hs.course id).of_waiting
  have hholds := fate_holds id s.log
  by_cases hpending : id ∈ s.caller.pending
  · have hfate := (hs.pending_iff id).mp hpending
    rw [hfate] at hholds
    rw [drop_of_mem hpending]
    refine hs.put _ rfl hs.nextId hs.numbered ?_ ?_ ?_ ?_ ?_
    · intro other hother
      simp [Caller.settle, hother]
    · simp [Caller.settle, fate_put_cons, Deed.next]
    · intro hclosed
      simp [hs.closed hclosed] at hpending
    · rw [htrace, fate_put_cons]
      exact .closing method params
    · exact isConsistent_put_cons hholds hs.log
  · have hfate : fate id s.log ≠ .awaited := fun h => hpending ((hs.pending_iff id).mpr h)
    rw [drop_of_not_mem hpending]
    refine hs.go rfl ?_ ?_ (isConsistent_put_cons ?_ hs.log)
    · simpa [fate_put_cons, Deed.next] using hfate
    · rw [htrace, fate_put_cons]
      exact .dropped method params
    · rcases hfate' : fate id s.log with _ | _ | outcome | _
      · exact absurd hfate' hgoes
      · exact absurd hfate' hfate
      · rw [hfate'] at hholds
        exact .inl ⟨outcome, hholds⟩
      · rw [hfate'] at hholds
        exact .inr hholds

theorem take {outcome? : Option Outcome} {result : Except CallError Json} (hs : IsSound s)
    (hcall : s.calls id = some ⟨method, .waiting, outcome?⟩) (hpending : id ∉ s.caller.pending)
    (hreturns : Returns s.log id result) : IsSound (s.put id none [.returned result]) := by
  obtain ⟨params, -, -, htrace⟩ := (hcall ▸ hs.course id).of_waiting
  rw [hs.pending_iff] at hpending
  refine hs.go rfl ?_ ?_ (isConsistent_put_cons hreturns hs.log)
  · simpa [fate_put_cons, Deed.next] using hpending
  · rw [htrace, fate_put_cons]
    exact .returned method params result

theorem answer (hs : IsSound s) (hcall : s.calls id = some ⟨method, .waiting, some outcome⟩) :
    IsSound (s.put id none [.returned (Caller.result method outcome)]) := by
  obtain ⟨params, -, houtcome, htrace⟩ := (hcall ▸ hs.course id).of_waiting
  have hfate : fate id s.log = .answered outcome := Fate.outcome?_eq_some_iff.mp houtcome.symm
  have hopened : .call id (.opened method params) ∈ s.log := mem_trace_iff.mp (by simp [htrace])
  have hholds := fate_holds id s.log
  rw [hfate] at hholds
  exact hs.take hcall (hs.not_mem_pending (by simp [hfate])) (.answered hopened hholds)

theorem interrupt (hs : IsSound s) (hcall : s.calls id = some ⟨method, .waiting, none⟩)
    (hpending : id ∉ s.caller.pending) :
    IsSound (s.put id none [.returned (.error (.interrupted method))]) := by
  obtain ⟨params, hgoes, houtcome, htrace⟩ := (hcall ▸ hs.course id).of_waiting
  have hopened : .call id (.opened method params) ∈ s.log := mem_trace_iff.mp (by simp [htrace])
  have hholds := fate_holds id s.log
  -- The call was registered, and neither waits nor has an outcome.
  have hfate : fate id s.log = .cutOff := by
    rcases hfate : fate id s.log with _ | _ | outcome | _
    · exact absurd hfate hgoes
    · exact absurd ((hs.pending_iff id).mpr hfate) hpending
    · simp [hfate, Fate.outcome?] at houtcome
    · rfl
  rw [hfate] at hholds
  exact hs.take hcall hpending (.interrupted hopened hholds)

theorem sendCancel {cancellation : Frame} {outcome? : Option Outcome} (hs : IsSound s)
    (hcall : s.calls id = some ⟨method, .closing cancellation, outcome?⟩) :
    IsSound (s.put id none [.queued cancellation]) := by
  obtain ⟨params, hcancel, hgone, htrace⟩ := (hcall ▸ hs.course id).of_closing
  refine hs.go rfl (by simp [fate_put_cons, Deed.next]) ?_ (isConsistent_put_cons trivial hs.log)
  rw [htrace, hcancel, fate_put_cons, fate_put_nil, hgone]
  exact .cancelled method params

theorem failCancel {cancellation : Frame} {outcome? : Option Outcome} (hs : IsSound s)
    (hcall : s.calls id = some ⟨method, .closing cancellation, outcome?⟩)
    (hwriter : s.writer = .stopped) : IsSound (s.put id none [.unsent cancellation]) := by
  obtain ⟨params, hcancel, hgone, htrace⟩ := (hcall ▸ hs.course id).of_closing
  have hlog : .closed ∈ s.log := hs.closed_iff.mp (hs.writer (by simp [hwriter]))
  refine hs.go rfl (by simp [fate_put_cons, Deed.next]) ?_ (isConsistent_put_cons hlog hs.log)
  rw [htrace, hcancel, fate_put_cons, fate_put_nil, hgone]
  exact .uncancelled method params

theorem read (hs : IsSound s) (line : List Char) : IsSound (s.read line) := by
  by_cases hline : ∃ id outcome, response? line = some (id, outcome) ∧ id ∈ s.caller.pending
  · obtain ⟨id, outcome, hline, hpending⟩ := hline
    have hfate := (hs.pending_iff id).mp hpending
    have hself : fate id (.read line :: s.log) = .answered outcome := by
      rw [fate, hfate, next_read_of_awaited hline]
    have hothers : ∀ other, other ≠ id → fate other (.read line :: s.log) = fate other s.log := by
      intro other hother
      refine next_read_of_ne fun _ outcome' hline' => hother ?_
      simpa using congrArg (Option.map Prod.fst) (hline'.symm.trans hline)
    rw [read_of_mem hline hpending]
    exact {
      nextId := hs.nextId
      numbered := hs.numbered
      pending_iff := fun other => by
        by_cases h : other = id
        · simp [h, hself, Caller.settle]
        · simpa [h, hothers other h, Caller.settle] using hs.pending_iff other
      closed_iff := by simpa [Caller.settle] using hs.closed_iff
      closed := fun hclosed => by simp [hs.closed hclosed] at hpending
      writer := hs.writer
      course := fun other => by
        by_cases h : other = id
        · subst h
          simp only [Function.update_self, hself]
          exact (hfate ▸ hs.course other).answer outcome
        · simp only [Function.update_of_ne h, hothers other h]
          exact hs.course other
      log := hs.log }
  · have hnone : ∀ id outcome, response? line = some (id, outcome) → id ∉ s.caller.pending := by
      simpa using hline
    have hfates : ∀ id, fate id (.read line :: s.log) = fate id s.log := fun id =>
      next_read_of_ne fun hfate outcome hline =>
        hnone id outcome hline ((hs.pending_iff id).mpr hfate)
    rw [read_of_not_mem hnone]
    exact {
      nextId := hs.nextId
      numbered := hs.numbered
      pending_iff := fun id => by rw [hfates]; exact hs.pending_iff id
      closed_iff := by simpa using hs.closed_iff
      closed := hs.closed
      writer := hs.writer
      course := fun id => by rw [hfates]; exact hs.course id
      log := hs.log }

theorem close (hs : IsSound s) : IsSound s.close where
  nextId := hs.nextId
  numbered := hs.numbered
  pending_iff id := by
    have hfate : fate id s.close.log ≠ .awaited := by
      simp only [Conversation.close, fate, Event.next]
      cases fate id s.log <;> simp
    exact iff_of_false List.not_mem_nil hfate
  closed_iff := by simp [Conversation.close, Caller.close]
  closed _ := rfl
  writer _ := rfl
  course id := (hs.course id).closed
  log := hs.log

theorem progress (hs : IsSound s) (h : Progress s s') : IsSound s' := by
  cases h with
  | send hcall hwriter => exact hs.send hcall
  | fail hcall hwriter => exact hs.fail hcall hwriter
  | read line h => exact hs.read line
  | endInput h => exact { hs.close with }
  | failWrite h => exact { hs.close with writer := fun _ => rfl }
  | stopWriter h => exact { hs with writer := fun _ => hs.writer (by simp [h]) }
  | answer hcall => exact hs.answer hcall
  | interrupt hcall hpending => exact hs.interrupt hcall hpending
  | drop hcall => exact hs.drop hcall
  | sendCancel hcall hwriter => exact hs.sendCancel hcall
  | failCancel hcall hwriter => exact hs.failCancel hcall hwriter

theorem step (hs : IsSound s) (h : Step s s') : IsSound s' := by
  cases h with
  | call method params => exact hs.call method params
  | progress h => exact hs.progress h

end IsSound

theorem Reachable.isSound (h : Reachable s) : IsSound s := by
  induction h with
  | refl => exact isSound_initial
  | tail _ hstep ih => exact ih.step hstep

theorem response?_of_calls_read_ne (h : (s.read line).calls id ≠ s.calls id) :
    ∃ outcome, response? line = some (id, outcome) := by
  by_cases hline : ∃ id outcome, response? line = some (id, outcome) ∧ id ∈ s.caller.pending
  · obtain ⟨other, outcome, hline, hpending⟩ := hline
    rw [read_of_mem hline hpending] at h
    by_cases hid : id = other
    · exact ⟨outcome, hid ▸ hline⟩
    · exact absurd (Function.update_of_ne hid ..) h
  · rw [read_of_not_mem (by simpa using hline)] at h
    exact absurd rfl h

structure IsOrderly (s : Conversation) : Prop where
  /-- No identifier is used twice. -/
  numbered : IsNumbered s.log
  /-- A call queues one request, and a cancellation only if it was dropped while it was pending. -/
  course : ∀ id, ∃ fate, fate.Holds s.log id ∧ Course id (s.calls id) fate (trace id s.log)
  /-- What calls return, and that none is registered on a closed session. -/
  log : IsConsistent s.log
  completes : ∀ line id, (s.read line).calls id ≠ s.calls id →
    ∃ outcome, response? line = some (id, outcome)
  accepts : .closed ∉ s.log → ∀ method params,
    (s.call method params).log = .call s.caller.nextId (.opened method params) :: s.log
  writer : .closed ∉ s.log → s.writer = .running
  /-- A call is pending if it was registered and not dropped, and nothing answered it or closed the
  session since. -/
  pending : ∀ id ∈ s.caller.pending, IsAwaited s.log id ∧ (s.calls id).isSome
  closed : .closed ∈ s.log → s.caller.pending = []
  /-- On a closed session, a call fails at once, -/
  refuses : .closed ∈ s.log → ∀ method params,
    (s.call method params).log =
      .call s.caller.nextId (.returned (.error .closed)) :: .call s.caller.nextId .refused :: s.log
  /-- and one that waits can fail. -/
  interrupts : .closed ∈ s.log → ∀ id method, s.calls id = some ⟨method, .waiting, none⟩ →
    Step s (s.put id none [.returned (.error (.interrupted method))])

theorem Reachable.isOrderly (h : Reachable s) : IsOrderly s where
  numbered := h.isSound.numbered
  course id := ⟨_, fate_holds id s.log, h.isSound.course id⟩
  log := h.isSound.log
  completes _ _ := response?_of_calls_read_ne
  accepts hlog method params := by
    rw [call_of_open (h.isSound.not_isClosed hlog)]
    rfl
  writer hlog := by
    by_contra hwriter
    exact hlog (h.isSound.closed_iff.mp (h.isSound.writer hwriter))
  pending id hid := by
    have hfate := (h.isSound.pending_iff id).mp hid
    have hholds := fate_holds id s.log
    have hcourse := h.isSound.course id
    rw [hfate] at hholds hcourse
    exact ⟨hholds, hcourse.isSome⟩
  closed hlog := h.isSound.closed (h.isSound.closed_iff.mpr hlog)
  refuses hlog method params := by
    rw [call_of_closed (h.isSound.closed_iff.mpr hlog)]
    rfl
  interrupts hlog id method hcall := by
    have hpending := h.isSound.closed (h.isSound.closed_iff.mpr hlog)
    exact .progress (.interrupt hcall (by simp [hpending]))

def okLine : List Char := (Frame.response (some 2) (.ok (.bool true))).encode

def sent (s : Conversation) (id : Nat) (method : String) : Conversation :=
  s.put id (some ⟨method, .waiting, none⟩) [.queued (.request id method .null)]

theorem Reachable.sent (h : Reachable s)
    (hcall : s.calls id = some ⟨method, .opening (.request id method .null), none⟩)
    (hwriter : s.writer ≠ .stopped) : Reachable (s.sent id method) :=
  h.tail (.progress (.send hcall hwriter))

def threeCalls : Conversation :=
  ((({} : Conversation).call "a" .null).call "b" .null).call "c" .null
    |>.sent 1 "a" |>.sent 2 "b" |>.sent 3 "c"

def oneAnswered : Conversation :=
  { threeCalls with
    caller := threeCalls.caller.settle 2
    calls := Function.update threeCalls.calls 2 (some ⟨"b", .waiting, some (.ok (.bool true))⟩)
    log := .read okLine :: threeCalls.log }

def twoSettled : Conversation :=
  ((oneAnswered.put 2 none [.returned (.ok (.bool true))]).drop 1 "a").put 1 none
    [.queued (.cancel 1)]

theorem reachable_threeCalls : Reachable threeCalls := by
  have hcalls : Reachable (((({} : Conversation).call "a" .null).call "b" .null).call "c" .null) :=
    .tail (.tail (.single (.call ..)) (.call ..)) (.call ..)
  exact ((hcalls.sent rfl (by decide)).sent rfl (by decide)).sent rfl (by decide)

theorem reachable_oneAnswered : Reachable oneAnswered := by
  have hline : response? okLine = some (2, .ok (.bool true)) := by cbv
  have hread : threeCalls.read okLine = oneAnswered := read_of_mem hline (by decide)
  rw [← hread]
  exact reachable_threeCalls.tail (.progress (.read _ rfl))

theorem reachable_twoSettled : Reachable twoSettled := by
  have hcall : oneAnswered.calls 2 = some ⟨"b", .waiting, some (.ok (.bool true))⟩ := rfl
  have hreturned := reachable_oneAnswered.tail (.progress (.answer hcall))
  exact .tail (hreturned.tail (.progress (.drop rfl))) (.progress (.sendCancel rfl (by decide)))

/-- Then the input ends: the third call fails, and so does the next one. -/
theorem isOrderly_fourCalls :
    ∃ s, Reachable s ∧ IsOrderly s ∧
      trace 1 s.log =
        [.queued (.cancel 1), .dropped true, .queued (.request 1 "a" .null), .opened "a" .null] ∧
      trace 2 s.log =
        [.returned (.ok (.bool true)), .queued (.request 2 "b" .null), .opened "b" .null] ∧
      trace 3 s.log =
        [.returned (.error (.interrupted "c")), .queued (.request 3 "c" .null),
          .opened "c" .null] ∧
      trace 4 s.log = [.returned (.error .closed), .refused] := by
  let ended : Conversation := { twoSettled.close with isReading := false }
  have hended : Reachable ended := reachable_twoSettled.tail (.progress (.endInput rfl))
  have hthird : ended.calls 3 = some ⟨"c", .waiting, none⟩ := rfl
  have hfailed := hended.tail (.progress (.interrupt hthird (by decide)))
  have hrefused : Reachable _ := hfailed.tail (.call "d" .null)
  exact ⟨_, hrefused, hrefused.isOrderly, rfl, rfl, rfl, rfl⟩

end CodeNav.Channel.Conversation
