import CodeNav.Proofs.Channel.Conversation

/-! # Fates of calls

The log of a conversation tells what has become of each call since it was registered: it waits, the
first response to it has come, or the session was closed before. Its deeds so far are the beginning
of one of a few courses.
-/

namespace CodeNav.Channel.Conversation

variable {s : Conversation} {id other : Nat} {method : String} {params : Json}
  {frame : Frame} {outcome : Outcome} {line : List Char} {running? : Option Running}
  {deeds : List Deed} {event : Event} {log earlier : List Event}

def IsQuiet (id : Nat) (events : List Event) : Prop :=
  .closed ∉ events ∧ ∀ line outcome, .read line ∈ events → response? line ≠ some (id, outcome)

/-- The call was registered, and nothing has answered it or closed the session since. -/
def IsAwaited (log : List Event) (id : Nat) : Prop :=
  ∃ between method params before,
    log = between ++ .call id (.opened method params) :: before ∧ IsQuiet id between

/-- The outcome is the one of the first response that was read after the call was registered, on a
session that was not closed before. -/
def IsFirstResponse (log : List Event) (id : Nat) (outcome : Outcome) : Prop :=
  ∃ later line before,
    log = later ++ .read line :: before ∧ response? line = some (id, outcome) ∧ IsAwaited before id

def IsCutOff (log : List Event) (id : Nat) : Prop :=
  ∃ later before, log = later ++ .closed :: before ∧ IsAwaited before id

/-- What a call may return after the earlier events. -/
inductive Returns (earlier : List Event) (id : Nat) : Except CallError Json → Prop where
  | refused (h : .closed ∈ earlier) : Returns earlier id (.error .closed)
  | stopped (h : .closed ∈ earlier) : Returns earlier id (.error .stopped)
  | answered {method : String} {params : Json} {outcome : Outcome}
      (hopened : .call id (.opened method params) ∈ earlier)
      (h : IsFirstResponse earlier id outcome) : Returns earlier id (Caller.result method outcome)
  | interrupted {method : String} {params : Json}
      (hopened : .call id (.opened method params) ∈ earlier) (h : IsCutOff earlier id) :
      Returns earlier id (.error (.interrupted method))

/-- What the earlier events have to say for a deed. -/
def Deed.Follows (earlier : List Event) (id : Nat) : Deed → Prop
  | opened _ _ => .closed ∉ earlier
  | refused => .closed ∈ earlier
  | queued _ => True
  | unsent _ => .closed ∈ earlier
  | dropped true => IsAwaited earlier id
  | dropped false => (∃ outcome, IsFirstResponse earlier id outcome) ∨ IsCutOff earlier id
  | returned result => Returns earlier id result

def IsConsistent : List Event → Prop
  | [] => True
  | .call id deed :: earlier => deed.Follows earlier id ∧ IsConsistent earlier
  | _ :: earlier => IsConsistent earlier

def begun (log : List Event) : List Nat :=
  log.filterMap fun event =>
    match event with
    | .call id (.opened _ _) => some id
    | .call id .refused => some id
    | _ => none

inductive Fate where
  | gone
  | awaited
  | answered (outcome : Outcome)
  | cutOff

def Fate.outcome? : Fate → Option Outcome
  | answered outcome => some outcome
  | _ => none

theorem Fate.outcome?_eq_some_iff {fate : Fate} :
    fate.outcome? = some outcome ↔ fate = .answered outcome := by
  cases fate <;> simp [outcome?]

def Deed.next (fate : Fate) : Deed → Fate
  | opened _ _ => .awaited
  | queued _ => fate
  | unsent _ => fate
  | _ => .gone

def Event.next (id : Nat) (fate : Fate) : Event → Fate
  | call other deed => if other = id then deed.next fate else fate
  | read line =>
    match fate, response? line with
    | .awaited, some (other, outcome) => if other = id then .answered outcome else .awaited
    | _, _ => fate
  | closed =>
    match fate with
    | .awaited => .cutOff
    | _ => fate

def fate (id : Nat) : List Event → Fate
  | [] => .gone
  | event :: log => event.next id (fate id log)

theorem fate_put_of_ne (h : other ≠ id) :
    fate other (s.put id running? deeds).log = fate other s.log := by
  induction deeds with
  | nil => rfl
  | cons deed deeds ih => exact (if_neg h.symm).trans ih

theorem fate_put_cons {deed : Deed} :
    fate id (s.put id running? (deed :: deeds)).log =
      deed.next (fate id (s.put id running? deeds).log) :=
  if_pos rfl

@[simp] theorem fate_put_nil : fate id (s.put id running? []).log = fate id s.log := rfl

theorem next_read_of_awaited (h : response? line = some (id, outcome)) :
    Event.next id .awaited (.read line) = .answered outcome := by
  simp [Event.next, h]

theorem next_read_of_ne {fate : Fate}
    (h : fate = .awaited → ∀ outcome, response? line ≠ some (id, outcome)) :
    Event.next id fate (.read line) = fate := by
  cases fate with
  | awaited =>
    cases hline : response? line with
    | none => simp [Event.next, hline]
    | some response =>
      have hne : response.1 ≠ id := by
        rintro rfl
        exact h rfl response.2 hline
      simp [Event.next, hline, hne]
  | gone => rfl
  | answered outcome => rfl
  | cutOff => rfl

theorem IsQuiet.cons (h : IsQuiet id log) (hclosed : event ≠ .closed)
    (hread : ∀ line outcome, event = .read line → response? line ≠ some (id, outcome)) :
    IsQuiet id (event :: log) := by
  constructor
  · simpa [hclosed.symm] using h.1
  · intro line outcome hline
    rcases List.mem_cons.mp hline with heq | hline
    · exact hread line outcome heq.symm
    · exact h.2 line outcome hline

theorem IsAwaited.cons (h : IsAwaited log id) (hclosed : event ≠ .closed)
    (hread : ∀ line outcome, event = .read line → response? line ≠ some (id, outcome)) :
    IsAwaited (event :: log) id := by
  obtain ⟨between, method, params, before, rfl, hquiet⟩ := h
  exact ⟨event :: between, method, params, before, rfl, hquiet.cons hclosed hread⟩

theorem IsFirstResponse.cons (h : IsFirstResponse log id outcome) (event : Event) :
    IsFirstResponse (event :: log) id outcome := by
  obtain ⟨later, line, before, rfl, h⟩ := h
  exact ⟨event :: later, line, before, rfl, h⟩

theorem IsCutOff.cons (h : IsCutOff log id) (event : Event) : IsCutOff (event :: log) id := by
  obtain ⟨later, before, rfl, h⟩ := h
  exact ⟨event :: later, before, rfl, h⟩

def Fate.Holds (log : List Event) (id : Nat) : Fate → Prop
  | gone => True
  | awaited => IsAwaited log id
  | answered outcome => IsFirstResponse log id outcome
  | cutOff => IsCutOff log id

namespace Fate.Holds

variable {fate : Fate}

theorem call (h : fate.Holds log id) (other : Nat) (deed : Deed) :
    fate.Holds (.call other deed :: log) id := by
  cases fate with
  | gone => trivial
  | awaited => exact IsAwaited.cons h (by simp) (by simp)
  | answered outcome => exact IsFirstResponse.cons h _
  | cutOff => exact IsCutOff.cons h _

theorem deed (h : fate.Holds log id) (deed : Deed) :
    (deed.next fate).Holds (.call id deed :: log) id := by
  cases deed with
  | opened method params => exact ⟨[], method, params, log, rfl, by simp, by simp⟩
  | queued frame => exact h.call ..
  | unsent frame => exact h.call ..
  | refused => trivial
  | dropped wasPending => trivial
  | returned result => trivial

theorem read (h : fate.Holds log id) (line : List Char) :
    (Event.next id fate (.read line)).Holds (.read line :: log) id := by
  cases fate with
  | gone => trivial
  | awaited =>
    by_cases hline : ∃ outcome, response? line = some (id, outcome)
    · obtain ⟨outcome, hline⟩ := hline
      rw [next_read_of_awaited hline]
      exact ⟨[], line, log, rfl, hline, h⟩
    · have hother : ∀ outcome, response? line ≠ some (id, outcome) := by simpa using hline
      rw [next_read_of_ne fun _ => hother]
      refine IsAwaited.cons h (by simp) ?_
      rintro _ outcome ⟨⟩
      exact hother outcome
  | answered outcome => exact IsFirstResponse.cons h _
  | cutOff => exact IsCutOff.cons h _

theorem closed (h : fate.Holds log id) :
    (Event.next id fate .closed).Holds (.closed :: log) id := by
  cases fate with
  | gone => trivial
  | awaited => exact ⟨[], log, rfl, h⟩
  | answered outcome => exact IsFirstResponse.cons h _
  | cutOff => exact IsCutOff.cons h _

end Fate.Holds

/-- The fate of a call is what the log says of it. -/
theorem fate_holds (id : Nat) (log : List Event) : (fate id log).Holds log id := by
  induction log with
  | nil => trivial
  | cons event log ih =>
    cases event with
    | call other deed =>
      by_cases hid : other = id
      · subst hid
        simpa only [fate, Event.next, if_true] using ih.deed deed
      · simpa only [fate, Event.next, if_neg hid] using ih.call other deed
    | read line => exact ih.read line
    | closed => exact ih.closed

/-- What a call did so far, the latest deed first, beside where it stands and its fate. -/
inductive Course (id : Nat) : Option Running → Fate → List Deed → Prop where
  | unborn : Course id none .gone []
  | refused : Course id none .gone [.returned (.error .closed), .refused]
  | opening {fate : Fate} {outcome? : Option Outcome} (method : String) (params : Json)
      (h : fate ≠ .gone) (houtcome : outcome? = fate.outcome?) :
      Course id (some ⟨method, .opening (.request id method params), outcome?⟩) fate
        [.opened method params]
  | unsent (method : String) (params : Json) :
      Course id none .gone
        [.returned (.error .stopped), .unsent (.request id method params), .opened method params]
  | waiting {fate : Fate} {outcome? : Option Outcome} (method : String) (params : Json)
      (h : fate ≠ .gone) (houtcome : outcome? = fate.outcome?) :
      Course id (some ⟨method, .waiting, outcome?⟩) fate
        [.queued (.request id method params), .opened method params]
  | returned (method : String) (params : Json) (result : Except CallError Json) :
      Course id none .gone
        [.returned result, .queued (.request id method params), .opened method params]
  | dropped (method : String) (params : Json) :
      Course id none .gone
        [.dropped false, .queued (.request id method params), .opened method params]
  | closing (method : String) (params : Json) :
      Course id (some ⟨method, .closing (.cancel id), none⟩) .gone
        [.dropped true, .queued (.request id method params), .opened method params]
  | cancelled (method : String) (params : Json) :
      Course id none .gone
        [.queued (.cancel id), .dropped true, .queued (.request id method params),
          .opened method params]
  | uncancelled (method : String) (params : Json) :
      Course id none .gone
        [.unsent (.cancel id), .dropped true, .queued (.request id method params),
          .opened method params]

namespace Course

variable {fate : Fate}

theorem answer (h : Course id running? .awaited deeds) (outcome : Outcome) :
    Course id (running?.map fun running => { running with outcome? := some outcome })
      (.answered outcome) deeds := by
  generalize hfate : Fate.awaited = fate at h
  cases h with
  | opening method params => exact .opening method params (by simp) rfl
  | waiting method params => exact .waiting method params (by simp) rfl
  | _ => cases hfate

theorem cutOff (h : Course id running? .awaited deeds) : Course id running? .cutOff deeds := by
  generalize hfate : Fate.awaited = fate at h
  cases h with
  | opening method params _ houtcome =>
    subst hfate
    exact .opening method params (by simp) houtcome
  | waiting method params _ houtcome =>
    subst hfate
    exact .waiting method params (by simp) houtcome
  | _ => cases hfate

theorem closed (h : Course id running? fate deeds) :
    Course id running? (Event.next id fate .closed) deeds := by
  cases fate with
  | awaited => exact h.cutOff
  | gone => exact h
  | answered outcome => exact h
  | cutOff => exact h

theorem isSome (h : Course id running? .awaited deeds) : running?.isSome := by
  generalize hfate : Fate.awaited = fate at h
  cases h with
  | opening => rfl
  | waiting => rfl
  | _ => cases hfate

theorem fate_of_nil (h : Course id running? fate []) : fate = .gone := by
  cases h
  rfl

theorem of_opening {request : Frame} {outcome? : Option Outcome}
    (h : Course id (some ⟨method, .opening request, outcome?⟩) fate deeds) :
    ∃ params, request = .request id method params ∧ fate ≠ .gone ∧ outcome? = fate.outcome? ∧
      deeds = [.opened method params] := by
  cases h with
  | opening _ params hgoes houtcome => exact ⟨params, rfl, hgoes, houtcome, rfl⟩

theorem of_waiting {outcome? : Option Outcome}
    (h : Course id (some ⟨method, .waiting, outcome?⟩) fate deeds) :
    ∃ params, fate ≠ .gone ∧ outcome? = fate.outcome? ∧
      deeds = [.queued (.request id method params), .opened method params] := by
  cases h with
  | waiting _ params hgoes houtcome => exact ⟨params, hgoes, houtcome, rfl⟩

theorem of_closing {cancellation : Frame} {outcome? : Option Outcome}
    (h : Course id (some ⟨method, .closing cancellation, outcome?⟩) fate deeds) :
    ∃ params, cancellation = .cancel id ∧ fate = .gone ∧
      deeds = [.dropped true, .queued (.request id method params), .opened method params] := by
  cases h with
  | closing _ params => exact ⟨params, rfl, rfl, rfl⟩

theorem mem_begun (h : Course id running? fate (trace id log)) (hne : trace id log ≠ []) :
    id ∈ begun log := by
  have hbegun : (∃ method params, .opened method params ∈ trace id log) ∨
      .refused ∈ trace id log := by
    generalize trace id log = deeds at h hne
    cases h <;> simp_all
  rcases hbegun with ⟨method, params, hopened⟩ | hrefused
  · exact List.mem_filterMap.mpr ⟨_, mem_trace_iff.mp hopened, rfl⟩
  · exact List.mem_filterMap.mpr ⟨_, mem_trace_iff.mp hrefused, rfl⟩

end Course

end CodeNav.Channel.Conversation
