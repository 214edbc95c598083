import Mathlib
import CodeNav.Proofs.Channel.Moves

/-! # Delivery

In every state of a session, a call that waits is in one place: its request is on its way, or the
server works on it, or its response is on its way. So a call completes with its own outcome, however
calls, cancellations and responses overtake each other.
-/

namespace CodeNav.Channel.Session

open Relation

open scoped List

variable {s s' : Session} {id : Nat} {outcome : Outcome} {rest : List Frame} {task : Task}

theorem Move.log_subset (h : Move s s') : s.log ⊆ s'.log := by
  cases h with
  | call | drop | cancel | answer | discard | complete => exact List.subset_cons_self _ _
  | idle | accept | ignore | pass | closeCaller | closeServer => exact List.Subset.refl _

theorem Move.called_lt (hs : IsTraced s) (h : Move s s') (id : Nat) (method : String)
    (params : Json) (hcalled : .called id method params ∈ s'.log) : id < s'.caller.nextId := by
  cases h with
  | idle nextId h => exact Nat.lt_of_lt_of_le (hs.called id method params hcalled) h
  | call =>
    rcases List.mem_cons.mp hcalled with heq | hcalled
    · simp only [Event.called.injEq] at heq
      exact heq.1 ▸ Nat.lt_succ_self _
    · exact Nat.lt_succ_of_lt (hs.called id method params hcalled)
  | drop | cancel | answer | discard | complete =>
    exact hs.called id method params (by simpa using hcalled)
  | accept | ignore | pass | closeCaller | closeServer => exact hs.called id method params hcalled

theorem Move.pending (hs : IsTraced s) (h : Move s s') :
    s'.caller.pending = waiting s'.log ∨ s'.caller.isClosed = true ∧ s'.caller.pending = [] := by
  have settle {id : Nat} (hid : id ∈ s.caller.pending) :
      (s.caller.settle id).pending = (waiting s.log).filter (· ≠ id) := by
    rcases hs.pending with heq | ⟨-, heq⟩
    · rw [Caller.settle, heq]
    · simp [heq] at hid
  cases h with
  | call method params hmethod hopen =>
    rcases hs.pending with heq | ⟨hclosed, -⟩
    · exact .inl (by rw [waiting, heq])
    · simp [hopen] at hclosed
  | drop hid => exact .inl (settle hid)
  | complete _ _ hid => exact .inl (settle hid)
  | closeCaller => exact .inr ⟨rfl, rfl⟩
  | idle | accept | cancel | ignore | answer | discard | pass | closeServer => exact hs.pending

theorem Move.requests (hs : IsTraced s) (h : Move s s') :
    ∀ frame ∈ s'.requests, IsSent s'.log frame := by
  have old (frame : Frame) (hframe : frame ∈ s.requests) : IsSent s'.log frame :=
    (hs.requests frame hframe).mono h.log_subset
  have tail {frame next : Frame} {rest : List Frame} (hnext : s.requests = next :: rest)
      (hframe : frame ∈ rest) : IsSent s'.log frame :=
    old frame (hnext ▸ List.mem_cons_of_mem _ hframe)
  cases h with
  | call method params hmethod =>
    intro frame hframe
    rcases List.mem_append.mp hframe with hframe | hframe
    · exact old frame hframe
    · exact .inl ⟨_, method, params, List.mem_cons_self, hmethod, List.mem_singleton.mp hframe⟩
  | drop =>
    intro frame hframe
    rcases List.mem_append.mp hframe with hframe | hframe
    · exact old frame hframe
    · exact .inr ⟨_, List.mem_cons_self, List.mem_singleton.mp hframe⟩
  | accept hnext => exact fun _ => tail hnext
  | cancel hnext => exact fun _ => tail hnext
  | ignore hnext => exact fun _ => tail hnext
  | idle | answer | discard | complete | pass | closeCaller | closeServer => exact old

theorem Move.tasks (hs : IsTraced s) (h : Move s s') :
    ∀ task ∈ s'.tasks, IsRequested s'.log task := by
  have old (task : Task) (htask : task ∈ s.tasks) : IsRequested s'.log task :=
    (hs.tasks task htask).mono h.log_subset
  cases h with
  | accept _ hcalled =>
    intro task htask
    rcases List.mem_append.mp htask with htask | htask
    · exact old task htask
    · obtain rfl := List.mem_singleton.mp htask
      exact ⟨_, _, hcalled, rfl⟩
  | answer | discard => exact fun task htask => old task (List.mem_filter.mp htask).1
  | idle | call | drop | cancel | ignore | complete | pass | closeCaller | closeServer => exact old

theorem Move.responses (hs : IsTraced s) (h : Move s s') :
    ∀ frame ∈ s'.responses, IsReturned s'.log frame := by
  have old (frame : Frame) (hframe : frame ∈ s.responses) : IsReturned s'.log frame :=
    (hs.responses frame hframe).mono h.log_subset
  have tail {frame next : Frame} {rest : List Frame} (hnext : s.responses = next :: rest)
      (hframe : frame ∈ rest) : IsReturned s'.log frame :=
    old frame (hnext ▸ List.mem_cons_of_mem _ hframe)
  cases h with
  | cancel _ hdropped =>
    intro frame hframe
    rcases List.mem_append.mp hframe with hframe | hframe
    · exact old frame hframe
    · exact ⟨_, _, .inr (List.mem_cons_of_mem _ hdropped), rfl, List.mem_singleton.mp hframe⟩
  | @answer task outcome htask hend =>
    intro frame hframe
    rcases List.mem_append.mp hframe with hframe | hframe
    · exact old frame hframe
    · obtain ⟨method, params, hcalled, hwork⟩ := hs.tasks task htask
      have hown : IsOwnOutcome (.computed task outcome :: s.log) task.id outcome :=
        ⟨task, rfl, ⟨method, params, List.mem_cons_of_mem _ hcalled, hwork⟩, List.mem_cons_self⟩
      have hreceived : outcome.received = outcome := Work.MayEnd.received_eq (hwork ▸ hend)
      exact ⟨_, _, .inl hown, hreceived, List.mem_singleton.mp hframe⟩
  | complete hnext => exact fun _ => tail hnext
  | pass hnext => exact fun _ => tail hnext
  | idle | call | drop | accept | ignore | discard | closeCaller | closeServer => exact old

theorem Move.isConsistent (hs : IsTraced s) (h : Move s s') : IsConsistent s'.log := by
  cases h with
  | call =>
    exact ⟨fun method params hcalled => Nat.lt_irrefl _ (hs.called _ method params hcalled), hs.log⟩
  | drop hid => exact ⟨hs.mem_waiting hid, hs.log⟩
  | cancel _ hdropped => exact ⟨hdropped, hs.log⟩
  | answer htask hend => exact ⟨⟨hs.tasks _ htask, hend⟩, hs.log⟩
  | discard htask hend => exact ⟨⟨hs.tasks _ htask, hend⟩, hs.log⟩
  | complete _ hanswer hid =>
    exact ⟨⟨hs.mem_waiting hid, hanswer.resolve_right (hs.not_dropped hid)⟩, hs.log⟩
  | idle | accept | ignore | pass | closeCaller | closeServer => exact hs.log

theorem IsTraced.move (hs : IsTraced s) (h : Move s s') : IsTraced s' where
  called := h.called_lt hs
  pending := h.pending hs
  requests := h.requests hs
  tasks := h.tasks hs
  responses := h.responses hs
  log := h.isConsistent hs

/-- A task that has ended is no longer tracked, and no other request shares its number. -/
theorem IsTracked.finish (ht : IsTracked s) (htask : task ∈ s.tasks) {inFlight : List (Nat × Nat)}
    (hsub : ∀ entry ∈ inFlight, entry ∈ s.server.inFlight ∧ entry.1 ≠ task.id) :
    ∀ entry ∈ inFlight, ∃ other ∈ s.tasks.filter (·.number ≠ task.number),
      entry = (other.id, other.number) := by
  intro entry hentry
  obtain ⟨hmem, hid⟩ := hsub entry hentry
  obtain ⟨other, hother, rfl⟩ := ht.inFlight entry hmem
  have hnumber : other.number ≠ task.number := by
    intro h
    exact hid (congrArg Task.id (ht.eq_of_number_eq hother htask h))
  exact ⟨other, List.mem_filter.mpr ⟨hother, by simpa using hnumber⟩, rfl⟩

theorem IsTracked.move (ht : IsTracked s) (h : Move s s') : IsTracked s' := by
  have filtered (task : Task) : ((s.tasks.filter (·.number ≠ task.number)).map Task.number).Nodup :=
    ht.nodup.sublist (List.filter_sublist.map _)
  cases h with
  | @accept id method params rest =>
    refine ⟨?_, ?_, ?_⟩
    · intro task htask
      rcases List.mem_append.mp htask with htask | htask
      · exact Nat.lt_succ_of_lt (ht.number_lt task htask)
      · obtain rfl := List.mem_singleton.mp htask
        exact Nat.lt_succ_self _
    · have hfresh : s.server.nextTask ∉ s.tasks.map Task.number := by
        intro hmem
        obtain ⟨task, htask, heq⟩ := List.mem_map.mp hmem
        exact Nat.ne_of_lt (ht.number_lt task htask) heq
      simp only [List.map_append, List.map_cons, List.map_nil]
      exact List.nodup_append_comm.mp (List.nodup_cons.mpr ⟨hfresh, ht.nodup⟩)
    · intro entry hentry
      rcases List.mem_append.mp hentry with hentry | hentry
      · obtain ⟨task, htask, heq⟩ := ht.inFlight entry (List.mem_filter.mp hentry).1
        exact ⟨task, List.mem_append_left _ htask, heq⟩
      · obtain rfl := List.mem_singleton.mp hentry
        exact ⟨_, List.mem_append_right _ (List.mem_singleton_self _), rfl⟩
  | cancel =>
    refine ⟨ht.number_lt, ht.nodup, fun entry hentry => ?_⟩
    exact ht.inFlight entry (List.mem_filter.mp hentry).1
  | @answer task _ htask =>
    refine ⟨fun other hother => ht.number_lt other (List.mem_filter.mp hother).1, filtered task, ?_⟩
    refine ht.finish htask fun entry hentry => ?_
    simpa using List.mem_filter.mp hentry
  | @discard task _ htask _ hwork =>
    refine ⟨fun other hother => ht.number_lt other (List.mem_filter.mp hother).1, filtered task, ?_⟩
    refine ht.finish htask fun entry hentry => ⟨hentry, ?_⟩
    rintro hid
    exact hwork (hid ▸ List.mem_map_of_mem hentry)
  | closeServer => exact ⟨ht.number_lt, ht.nodup, by simp [closeServer, Server.endInput]⟩
  | idle | call | drop | ignore | complete | pass | closeCaller =>
    exact ⟨ht.number_lt, ht.nodup, ht.inFlight⟩

/-- The calls on their way to the server, in work, and on their way back. -/
def places (s : Session) : List Nat :=
  Frame.ids s.requests ++ s.server.ids ++ Frame.ids s.responses

/-- No call is in two places, and as long as the server reads, a call that waits is in one. -/
structure IsPlaced (s : Session) : Prop where
  nodup : s.places.Nodup
  mem : s.isServing = true → ∀ id ∈ s.caller.pending, id ∈ s.places

theorem IsTraced.lt_of_mem_places (hs : IsTraced s) (ht : IsTracked s) (h : id ∈ s.places) :
    id < s.caller.nextId := by
  have called : ∃ method params, .called id method params ∈ s.log := by
    simp only [places, List.mem_append] at h
    rcases h with (h | h) | h
    · obtain ⟨frame, hframe, hid⟩ := List.mem_filterMap.mp h
      exact (hs.requests frame hframe).exists_called hid
    · obtain ⟨entry, hentry, rfl⟩ := List.mem_map.mp h
      obtain ⟨task, htask, rfl⟩ := ht.inFlight entry hentry
      exact (hs.tasks task htask).exists_called
    · obtain ⟨frame, hframe, hid⟩ := List.mem_filterMap.mp h
      exact (hs.responses frame hframe).exists_called hs.log hid
  obtain ⟨method, params, hcalled⟩ := called
  exact hs.called id method params hcalled

theorem perm_filter_append {ids : List Nat} (hnodup : ids.Nodup) (hid : id ∈ ids) :
    ids.filter (· ≠ id) ++ [id] ~ ids := by
  have herase : ids.filter (· ≠ id) = ids.erase id := by
    rw [hnodup.erase_eq_filter]
    exact List.filter_congr fun other _ => by by_cases h : other = id <;> simp [h]
  rw [herase]
  exact (List.perm_append_singleton _ _).trans (List.perm_cons_erase hid).symm

theorem perm_of_start (before after : List Nat) {ids : List Nat} (hid : id ∉ ids) :
    before ++ (ids.filter (· ≠ id) ++ [id]) ++ after ~ id :: (before ++ ids ++ after) := by
  have hids : ids.filter (· ≠ id) = ids :=
    List.filter_eq_self.mpr fun other hother => by
      have hne : other ≠ id := fun h => hid (h ▸ hother)
      simp [hne]
  calc before ++ (ids.filter (· ≠ id) ++ [id]) ++ after
      = before ++ ids ++ id :: after := by rw [hids]; simp
    _ ~ id :: (before ++ ids ++ after) := List.perm_middle

theorem perm_of_untrack (before after : List Nat) {ids : List Nat} (hnodup : ids.Nodup)
    (hid : id ∈ ids) :
    before ++ ids.filter (· ≠ id) ++ (after ++ [id]) ~ before ++ ids ++ after :=
  calc before ++ ids.filter (· ≠ id) ++ (after ++ [id])
      ~ before ++ ids.filter (· ≠ id) ++ ([id] ++ after) := List.perm_append_comm.append_left _
    _ = before ++ (ids.filter (· ≠ id) ++ [id]) ++ after := by simp
    _ ~ before ++ ids ++ after := ((perm_filter_append hnodup hid).append_left _).append_right _

theorem IsPlaced.of_perm (hp : IsPlaced s) (hperm : s'.places ~ s.places)
    (hserving : s'.isServing = s.isServing) (hpending : s'.caller.pending ⊆ s.caller.pending) :
    IsPlaced s' where
  nodup := hperm.nodup_iff.mpr hp.nodup
  mem h id hid := hperm.mem_iff.mpr (hp.mem (hserving ▸ h) id (hpending hid))

theorem IsPlaced.of_perm_cons (hp : IsPlaced s) (hperm : s.places ~ id :: s'.places)
    (hserving : s'.isServing = s.isServing) (hpending : s'.caller.pending ⊆ s.caller.pending)
    (hid : id ∉ s'.caller.pending) : IsPlaced s' where
  nodup := (List.nodup_cons.mp (hperm.nodup_iff.mp hp.nodup)).2
  mem h other hother := by
    rcases List.mem_cons.mp (hperm.mem_iff.mp (hp.mem (hserving ▸ h) other (hpending hother))) with
      rfl | hmem
    · exact absurd hother hid
    · exact hmem

theorem IsPlaced.of_cons_perm (hp : IsPlaced s) (hperm : s'.places ~ id :: s.places)
    (hserving : s'.isServing = s.isServing)
    (hpending : s'.caller.pending ⊆ id :: s.caller.pending) (hid : id ∉ s.places) :
    IsPlaced s' where
  nodup := hperm.nodup_iff.mpr (List.nodup_cons.mpr ⟨hid, hp.nodup⟩)
  mem h other hother := by
    refine hperm.mem_iff.mpr ?_
    rcases List.mem_cons.mp (hpending hother) with rfl | hother
    · exact List.mem_cons_self
    · exact List.mem_cons_of_mem _ (hp.mem (hserving ▸ h) other hother)

theorem settle_subset (caller : Caller) (id : Nat) : (caller.settle id).pending ⊆ caller.pending :=
  fun _ h => (List.mem_filter.mp h).1

theorem not_mem_settle (caller : Caller) (id : Nat) : id ∉ (caller.settle id).pending := by
  simp [Caller.settle]

theorem IsPlaced.ids_nodup (hp : IsPlaced s) : s.server.ids.Nodup :=
  (List.nodup_append.mp (List.nodup_append.mp hp.nodup).1).2.1

theorem IsPlaced.move (hs : IsTraced s) (ht : IsTracked s) (hp : IsPlaced s) (h : Move s s') :
    IsPlaced s' := by
  cases h with
  -- The task that ends was cancelled before, so its request is in work no more.
  | idle | discard => exact hp.of_perm (.refl _) rfl (List.Subset.refl _)
  | call =>
    have hfresh : s.caller.nextId ∉ s.places :=
      fun hmem => Nat.lt_irrefl _ (hs.lt_of_mem_places ht hmem)
    refine hp.of_cons_perm ?_ rfl ?_ hfresh
    · simp [places]
    · simp
  | drop hid =>
    refine hp.of_perm ?_ rfl (settle_subset _ _)
    simp [places]
  | @accept id _ _ rest hnext =>
    have hnodup := hp.nodup
    simp only [places, hnext, Frame.ids_request_cons] at hnodup
    have hid : id ∉ s.server.ids := by
      simp only [List.cons_append, List.nodup_cons, List.mem_append, not_or] at hnodup
      exact hnodup.1.1.2
    refine hp.of_perm ?_ rfl (List.Subset.refl _)
    simpa only [places, hnext, Server.ids_start, Frame.ids_request_cons, List.cons_append] using
      perm_of_start _ _ hid
  | cancel hnext _ hwork =>
    refine hp.of_perm ?_ rfl (List.Subset.refl _)
    simpa [places, hnext, Server.ids_untrack] using perm_of_untrack _ _ hp.ids_nodup hwork
  | ignore hnext =>
    refine hp.of_perm ?_ rfl (List.Subset.refl _)
    simp [places, hnext]
  | answer _ _ hwork =>
    refine hp.of_perm ?_ rfl (List.Subset.refl _)
    simpa [places, Server.ids_untrack] using perm_of_untrack _ _ hp.ids_nodup hwork
  | complete hnext =>
    refine hp.of_perm_cons ?_ rfl (settle_subset _ _) (not_mem_settle _ _)
    simp only [places, hnext, Frame.ids_response_cons]
    exact List.perm_middle
  | pass hnext hid =>
    refine hp.of_perm_cons ?_ rfl (List.Subset.refl _) hid
    simp only [places, hnext, Frame.ids_response_cons]
    exact List.perm_middle
  | closeCaller => exact hp.of_perm (.refl _) rfl (List.nil_subset _)
  | closeServer =>
    refine ⟨hp.nodup.sublist ?_, fun h => by simp [closeServer] at h⟩
    simp [places, closeServer, Server.ids, Server.endInput]

theorem isTraced_initial : IsTraced {} where
  called := by simp
  pending := .inl rfl
  requests := by simp
  tasks := by simp
  responses := by simp
  log := trivial

theorem isTracked_initial : IsTracked {} := ⟨by simp, by simp, by simp⟩

theorem isPlaced_initial : IsPlaced {} := ⟨by simp [places, Server.ids], by simp⟩

theorem Reachable.invariant (h : Reachable s) : IsTraced s ∧ IsTracked s ∧ IsPlaced s := by
  induction h with
  | refl => exact ⟨isTraced_initial, isTracked_initial, isPlaced_initial⟩
  | tail _ hstep ih =>
    -- A step is known to be a move only where all is traced and tracked, so the three go together.
    obtain ⟨hs, ht, hp⟩ := ih
    have hmove := hstep.move hs ht
    exact ⟨hs.move hmove, ht.move hmove, hp.move hs ht hmove⟩

/-- What the two ends keep to, in any state of a session. -/
structure IsFaithful (s : Session) : Prop where
  /-- While the channel is open, the caller knows the calls that wait. -/
  pending : s.caller.isClosed = false → s.caller.pending = waiting s.log
  /-- While the channel is open, a call that waits is in exactly one place. -/
  placed : s.isServing = true → ∀ id ∈ s.caller.pending, s.places.count id = 1
  /-- A call ends once, with its own outcome, and only the work of dropped calls is cancelled. -/
  log : IsConsistent s.log
  /-- A late response to a dropped call is passed over. -/
  late : ∀ id outcome rest, s.responses = .response (some id) outcome :: rest →
    .dropped id ∈ s.log → (Frame.response (some id) outcome).IsReadBack →
      s.read = { s with responses := rest }

theorem isFaithful_of_reachable (h : Reachable s) : IsFaithful s := by
  obtain ⟨hs, ht, hp⟩ := h.invariant
  refine ⟨?_, ?_, hs.log, ?_⟩
  · intro hopen
    exact hs.pending.resolve_right fun hclosed => by simp [hopen] at hclosed
  · intro hserving id hid
    exact List.count_eq_one_of_mem hp.nodup (hp.mem hserving id hid)
  · intro id outcome rest hnext hdropped hread
    exact read_of_not_mem hnext (fun hid => hs.not_dropped hid hdropped) hread

def idleBackend : Backend := ⟨fun _ => .never, .now (.ok ())⟩

def warmUpTask : Task := ⟨0, 1, .ofRequest warmUpMethod (some .null)⟩

def otherTask : Task := ⟨1, 2, .ofRequest "other" (some .null)⟩

def otherFailure : Failure := ⟨Failure.unknownMethodCode, "Unknown method: other", none⟩

def twoCalls : Session := (({} : Session).call warmUpMethod .null).call "other" .null

def twoTasks : Session :=
  { twoCalls with
    requests := []
    server := ⟨[(1, 0), (2, 1)], 2⟩
    tasks := [warmUpTask, otherTask] }

/-- The warm-up is dropped when its response is on its way, before that of the other call. -/
def lateDrop : Session :=
  ((twoTasks.finish warmUpTask (.ok .null)).drop 1).finish otherTask (.error otherFailure)

def afterLateDrop : Session :=
  { lateDrop with
    caller := { lateDrop.caller with pending := [] }
    requests := []
    responses := []
    log := .completed 2 (.error otherFailure) :: lateDrop.log }

theorem reachable_twoTasks : Reachable twoTasks := by
  have hwarmUp : (Frame.request 1 warmUpMethod .null).IsReadBack := by cbv
  have hother : (Frame.request 2 "other" .null).IsReadBack := by cbv
  have hfirst := serve_request (s := twoCalls) rfl (by decide) hwarmUp
  have hsecond : twoCalls.serve.serve = twoTasks := by
    rw [hfirst]
    exact serve_request rfl (by decide) hother
  rw [← hsecond]
  have hnext : twoCalls.serve.requests = [.request 2 "other" .null] := by
    rw [hfirst]
    rfl
  have hserving : twoCalls.serve.isServing = true := by rw [hfirst]; rfl
  exact .tail (.tail (.tail (.tail .refl (.call _ _ (by decide))) (.call _ _ (by decide)))
    (.serve rfl rfl hwarmUp)) (.serve hserving hnext hother)

theorem reachable_lateDrop : Reachable lateDrop := by
  have hleft : ((twoTasks.finish warmUpTask (.ok .null)).drop 1).tasks = [otherTask] := rfl
  refine .tail (.tail (.tail reachable_twoTasks (.finish ?_ ⟨idleBackend, _, rfl⟩)) (.drop 1))
    (.finish ?_ ⟨idleBackend, ⟨0⟩, by cbv⟩)
  · simp [twoTasks]
  · simp [hleft]

theorem reachable_afterLateDrop : Reachable afterLateDrop := by
  have hcancel : (Frame.cancel 1).IsReadBack := by cbv
  have hlate : (Frame.response (some 1) (.ok .null)).IsReadBack := by cbv
  have hown : (Frame.response (some 2) (.error otherFailure)).IsReadBack := by cbv
  have hserve : lateDrop.serve = { lateDrop with requests := [] } := by
    rcases serve_cancel (s := lateDrop) rfl hcancel with h | ⟨number, hlookup, -⟩
    · exact h
    · cases hlookup
  have hpass : lateDrop.serve.read =
      { lateDrop with
        requests := []
        responses := [.response (some 2) (.error otherFailure)] } := by
    rw [hserve]
    exact read_of_not_mem rfl (by decide) hlate
  have hread : lateDrop.serve.read.read = afterLateDrop := by
    rw [hpass]
    exact read_of_mem rfl (by decide) hown
  rw [← hread]
  have hfirst : lateDrop.serve.responses =
      [.response (some 1) (.ok .null), .response (some 2) (.error otherFailure)] := by
    rw [hserve]
    rfl
  have hsecond : lateDrop.serve.read.responses = [.response (some 2) (.error otherFailure)] := by
    rw [hpass]
  exact .tail (.tail (.tail reachable_lateDrop (.serve rfl rfl hcancel)) (.read hfirst hlate))
    (.read hsecond hown)

theorem isFaithful_afterLateDrop :
    Reachable afterLateDrop ∧
      afterLateDrop.log =
        [.completed 2 (.error otherFailure), .computed otherTask (.error otherFailure), .dropped 1,
          .computed warmUpTask (.ok .null), .called 2 "other" .null,
          .called 1 warmUpMethod .null] ∧
      IsFaithful afterLateDrop :=
  ⟨reachable_afterLateDrop, rfl, isFaithful_of_reachable reachable_afterLateDrop⟩

end CodeNav.Channel.Session
