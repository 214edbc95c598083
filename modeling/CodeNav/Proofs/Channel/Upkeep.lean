import CodeNav.Proofs.Channel.Ledger

/-! # Keeping the log

Every step of a server keeps what the log knows of it. A frame that a task has yet to queue counts
as if it were sent, so a task that looks its request up answers it at once as far as the log is
concerned.
-/

namespace CodeNav.Channel.Service

variable {s s' : Service} {i id number : Nat} {task : Task} {outcome : Outcome} {round : Round}
  {line : List Char} {before after : List Running}

/-- The log explains the server, its tasks and its responses. -/
structure IsKept (s : Service) : Prop where
  ledger : Ledger s.server s.log s.frames
  tasked : Tasked (s.tasks.map Running.task) s.log
  expected : Expected s.server s.tasks s.log
  hears : HearsAll s.log
  ended : .inputEnded ∈ s.log → s.phase = .draining ∨ s.phase = .returned
  drained : s.phase = .draining ∨ s.phase = .returned → s.server.inFlight = [] ∧ s.owed = []
  returned : s.phase = .returned → s.tasks = [] ∧ s.queue = []

namespace IsKept

theorem inputEnded_notMem (hs : IsKept s) (hreading : s.phase = .reading) :
    .inputEnded ∉ s.log := by
  intro hended
  simpa [hreading] using hs.ended hended

theorem of_reading (hledger : Ledger s.server s.log s.frames)
    (htasked : Tasked (s.tasks.map Running.task) s.log)
    (hexpected : Expected s.server s.tasks s.log) (hhears : HearsAll s.log)
    (hreading : s.phase = .reading) (hlog : .inputEnded ∉ s.log) : IsKept s where
  ledger := hledger
  tasked := htasked
  expected := hexpected
  hears := hhears
  ended h := absurd h hlog
  drained h := by simp [hreading] at h
  returned h := by simp [hreading] at h

end IsKept

theorem fate?_cancel (hline : Message.ofLine line = .cancel id) :
    (Event.read line).fate? i = if i = id then some .cancelled else none := by
  simp [Event.fate?, Event.Cancels, hline, eq_comm]

theorem rest_sublist {running : Running} (htasks : s.tasks = before ++ running :: after) :
    (before ++ after).Sublist s.tasks := by
  rw [htasks]
  exact (List.sublist_cons_self _ _).append_left _

theorem response?_of_isStoppedBy {running : Running} (h : running.isStoppedBy number) :
    running.response? = none := by
  obtain ⟨task, stage⟩ := running
  cases stage with
  | working => rfl
  | ended => rfl
  | answering => cases h

theorem filterMap_response?_filter {keeps : Running → Bool}
    (h : ∀ running, keeps running = false → running.response? = none) (tasks : List Running) :
    (tasks.filter keeps).filterMap Running.response? = tasks.filterMap Running.response? := by
  rw [List.filterMap_filter]
  refine List.filterMap_congr fun running _ => ?_
  cases hkeeps : keeps running with
  | false => simp [h running hkeeps]
  | true => rfl

theorem perm_owed (sent owed responses : List Frame) (frame : Frame) :
    (sent ++ (owed ++ [frame] ++ responses)).Perm (sent ++ (owed ++ responses) ++ [frame]) := by
  simp only [List.append_assoc]
  exact (List.perm_append_comm.append_left owed).append_left sent

theorem responses_append (before after : List Running) (running : Running) :
    (before ++ running :: after).filterMap Running.response? =
      before.filterMap Running.response? ++ (running.response?.toList ++
        after.filterMap Running.response?) := by
  cases hresponse : running.response? <;> simp [hresponse]

theorem frames_send {frame : Frame} {rest : List Frame} (howed : s.owed = frame :: rest) :
    ({ s with owed := rest, queue := s.queue ++ [frame] } : Service).frames = s.frames := by
  simp [frames, sent, unqueued, howed]

theorem frames_write {frame : Frame} {rest : List Frame} (hqueue : s.queue = frame :: rest) :
    ({ s with queue := rest, written := s.written ++ [frame] } : Service).frames = s.frames := by
  simp [frames, sent, unqueued, hqueue]

theorem frames_conclude (htasks : s.tasks = before ++ ⟨task, .working⟩ :: after)
    (outcome : Outcome) :
    ({ s with tasks := before ++ ⟨task, .ended outcome⟩ :: after } : Service).frames =
      s.frames := by
  rw [frames, frames, unqueued, unqueued, htasks, responses_append, responses_append]
  rfl

theorem frames_discard (htasks : s.tasks = before ++ ⟨task, .ended outcome⟩ :: after) :
    ({ s with tasks := before ++ after } : Service).frames = s.frames := by
  rw [frames, frames, unqueued, unqueued, htasks, responses_append, List.filterMap_append]
  rfl

theorem frames_take (htasks : s.tasks = before ++ ⟨task, .ended outcome⟩ :: after)
    (response : Frame) :
    ({ s with tasks := before ++ ⟨task, .answering response⟩ :: after } : Service).frames.Perm
      (s.frames ++ [response]) := by
  have hresponses : (before.filterMap Running.response? ++ response ::
      after.filterMap Running.response?).Perm
        (before.filterMap Running.response? ++ after.filterMap Running.response? ++ [response]) :=
    List.perm_middle.trans (List.perm_append_singleton _ _).symm
  rw [frames, frames, unqueued, unqueued, htasks, responses_append, responses_append,
    List.append_assoc, List.append_assoc]
  exact (hresponses.append_left _).append_left _

theorem frames_answer {response : Frame}
    (htasks : s.tasks = before ++ ⟨task, .answering response⟩ :: after) :
    ({ s with tasks := before ++ after, queue := s.queue ++ [response] } : Service).frames.Perm
      s.frames := by
  have hmoved : ([response] ++ (s.owed ++ before.filterMap Running.response?)).Perm
      (s.owed ++ before.filterMap Running.response? ++ [response]) := List.perm_append_comm
  rw [frames, frames, unqueued, unqueued, htasks, responses_append, List.filterMap_append]
  simpa only [sent, List.append_assoc, Running.response?, Option.toList] using
    (hmoved.append_right (after.filterMap Running.response?)).append_left s.sent

namespace IsKept

theorem read_unheeded (hs : IsKept s) (hreading : s.phase = .reading)
    (hline : Message.ofLine line = .cancel id) (hlookup : s.server.inFlight.lookup id = none) :
    IsKept (s.read line) := by
  have hlog := hs.inputEnded_notMem hreading
  have hledger := hs.ledger.pass []
    (show (Event.read line).request? = none by simp [Event.request?, hline])
    (fun i hi => by
      rw [fate?_cancel hline, if_neg fun heq => by simp [heq, hlookup] at hi])
    (fun _ => rfl) (by simp [Service.anonymous, Event.isMalformed, hline])
  rw [List.append_nil] at hledger
  rw [read_cancel_of_lookup_none hline hlookup]
  exact of_reading hledger (hs.tasked.cons _) (hs.expected.cons _) (hs.hears.read line) hreading
    (by simpa using hlog)

/-- Whoever wanted the request is known to be given up from now on. -/
theorem read_cancel (hs : IsKept s) (hreading : s.phase = .reading)
    (hline : Message.ofLine line = .cancel id)
    (hlookup : s.server.inFlight.lookup id = some number) : IsKept (s.read line) := by
  have hlog := hs.inputEnded_notMem hreading
  have hfate : (Event.read line).fate? id = some .cancelled := by simp [fate?_cancel hline]
  have hledger := hs.ledger.answer hlookup
    (show (Event.read line).request? = none by simp [Event.request?, hline])
    (show (Event.read line).isMalformed = false by simp [Event.isMalformed, hline]) hfate
    (fun i hi => by rw [fate?_cancel hline, if_neg hi]) rfl
  have hforsaken : IsForsaken (rounds id (.read line :: s.log)) number := by
    obtain ⟨work, hopen⟩ := (hlookup ▸ hs.ledger.books id).exists_open
    refine ⟨_, List.mem_append_left _ (List.mem_map_of_mem hopen), Nat.le_refl _, ?_⟩
    rw [Round.next, hfate]
    rfl
  have hresponses : (s.tasks.filter fun running => !running.isStoppedBy number).filterMap
      Running.response? = s.tasks.filterMap Running.response? :=
    filterMap_response?_filter (fun running h => response?_of_isStoppedBy (by simpa using h)) _
  rw [read_cancel_of_lookup_some hline hlookup]
  refine of_reading (hledger.of_perm ?_) ((hs.tasked.cons _).mono (List.filter_sublist.map _))
    (hs.expected.untrack hlookup (fun _ hmem _ => List.mem_of_mem_filter hmem)
      fun _ _ _ _ _ _ => hforsaken) (hs.hears.read line) hreading (by simpa using hlog)
  rw [frames, unqueued, hresponses]
  exact perm_owed ..

theorem read (hs : IsKept s) (hreading : s.phase = .reading)
    (hnew : ∀ id work, Message.ofLine line = .request id work → id ∉ s.server.ids) :
    IsKept (s.read line) := by
  have hlog := hs.inputEnded_notMem hreading
  have hlog' : .inputEnded ∉ Event.read line :: s.log := by simpa using hlog
  have htasked := hs.tasked.cons (.read line)
  have hexpected := hs.expected.cons (.read line)
  have hhears := hs.hears.read line
  cases hline : Message.ofLine line with
  | request id work =>
    have hlookup : s.server.inFlight.lookup id = none :=
      Server.lookup_of_not_mem_ids (hnew id work hline)
    have hrequest : (Event.read line).request? = some (id, work) := by
      simp [Event.request?, hline]
    have hledger := hs.ledger.start hlookup hrequest (by simp [Event.isMalformed, hline])
      (by simp [Event.fate?, Event.Cancels, hline])
    have hstarted := hs.tasked.start hrequest
    rw [← hs.ledger.number] at hstarted
    rw [read_request hline]
    refine of_reading (hledger.of_perm (.of_eq ?_)) ?_ (hs.expected.start hlookup _ work) hhears
      hreading hlog'
    · simp [frames, sent, unqueued, Running.response?]
    · simpa using hstarted
  | cancel id =>
    cases hlookup : s.server.inFlight.lookup id with
    | none => exact hs.read_unheeded hreading hline hlookup
    | some number => exact hs.read_cancel hreading hline hlookup
  | malformed =>
    have hledger := hs.ledger.pass [.response none (.error Server.malformed)]
      (show (Event.read line).request? = none by simp [Event.request?, hline])
      (by simp [Event.fate?, Event.Cancels, hline])
      (fun i => outcomes_response_of_ne (by simp) _)
      (by simp [Service.anonymous, Event.isMalformed, hline])
    rw [read_malformed hline]
    exact of_reading (hledger.of_perm (perm_owed ..)) htasked hexpected hhears hreading hlog'
  | nothing =>
    have hledger := hs.ledger.pass []
      (show (Event.read line).request? = none by simp [Event.request?, hline])
      (by simp [Event.fate?, Event.Cancels, hline]) (fun _ => rfl)
      (by simp [Service.anonymous, Event.isMalformed, hline])
    rw [List.append_nil] at hledger
    rw [read_nothing hline]
    exact of_reading hledger htasked hexpected hhears hreading hlog'

theorem conclude (hs : IsKept s) (htasks : s.tasks = before ++ ⟨task, .working⟩ :: after)
    (hend : task.work.MayEnd outcome) :
    IsKept { s with tasks := before ++ ⟨task, .ended outcome⟩ :: after } where
  ledger := frames_conclude htasks outcome ▸ hs.ledger
  tasked := by simpa [htasks] using hs.tasked
  expected := by
    have hmem (running : Running) (h : running ∈ before ++ after) : running ∈ s.tasks :=
      (rest_sublist htasks).subset h
    constructor
    · intro other outcome' hended
      rcases List.mem_cons.mp (List.perm_middle.mem_iff.mp hended) with heq | hended
      · obtain ⟨rfl, rfl⟩ : other = task ∧ outcome' = outcome := by simpa using heq
        exact hend
      · exact hs.expected.outcome other outcome' (hmem _ hended)
    · intro hlog running hrunning hresponse
      rcases List.mem_cons.mp (List.perm_middle.mem_iff.mp hrunning) with rfl | hrunning
      · exact hs.expected.wanted hlog ⟨task, .working⟩ (by simp [htasks]) rfl
      · exact hs.expected.wanted hlog running (hmem _ hrunning) hresponse
  hears := hs.hears
  ended := hs.ended
  drained := hs.drained
  returned h := by simp [(hs.returned h).1] at htasks

/-- A task that finds a request under its identifier finds its own, or a later one. -/
theorem number_le_of_lookup (hs : IsKept s) {running : Running} (hrunning : running ∈ s.tasks)
    (hlookup : s.server.inFlight.lookup running.task.id = some number) :
    running.task.number ≤ number := by
  obtain ⟨asked, hasked, heq, -⟩ :=
    hs.tasked.asked running.task (List.mem_map_of_mem hrunning)
  exact heq ▸ (hlookup ▸ hs.ledger.books running.task.id).number_le (pairwise_numbers ..) hasked

theorem isHeard_of_lookup (hs : IsKept s)
    (htasks : s.tasks = before ++ ⟨task, .ended outcome⟩ :: after)
    (hlookup : s.server.inFlight.lookup task.id = some number) (hlog : .inputEnded ∉ s.log)
    (hround : round ∈ rounds task.id s.log) (hopen : round.fate? = none) :
    IsHeard (rounds task.id s.log) round task.number outcome := by
  have hmem : ⟨task, .ended outcome⟩ ∈ s.tasks := by simp [htasks]
  have hbooks := hlookup ▸ hs.ledger.books task.id
  obtain ⟨asked, hasked, hnumber, hwork⟩ := hs.tasked.asked task (List.mem_map_of_mem hmem)
  refine ⟨⟨asked, hasked, hnumber, hwork ▸ hs.expected.outcome _ _ hmem⟩, ?_⟩
  rw [hbooks.number_eq hround hopen]
  rcases hs.expected.wanted hlog _ hmem rfl with hwanted | hforsaken
  · exact .inl (Option.some.inj (hwanted.symm.trans hlookup))
  · rcases Nat.eq_or_lt_of_le (hs.number_le_of_lookup hmem hlookup) with heq | hlt
    · exact .inl heq
    · exact .inr ⟨hlt, hforsaken⟩

theorem number_ne (hs : IsKept s) {running other : Running}
    (htasks : s.tasks = before ++ running :: after) (hother : other ∈ before ++ after) :
    other.task.number ≠ running.task.number := by
  have hnumbers := hs.tasked.nodup
  rw [htasks, List.map_map, (List.perm_middle.map _).nodup_iff, List.map_cons,
    List.nodup_cons] at hnumbers
  exact fun heq => hnumbers.1 (List.mem_map.mpr ⟨other, hother, heq⟩)

/-- Whoever else wanted the request sees that a task which was given up has taken it. -/
theorem expected_take (hs : IsKept s)
    (htasks : s.tasks = before ++ ⟨task, .ended outcome⟩ :: after)
    (hlookup : s.server.inFlight.lookup task.id = some number) (response : Frame) :
    Expected (s.server.untrack task.id) (before ++ ⟨task, .answering response⟩ :: after)
      (.took task outcome :: s.log) := by
  have hrest (running : Running)
      (hrunning : running ∈ before ++ ⟨task, .answering response⟩ :: after)
      (hresponse : running.response? = none) : running ∈ before ++ after := by
    rcases List.mem_cons.mp (List.perm_middle.mem_iff.mp hrunning) with rfl | hrunning
    · cases hresponse
    · exact hrunning
  refine hs.expected.untrack hlookup
    (fun running hrunning hresponse =>
      (rest_sublist htasks).subset (hrest running hrunning hresponse)) ?_
  intro hlog running hrunning hresponse hid hnumber
  have htask : ⟨task, .ended outcome⟩ ∈ s.tasks := by simp [htasks]
  rcases hs.expected.wanted hlog _ htask rfl with hwanted | hforsaken
  · have hsame : task.number = number := Option.some.inj (hwanted.symm.trans hlookup)
    have hne := hs.number_ne htasks (hrest running hrunning hresponse)
    exact absurd (hnumber.trans hsame.symm) hne
  · have hle : task.number ≤ number := hs.number_le_of_lookup htask hlookup
    exact (hforsaken.mono hle).cons (.took task outcome)

theorem discard (hs : IsKept s) (htasks : s.tasks = before ++ ⟨task, .ended outcome⟩ :: after) :
    IsKept { s with tasks := before ++ after } where
  ledger := frames_discard htasks ▸ hs.ledger
  tasked := hs.tasked.mono ((rest_sublist htasks).map _)
  expected := hs.expected.mono fun running hrunning _ => (rest_sublist htasks).subset hrunning
  hears := hs.hears
  ended := hs.ended
  drained := hs.drained
  returned h := by simp [(hs.returned h).1] at htasks

theorem take (hs : IsKept s) (htasks : s.tasks = before ++ ⟨task, .ended outcome⟩ :: after) :
    IsKept (s.take before task outcome after) := by
  cases hlookup : s.server.inFlight.lookup task.id with
  | none =>
    rw [take_of_lookup_none hlookup]
    exact hs.discard htasks
  | some number =>
    -- A request that is found is in work, so the input has not ended.
    have hphase : ¬ (s.phase = .draining ∨ s.phase = .returned) := fun h => by
      simp [(hs.drained h).1] at hlookup
    have hlog : .inputEnded ∉ s.log := fun h => hphase (hs.ended h)
    have hfate : (Event.took task outcome).fate? task.id =
        some (.answered task.number outcome) := by simp [Event.fate?]
    have hothers (i : Nat) (hi : i ≠ task.id) : (Event.took task outcome).fate? i = none := by
      simp [Event.fate?, hi.symm]
    have hledger := hs.ledger.answer hlookup rfl rfl hfate hothers rfl
    rw [take_of_lookup_some hlookup]
    exact {
      ledger := hledger.of_perm (frames_take htasks _)
      tasked := by simpa [htasks] using hs.tasked.cons (.took task outcome)
      expected := hs.expected_take htasks hlookup _
      hears := hs.hears.cons fun i round hround hopen number' outcome' hgiven => by
        obtain ⟨rfl, rfl, rfl⟩ : task.id = i ∧ task.number = number' ∧ outcome = outcome' := by
          simpa [Event.fate?] using hgiven
        exact hs.isHeard_of_lookup htasks hlookup hlog hround hopen
      ended := fun h => absurd h (by simpa using hlog)
      drained := fun h => absurd h hphase
      returned := fun h => absurd (.inr h) hphase }

theorem endInput (hs : IsKept s) (howed : s.owed = []) :
    IsKept s.endInput := by
  have hresponses : (s.tasks.filter fun running =>
      !(s.server.inFlight.map Prod.snd).any running.isStoppedBy).filterMap Running.response? =
        s.tasks.filterMap Running.response? := by
    refine filterMap_response?_filter (fun running h => ?_) _
    obtain ⟨number, -, hstopped⟩ := List.any_eq_true.mp (by simpa only [Bool.not_eq_false'] using h)
    exact response?_of_isStoppedBy hstopped
  rw [endInput_eq]
  exact {
    ledger := hs.ledger.abandon.of_perm (.of_eq (by simp only [frames, sent, unqueued, hresponses]))
    tasked := (hs.tasked.cons .inputEnded).mono (List.filter_sublist.map _)
    expected :=
      ⟨fun _ _ hended => hs.expected.outcome _ _ (List.mem_of_mem_filter hended), by simp⟩
    hears := hs.hears.cons fun _ _ _ _ _ _ hgiven => by simp [Event.fate?] at hgiven
    ended := fun _ => .inl rfl
    drained := fun _ => ⟨rfl, howed⟩
    returned := fun h => by cases h }

theorem answer (hs : IsKept s) {response : Frame}
    (htasks : s.tasks = before ++ ⟨task, .answering response⟩ :: after) :
    IsKept { s with tasks := before ++ after, queue := s.queue ++ [response] } where
  ledger := hs.ledger.of_perm (frames_answer htasks)
  tasked := hs.tasked.mono ((rest_sublist htasks).map _)
  expected := hs.expected.mono fun running hrunning _ => (rest_sublist htasks).subset hrunning
  hears := hs.hears
  ended := hs.ended
  drained := hs.drained
  returned h := by simp [(hs.returned h).1] at htasks

theorem step (hs : IsKept s) (h : Step s s') : IsKept s' := by
  cases h with
  | read line hreading howed hnew => exact hs.read hreading hnew
  | @send frame rest howed =>
    exact {
      ledger := frames_send howed ▸ hs.ledger
      tasked := hs.tasked
      expected := hs.expected
      hears := hs.hears
      ended := hs.ended
      drained := fun h => by simp [(hs.drained h).2] at howed
      returned := fun h => by simp [(hs.drained (.inr h)).2] at howed }
  | conclude htasks hend => exact hs.conclude htasks hend
  | take htasks => exact hs.take htasks
  | answer htasks => exact hs.answer htasks
  | @write frame rest hqueue =>
    exact {
      ledger := frames_write hqueue ▸ hs.ledger
      tasked := hs.tasked
      expected := hs.expected
      hears := hs.hears
      ended := hs.ended
      drained := hs.drained
      returned := fun h => by simp [(hs.returned h).2] at hqueue }
  | endInput hreading howed => exact hs.endInput howed
  | fail _ hreading _ =>
    exact {
      ledger := hs.ledger
      tasked := hs.tasked
      expected := hs.expected
      hears := hs.hears
      ended := fun h => absurd h (hs.inputEnded_notMem hreading)
      drained := by simp
      returned := by simp }
  | leave hdraining htasks hqueue =>
    exact {
      ledger := hs.ledger
      tasked := hs.tasked
      expected := hs.expected
      hears := hs.hears
      ended := fun _ => .inr rfl
      drained := fun _ => hs.drained (.inl hdraining)
      returned := fun _ => ⟨htasks, hqueue⟩ }

end IsKept

end CodeNav.Channel.Service
