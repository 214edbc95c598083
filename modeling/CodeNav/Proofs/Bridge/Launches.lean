import CodeNav.Proofs.Bridge.Life

/-! # One launch and one session

However its calls interleave with the start-up, with a shutdown and with the loss of the channel, a
bridge launches one child at most. It takes the session up only while it waits for it, and calls
have no other one.
-/

namespace CodeNav

open Channel Relation

namespace Channel.Conversation

/-- Nothing was ever asked of the session. -/
structure IsUnused (s : Conversation) : Prop where
  calls : ∀ id, s.calls id = none
  trace : ∀ id, trace id s.log = []

theorem IsUnused.read {s : Conversation} (hs : s.IsUnused) (line : List Char) :
    (s.read line).IsUnused := by
  unfold Conversation.read
  split
  · exact ⟨hs.calls, hs.trace⟩
  · refine ⟨fun id => ?_, hs.trace⟩
    rw [hs.calls, Option.map_none, Function.update_eq_self_iff.mpr (hs.calls _).symm]
    exact hs.calls id

theorem IsUnused.progress {s s' : Conversation} (hs : s.IsUnused) (h : Progress s s') :
    s'.IsUnused := by
  have hcalls := hs.calls
  cases h with
  | read line => exact hs.read line
  | endInput => exact ⟨hs.calls, hs.trace⟩
  | failWrite => exact ⟨hs.calls, hs.trace⟩
  | stopWriter => exact ⟨hs.calls, hs.trace⟩
  | _ => simp_all

end Channel.Conversation

namespace Bridge

inductive Moves : Bridge Nat → Bridge Nat → Prop where
  | stay (bridge : Bridge Nat) : Moves bridge bridge
  | start : Moves .notStarted .starting
  | connect (k : Nat) : Moves .starting (.connected k)
  | terminate (bridge : Bridge Nat) : Moves bridge .terminated

namespace Moves

variable {bridge bridge' : Bridge Nat}

theorem terminated (h : Moves .terminated bridge) : bridge = .terminated := by
  cases h <;> rfl

end Moves

namespace Life

variable {s s' : Life} {n m k : Nat} {request : Request} {running? : Option Running}
  {deeds : List Deed} {log : List Event} {bridge : Bridge Nat} {session session' : Conversation}
  {phase : StartUp}

/-- At most one call launches, and that is when none has launched yet. -/
structure IsLaunchedOnce (s : Life) : Prop where
  idle : s.bridge = .notStarted → s.launches = 0
  launching : ∀ n request, s.calls n = some ⟨request, .launching⟩ →
    s.launches = 0 ∧ s.bridge ≠ .notStarted ∧
      ∀ m request', s.calls m = some ⟨request', .launching⟩ → m = n
  launches : s.launches ≤ 1
  startUps : ∀ k, s.startUps k ≠ none → k < s.launches

theorem isLaunchedOnce_initial : IsLaunchedOnce {} := by
  constructor <;> simp

namespace IsLaunchedOnce

theorem mono (hs : IsLaunchedOnce s) (hbridge : s'.bridge = .notStarted → s.bridge = .notStarted)
    (hlaunches : s'.launches = s.launches)
    (hstartUps : ∀ k, s'.startUps k ≠ none → s.startUps k ≠ none)
    (hcalls : ∀ n request, s'.calls n = some ⟨request, .launching⟩ →
      s.calls n = some ⟨request, .launching⟩) : IsLaunchedOnce s' where
  idle h := hlaunches ▸ hs.idle (hbridge h)
  launching n request hn := by
    obtain ⟨hnone, hne, hunique⟩ := hs.launching n request (hcalls n request hn)
    exact ⟨hlaunches ▸ hnone, fun h => hne (hbridge h),
      fun m request' hm => hunique m request' (hcalls m request' hm)⟩
  launches := hlaunches ▸ hs.launches
  startUps k hk := hlaunches ▸ hs.startUps k (hstartUps k hk)

theorem put (hs : IsLaunchedOnce s) (h : ∀ request, running? ≠ some ⟨request, .launching⟩) :
    IsLaunchedOnce (s.put n running? deeds) := by
  refine hs.mono id rfl (fun _ => id) fun m request hm => ?_
  by_cases hmn : m = n
  · subst hmn
    rw [calls_put_self] at hm
    exact absurd hm (h request)
  · rwa [calls_put_of_ne hmn] at hm

theorem setStartUp (hs : IsLaunchedOnce s) (hk : s.startUps k = some phase) (phase' : StartUp) :
    IsLaunchedOnce { s with startUps := Function.update s.startUps k (some phase') } := by
  refine hs.mono id rfl (fun i hi => ?_) fun _ _ => id
  by_cases hik : i = k
  · simp [hik, hk]
  · simpa [hik] using hi

theorem setBridge (hs : IsLaunchedOnce s) (bridge : Bridge Nat)
    (h : bridge = .notStarted → s.bridge = .notStarted) : IsLaunchedOnce { s with bridge } :=
  hs.mono h rfl (fun _ => id) fun _ _ => id

theorem begin (hs : IsLaunchedOnce s) (n : Nat) (request : Request) :
    IsLaunchedOnce (s.begin n request) := by
  by_cases hbridge : s.bridge = .notStarted
  · have hnone : s.launches = 0 := hs.idle hbridge
    have hothers : ∀ m request', s.calls m ≠ some ⟨request', .launching⟩ := fun m request' hm =>
      (hs.launching m request' hm).2.1 hbridge
    have hself : ∀ m request',
        (s.begin n request).calls m = some ⟨request', .launching⟩ → m = n := by
      intro m request' hm
      by_contra hmn
      rw [begin_of_notStarted hbridge, calls_put_of_ne hmn] at hm
      exact hothers m request' hm
    rw [begin_of_notStarted hbridge] at hself ⊢
    exact {
      idle := fun h => by cases h
      launching := fun m request' hm => by
        obtain rfl := hself m request' hm
        exact ⟨hnone, by simp [Life.put], hself⟩
      launches := hs.launches
      startUps := hs.startUps }
  · rw [begin_of_ne hbridge]
    exact hs.put (by simp)

theorem launch (hs : IsLaunchedOnce s) (hcall : s.calls n = some ⟨request, .launching⟩) :
    IsLaunchedOnce (s.launch n request) := by
  obtain ⟨hnone, hne, hunique⟩ := hs.launching n request hcall
  -- The only call that was launching is not any more.
  have hothers : ∀ m request', (s.launch n request).calls m ≠ some ⟨request', .launching⟩ := by
    intro m request' hm
    by_cases hmn : m = n
    · subst hmn
      simp [Life.launch] at hm
    · rw [Life.launch, calls_put_of_ne hmn] at hm
      exact hmn (hunique m request' hm)
  exact {
    idle := fun h => absurd h hne
    launching := fun m request' hm => absurd hm (hothers m request')
    launches := by simp [Life.launch, Life.put, hnone]
    startUps := fun k hk => by
      have hnothing : ∀ i, s.startUps i = none := by
        intro i
        by_contra hi
        have := hs.startUps i hi
        omega
      by_contra hlt
      have hne : k ≠ s.launches := by
        rintro rfl
        simp [Life.launch, Life.put] at hlt
      simp [Life.launch, Life.put, hne, hnothing] at hk }

theorem step (hs : IsLaunchedOnce s) (h : Step s s') : IsLaunchedOnce s' := by
  cases h with
  | begin n request => exact hs.begin n request
  | launch hcall => exact hs.launch hcall
  | connect h => exact { hs.setStartUp h .succeeded with }
  | breakDown h => exact hs.setStartUp h .failed
  | @publish k h =>
    have hset := hs.setStartUp h .over
    by_cases hbridge : s.bridge = .starting
    · rw [publish_of_starting hbridge]
      exact { hset.setBridge (.connected k) (by simp) with }
    · rw [publish_of_ne hbridge]
      exact hset
  | fail h => exact (hs.setStartUp h .over).setBridge .terminated (by simp)
  | warmUp => exact { hs with }
  | find => exact hs.put (by simp)
  | refuse => exact hs.put (by simp)
  | drop => exact hs.put (by simp)
  | findOpen => exact hs.put (by simp)
  | findClosed => exact hs.put (by simp)
  | @endClosed n k =>
    have hset : IsLaunchedOnce (s.endClosed k) := by
      refine hs.setBridge _ fun h => ?_
      split at h
      · next hconnected => simp [hconnected, Bridge.endClosed] at h
      · exact h
    exact hset.put (by simp)
  | @hand n k request session =>
    have hset : IsLaunchedOnce { s with
        sessions := Function.update s.sessions k
          (some (session.call request.method request.params)) } := { hs with }
    exact hset.put (by simp)
  | shutDown => exact hs.setBridge .terminated (by simp)
  | progress => exact { hs with }

end IsLaunchedOnce

/-- A session that was never published was never used, and a call has only a published one. -/
structure IsPublishedOnce (s : Life) : Prop where
  startUp : ∀ k, .published k ∈ s.log → s.startUps k = some .over ∧ (s.sessions k).isSome
  succeeded : ∀ k, s.startUps k = some .succeeded → (s.sessions k).isSome
  count : ∀ k, s.log.count (.published k) ≤ 1
  warmUps : ∀ k,
    s.log.count (.warmedUp k) + s.warmUps.count k = s.log.count (.published k)
  connected : ∀ k, s.bridge = .connected k → .published k ∈ s.log
  held : ∀ n running k, s.calls n = some running → running.stage.session? = some k →
    .published k ∈ s.log
  sessions : ∀ k session, s.sessions k = some session →
    session.Reachable ∧ (.published k ∈ s.log ∨ session.IsUnused)

theorem isPublishedOnce_initial : IsPublishedOnce {} := by
  constructor <;> simp

@[simp] theorem count_published_put :
    (s.put n running? deeds).log.count (.published k) = s.log.count (.published k) := by
  have hdeeds : (deeds.map (Event.call n)).count (.published k) = 0 :=
    List.count_eq_zero.mpr (by simp)
  rw [put, List.count_append, hdeeds, Nat.zero_add]

@[simp] theorem count_warmedUp_put :
    (s.put n running? deeds).log.count (.warmedUp k) = s.log.count (.warmedUp k) := by
  have hdeeds : (deeds.map (Event.call n)).count (.warmedUp k) = 0 :=
    List.count_eq_zero.mpr (by simp)
  rw [put, List.count_append, hdeeds, Nat.zero_add]

namespace IsPublishedOnce

theorem put (hs : IsPublishedOnce s)
    (h : ∀ running k, running? = some running → running.stage.session? = some k →
      .published k ∈ s.log) :
    IsPublishedOnce (s.put n running? deeds) where
  startUp k hk := hs.startUp k (published_mem_put_iff.mp hk)
  succeeded := hs.succeeded
  count k := by simpa using hs.count k
  warmUps k := by
    rw [count_warmedUp_put, count_published_put]
    exact hs.warmUps k
  connected k hk := published_mem_put_iff.mpr (hs.connected k hk)
  held m running k hm hk := by
    refine published_mem_put_iff.mpr ?_
    by_cases hmn : m = n
    · subst hmn
      rw [calls_put_self] at hm
      exact h running k hm hk
    · rw [calls_put_of_ne hmn] at hm
      exact hs.held m running k hm hk
  sessions k session hk := by
    rw [published_mem_put_iff]
    exact hs.sessions k session hk

theorem leave (hs : IsPublishedOnce s)
    (h : ∀ running, running? = some running → running.stage.session? = none) :
    IsPublishedOnce (s.put n running? deeds) :=
  hs.put fun running k hrunning hk => by simp [h running hrunning] at hk

theorem setBridge (hs : IsPublishedOnce s) (bridge : Bridge Nat)
    (h : ∀ k, bridge = .connected k → s.bridge = .connected k) :
    IsPublishedOnce { s with bridge } :=
  { hs with connected := fun k hk => hs.connected k (h k hk) }

theorem setStartUp (hs : IsPublishedOnce s) (hk : s.startUps k ≠ some .over) (phase : StartUp)
    (hphase : phase = .succeeded → (s.sessions k).isSome) :
    IsPublishedOnce { s with startUps := Function.update s.startUps k (some phase) } where
  startUp i hi := by
    have hne : i ≠ k := by
      rintro rfl
      exact hk (hs.startUp i hi).1
    simpa [hne] using hs.startUp i hi
  succeeded i hi := by
    by_cases hik : i = k
    · subst hik
      exact hphase (by simpa using hi)
    · exact hs.succeeded i (by simpa [hik] using hi)
  count := hs.count
  warmUps := hs.warmUps
  connected := hs.connected
  held := hs.held
  sessions := hs.sessions

theorem setSession (hs : IsPublishedOnce s)
    (hsession : session.Reachable ∧ (.published k ∈ s.log ∨ session.IsUnused)) :
    IsPublishedOnce { s with sessions := Function.update s.sessions k (some session) } := by
  have hsome : ∀ i, (s.sessions i).isSome →
      (Function.update s.sessions k (some session) i).isSome := by
    intro i hi
    by_cases hik : i = k <;> simp [hik, hi]
  exact { hs with
    startUp := fun i hi => ⟨(hs.startUp i hi).1, hsome i (hs.startUp i hi).2⟩
    succeeded := fun i hi => hsome i (hs.succeeded i hi)
    sessions := fun i other hi => by
      by_cases hik : i = k
      · subst hik
        obtain rfl : session = other := by simpa using hi
        exact hsession
      · exact hs.sessions i other (by simpa [hik] using hi) }

theorem ask (hs : IsPublishedOnce s) (hsession : s.sessions k = some session)
    (hk : .published k ∈ s.log) (method : String) (params : Json) :
    IsPublishedOnce { s with
      sessions := Function.update s.sessions k (some (session.call method params)) } :=
  hs.setSession ⟨(hs.sessions k session hsession).1.tail (.call method params), .inl hk⟩

theorem publish (hs : IsPublishedOnce s) (h : s.startUps k = some .succeeded)
    (hbridge : s.bridge = .starting) : IsPublishedOnce (s.publish k) := by
  have hnew : .published k ∉ s.log := fun hk => by simp [(hs.startUp k hk).1] at h
  have hzero : s.log.count (.published k) = 0 := List.count_eq_zero.mpr hnew
  have hset := hs.setStartUp (k := k) (by simp [h]) .over (by simp)
  rw [publish_of_starting hbridge]
  exact {
    startUp := fun i hi => by
      by_cases hik : i = k
      · subst hik
        exact ⟨by simp, hs.succeeded i h⟩
      · exact hset.startUp i (by simpa [hik] using hi)
    succeeded := hset.succeeded
    count := fun i => by
      by_cases hik : i = k
      · simp [hik, hzero]
      · simpa [Ne.symm hik] using hs.count i
    warmUps := fun i => by
      have hsum := hs.warmUps i
      by_cases hik : i = k
      · subst hik
        simp
        omega
      · simpa [Ne.symm hik] using hsum
    connected := fun i hi => by
      obtain rfl : k = i := by simpa using hi
      exact List.mem_cons_self
    held := fun n running i hn hi => List.mem_cons_of_mem _ (hs.held n running i hn hi)
    sessions := fun i session hi => by
      obtain ⟨hreach, hused⟩ := hs.sessions i session hi
      exact ⟨hreach, hused.imp_left (List.mem_cons_of_mem _)⟩ }

theorem published_of_warmUps (hs : IsPublishedOnce s) (h : k ∈ s.warmUps) :
    .published k ∈ s.log := by
  have hsum := hs.warmUps k
  have hcount : 0 < s.warmUps.count k := List.count_pos_iff.mpr h
  exact List.count_pos_iff.mp (by omega)

theorem warmUp (hs : IsPublishedOnce s) (h : k ∈ s.warmUps)
    (hsession : s.sessions k = some session) :
    IsPublishedOnce
      { s with
        warmUps := s.warmUps.erase k
        sessions := Function.update s.sessions k (some (session.call warmUpMethod .null))
        log := .warmedUp k :: s.log } := by
  have hcount : 0 < s.warmUps.count k := List.count_pos_iff.mpr h
  have hasked := hs.ask hsession (hs.published_of_warmUps h) warmUpMethod .null
  exact {
    startUp := fun i hi => hasked.startUp i (by simpa using hi)
    succeeded := hasked.succeeded
    count := fun i => by simpa using hs.count i
    warmUps := fun i => by
      have hsum := hs.warmUps i
      by_cases hik : i = k
      · subst hik
        simp
        omega
      · simpa [hik, Ne.symm hik] using hsum
    connected := fun i hi => List.mem_cons_of_mem _ (hs.connected i hi)
    held := fun n running i hn hi => List.mem_cons_of_mem _ (hs.held n running i hn hi)
    sessions := fun i other hi => by simpa using hasked.sessions i other hi }

theorem step (hl : IsLaunchedOnce s) (hs : IsPublishedOnce s) (h : Step s s') :
    IsPublishedOnce s' := by
  cases h with
  | begin n request =>
    by_cases hbridge : s.bridge = .notStarted
    · rw [begin_of_notStarted hbridge]
      exact (hs.setBridge .starting (by simp)).leave (by simp [Stage.session?])
    · rw [begin_of_ne hbridge]
      exact hs.leave (by simp [Stage.session?])
  | launch hcall =>
    have hnew : s.startUps s.launches = none := by
      by_contra hne
      exact Nat.lt_irrefl _ (hl.startUps _ hne)
    have hset := hs.setStartUp (k := s.launches) (by simp [hnew]) .running (by simp)
    exact IsPublishedOnce.leave { hset with } (by simp [Stage.session?])
  | @connect k h =>
    have hnew : ({} : Conversation).IsUnused := ⟨fun _ => rfl, fun _ => rfl⟩
    exact (hs.setSession ⟨.refl, .inr hnew⟩).setStartUp (by simp [h]) .succeeded (by simp)
  | breakDown h => exact hs.setStartUp (by simp [h]) .failed (by simp)
  | @publish k h =>
    by_cases hbridge : s.bridge = .starting
    · exact hs.publish h hbridge
    · rw [publish_of_ne hbridge]
      exact hs.setStartUp (by simp [h]) .over (by simp)
  | fail h => exact (hs.setStartUp (by simp [h]) .over (by simp)).setBridge .terminated (by simp)
  | warmUp h hsession => exact hs.warmUp h hsession
  | @find n k request hcall h =>
    refine hs.put ?_
    rintro _ i ⟨⟩ ⟨⟩
    exact hs.connected k h
  | refuse => exact hs.leave (by simp)
  | drop => exact hs.leave (by simp)
  | @findOpen n k request session hcall =>
    refine hs.put ?_
    rintro _ i ⟨⟩ ⟨⟩
    exact hs.held n _ k hcall rfl
  | @findClosed n k request session hcall =>
    refine hs.put ?_
    rintro _ i ⟨⟩ ⟨⟩
    exact hs.held n _ k hcall rfl
  | @endClosed n k =>
    have hset : IsPublishedOnce (s.endClosed k) := by
      refine hs.setBridge _ fun i h => ?_
      split at h
      · next hconnected => simp [hconnected, Bridge.endClosed] at h
      · exact h
    exact hset.leave (by simp)
  | @hand n k request session hcall hsession =>
    exact (hs.ask hsession (hs.held n _ k hcall rfl) _ _).leave (by simp)
  | shutDown => exact hs.setBridge .terminated (by simp)
  | @progress k session session' hsession h =>
    obtain ⟨hreach, hused⟩ := hs.sessions k session hsession
    exact hs.setSession ⟨hreach.tail (.progress h), hused.imp_right (·.progress h)⟩

end IsPublishedOnce

end Life

end Bridge

end CodeNav
