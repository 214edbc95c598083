import CodeNav.Proofs.Bridge.Launches

/-! # A bridge goes forward

Every step of a bridge goes forward, and a terminated one stays so. A call that begins after that
fails, unless it is dropped, and leaves no trace elsewhere.
-/

namespace CodeNav

open Channel Relation

namespace Bridge.Life

variable {s s' : Life} {n m k : Nat} {request : Request} {running? : Option Running}
  {deeds : List Deed} {log : List Event} {bridge : Bridge Nat}

theorem status_eq_terminated_iff : bridge.status = .terminated ↔ bridge = .terminated := by
  cases bridge <;> simp [status]

/-- What a call does that finds the bridge terminated, beside where it stands. -/
inductive Late : Option Running → List Deed → Prop where
  | waiting (request : Request) : Late (some ⟨request, .waiting⟩) [.began .terminated]
  | failed : Late none [.failed .unavailable, .began .terminated]
  | dropped : Late none [.dropped, .began .terminated]

/-- A call that found the bridge terminated. -/
def IsLate (s : Life) (n : Nat) : Prop := .began .terminated ∈ trace n s.log

/-- Late calls do nothing else, and the bridge is terminated since. -/
def IsSettled (s : Life) : Prop :=
  ∀ n, IsLate s n → s.bridge = .terminated ∧ Late (s.calls n) (trace n s.log)

theorem IsSettled.put (hs : IsSettled s) (bridge : Bridge Nat)
    (hbridge : s.bridge = .terminated → bridge = .terminated)
    (h : .began .terminated ∈ deeds ++ trace n s.log →
      bridge = .terminated ∧ Late running? (deeds ++ trace n s.log)) :
    IsSettled ({ s with bridge }.put n running? deeds) := by
  intro m hm
  by_cases hmn : m = n
  · subst hmn
    rw [IsLate, trace_put_self] at hm
    rw [calls_put_self, trace_put_self]
    exact h hm
  · rw [IsLate, trace_put_of_ne hmn] at hm
    obtain ⟨hterminated, hlate⟩ := hs m hm
    rw [calls_put_of_ne hmn, trace_put_of_ne hmn]
    exact ⟨hbridge hterminated, hlate⟩

theorem Late.of_some {running : Running} (h : Late (some running) deeds) :
    running.stage = .waiting ∧ deeds = [.began .terminated] := by
  cases h
  exact ⟨rfl, rfl⟩

namespace IsSettled

theorem not_isLate {running : Running} (hs : IsSettled s) (hcall : s.calls n = some running)
    (h : running.stage ≠ .waiting) : ¬ IsLate s n := fun hn =>
  h (hcall ▸ (hs n hn).2).of_some.1

theorem go (hs : IsSettled s) (bridge : Bridge Nat)
    (hbridge : s.bridge = .terminated → bridge = .terminated) (hn : ¬ IsLate s n)
    (hdeeds : .began .terminated ∉ deeds) :
    IsSettled ({ s with bridge }.put n running? deeds) := by
  refine hs.put bridge hbridge fun hmem => ?_
  rcases List.mem_append.mp hmem with hmem | hmem
  · exact absurd hmem hdeeds
  · exact absurd hmem hn

theorem finish {deed : Deed} (hs : IsSettled s) (hcall : s.calls n = some ⟨request, .waiting⟩)
    (hdeed : deed ≠ .began .terminated) (hlate : Late none [deed, .began .terminated]) :
    IsSettled (s.put n none [deed]) := by
  refine hs.put s.bridge id fun hmem => ?_
  have hn : IsLate s n := by simpa [hdeed.symm, IsLate] using hmem
  obtain ⟨hterminated, hwaiting⟩ := hs n hn
  rw [hcall] at hwaiting
  rw [hwaiting.of_some.2]
  exact ⟨hterminated, hlate⟩

theorem begin (hs : IsSettled s) (n : Nat) (request : Request) (hnew : trace n s.log = []) :
    IsSettled (s.begin n request) := by
  have hn : ¬ IsLate s n := by simp [IsLate, hnew]
  by_cases hbridge : s.bridge = .notStarted
  · rw [begin_of_notStarted hbridge]
    exact hs.go .starting (by simp [hbridge]) hn (by simp)
  · rw [begin_of_ne hbridge]
    refine hs.put s.bridge id ?_
    rw [hnew, List.append_nil, List.mem_singleton]
    intro hstatus
    obtain hstatus : s.bridge.status = .terminated := by simpa using hstatus.symm
    rw [hstatus]
    exact ⟨status_eq_terminated_iff.mp hstatus, .waiting request⟩

theorem step (hs : IsSettled s) (h : Step s s') : IsSettled s' := by
  cases h with
  | begin n request hnew => exact hs.begin n request hnew
  | launch hcall => exact hs.go s.bridge id (hs.not_isLate hcall (by simp)) (by simp)
  | connect => exact hs
  | breakDown => exact hs
  | @publish k =>
    by_cases hbridge : s.bridge = .starting
    · rw [publish_of_starting hbridge]
      intro n hn
      simpa [hbridge] using (hs n hn).1
    · rw [publish_of_ne hbridge]
      exact hs
  | fail => exact fun n hn => ⟨rfl, (hs n hn).2⟩
  | warmUp => exact hs
  | @find n k request hcall h =>
    have hn : ¬ IsLate s n := fun hn => by simpa [h] using (hs n hn).1
    exact hs.go s.bridge id hn (by simp)
  | refuse hcall => exact hs.finish hcall (by simp) .failed
  | drop hcall => exact hs.finish hcall (by simp) .dropped
  | findOpen hcall => exact hs.go s.bridge id (hs.not_isLate hcall (by simp)) (by simp)
  | findClosed hcall => exact hs.go s.bridge id (hs.not_isLate hcall (by simp)) (by simp)
  | @endClosed n k request hcall =>
    refine hs.go _ (fun h => ?_) (hs.not_isLate hcall (by simp)) (by simp)
    simp [h]
  | hand hcall => exact hs.go s.bridge id (hs.not_isLate hcall (by simp)) (by simp)
  | shutDown => exact fun n hn => ⟨rfl, (hs n hn).2⟩
  | progress => exact hs

end IsSettled

def isClosed (s : Life) (k : Nat) : Bool := (s.sessions k).any (·.caller.isClosed)

/-- A call that looks for its session, with nothing in between, finds the one that there is, -/
theorem steps_of_session?_ok (hs : IsPublishedOnce s)
    (hcall : s.calls n = some ⟨request, .waiting⟩)
    (h : s.bridge.session? s.isClosed = some (bridge, .ok k)) :
    ∃ s', ReflTransGen Step s s' ∧ s'.bridge = bridge ∧
      s'.calls n = some ⟨request, .calling k⟩ := by
  cases hbridge : s.bridge with
  | connected i =>
    obtain ⟨session, hsession⟩ :=
      Option.isSome_iff_exists.mp (hs.startUp i (hs.connected i hbridge)).2
    have hisClosed : s.isClosed i = session.caller.isClosed := by simp [isClosed, hsession]
    have hopen : session.caller.isClosed = false := by
      rw [Bool.eq_false_iff]
      intro hclosed
      simp [session?, hbridge, hisClosed, hclosed] at h
    obtain ⟨rfl, rfl⟩ : .connected i = bridge ∧ i = k := by
      simpa [session?, hbridge, hisClosed, hopen] using h
    have hfind : ReflTransGen Step s (s.put n (some ⟨request, .checking i⟩) []) :=
      .single (.find hcall hbridge)
    exact ⟨_, hfind.tail (.findOpen calls_put_self hsession hopen), hbridge, calls_put_self⟩
  | _ => simp [session?, hbridge] at h

/-- and fails as the bridge does if that has none. -/
theorem steps_of_session?_error {cause : BridgeError} (hs : IsPublishedOnce s)
    (hcall : s.calls n = some ⟨request, .waiting⟩)
    (h : s.bridge.session? s.isClosed = some (bridge, .error cause)) :
    ∃ s', ReflTransGen Step s s' ∧ s'.bridge = bridge ∧ s'.calls n = none ∧
      trace n s'.log = .failed cause :: trace n s.log := by
  cases hbridge : s.bridge with
  | starting => simp [session?, hbridge] at h
  | connected i =>
    obtain ⟨session, hsession⟩ :=
      Option.isSome_iff_exists.mp (hs.startUp i (hs.connected i hbridge)).2
    have hisClosed : s.isClosed i = session.caller.isClosed := by simp [isClosed, hsession]
    have hclosed : session.caller.isClosed = true := by
      by_contra hopen
      simp [session?, hbridge, hisClosed, hopen] at h
    obtain ⟨rfl, rfl⟩ : .terminated = bridge ∧ .channelClosed = cause := by
      simpa [session?, hbridge, hisClosed, hclosed, Bridge.endClosed] using h
    have hfind : ReflTransGen Step s (s.put n (some ⟨request, .checking i⟩) []) :=
      .single (.find hcall hbridge)
    refine ⟨_, (hfind.tail (.findClosed calls_put_self hsession hclosed)).tail
      (.endClosed calls_put_self), ?_, calls_put_self, ?_⟩
    · simp [put, Life.endClosed, hbridge, Bridge.endClosed]
    · rw [trace_put_self]
      rfl
  | notStarted =>
    obtain ⟨rfl, rfl⟩ : .notStarted = bridge ∧ .unavailable = cause := by
      simpa [session?, hbridge] using h
    exact ⟨_, .single (.refuse hcall (.inl hbridge)), hbridge, calls_put_self, trace_put_self⟩
  | terminated =>
    obtain ⟨rfl, rfl⟩ : .terminated = bridge ∧ .unavailable = cause := by
      simpa [session?, hbridge] using h
    exact ⟨_, .single (.refuse hcall (.inr hbridge)), hbridge, calls_put_self, trace_put_self⟩

theorem Step.published (h : Step s s') (hk : .published k ∈ s'.log) :
    .published k ∈ s.log ∨ s.bridge = .starting ∧ s'.bridge = .connected k := by
  have hput {n : Nat} (deeds : List Deed) (heq : s'.log = deeds.map (.call n) ++ s.log) :
      .published k ∈ s.log := by simpa [heq] using hk
  cases h with
  | begin => exact .inl (hput [_] rfl)
  | connect => exact .inl hk
  | breakDown => exact .inl hk
  | @publish i =>
    by_cases hbridge : s.bridge = .starting
    · rw [publish_of_starting hbridge] at hk ⊢
      rcases List.mem_cons.mp hk with heq | hk
      · obtain rfl := Event.published.inj heq
        exact .inr ⟨hbridge, rfl⟩
      · exact .inl hk
    · rw [publish_of_ne hbridge] at hk
      exact .inl hk
  | fail => exact .inl hk
  | warmUp => exact .inl (by simpa using hk)
  | shutDown => exact .inl hk
  | progress => exact .inl hk
  | _ => exact .inl (hput _ rfl)

theorem Reachable.isSound (h : Reachable s) :
    IsLaunchedOnce s ∧ IsPublishedOnce s ∧ IsSettled s := by
  induction h with
  | refl =>
    exact ⟨isLaunchedOnce_initial, isPublishedOnce_initial, by simp [IsSettled, IsLate, trace]⟩
  | tail _ hstep ih =>
    obtain ⟨hlaunched, hpublished, hsettled⟩ := ih
    exact ⟨hlaunched.step hstep, hpublished.step hlaunched hstep, hsettled.step hstep⟩

end Bridge.Life

end CodeNav
