import CodeNav.Proofs.Cache.Usage

/-! # What lookups return while others store

A lookup returns a value exactly if its key stood for a fresh entry when the entries were read.
What stands under a key is what was stored there last. It stays until it expires, whichever lookups
evict meanwhile and whatever becomes of other keys.
-/

namespace CodeNav.Cache

variable {α : Type} {key other : String} {cache cache' : Cache α} {now : Instant} {entry : Entry α}
  {event : Event α} {value : α}

namespace Event

def replay (event : Event α) (cache : Cache α) : Cache α :=
  match event.act with
  | .evicted now => cache.evict event.key now
  | .stored entry => cache.insert event.key entry
  | .asked _ | .looked .. | .returned _ | .offered .. | .overflowed _ => cache

def stored? (key : String) (event : Event α) : Option (Entry α) :=
  match event.act with
  | .stored entry => if event.key = key then some entry else none
  | .asked _ | .looked .. | .evicted _ | .returned _ | .offered .. | .overflowed _ => none

theorem entry?_replay_of_ne (h : other ≠ event.key) :
    Cache.entry? (event.replay cache) other = cache.entry? other := by
  unfold replay
  split
  · exact entry?_evict_of_ne h
  · exact entry?_insert_of_ne h
  all_goals rfl

/-- What an event leaves under its key depends on nothing but what stood there. -/
theorem entry?_replay_congr (h : cache.entry? event.key = cache'.entry? event.key) :
    Cache.entry? (event.replay cache) event.key = Cache.entry? (event.replay cache') event.key := by
  unfold replay
  split
  · rw [entry?_evict_self, entry?_evict_self, h]
  · rw [entry?_insert_self, entry?_insert_self]
  all_goals exact h

theorem stored?_of_ne (h : other ≠ event.key) : event.stored? other = none := by
  unfold stored?
  split
  · exact if_neg h.symm
  all_goals rfl

end Event

namespace Usage

open Relation

variable {s s' : Usage α} {n : Nat} {clock : Instant} {found : Lookup α} {stage : Stage α}
  {stage? : Option (Stage α)} {acts acts' : List (Act α)} {log : List (Event α)}

def contents (log : List (Event α)) : Cache α := log.foldr Event.replay .empty

/-- The entry that was stored last under a key. -/
def latest? (key : String) (log : List (Event α)) : Option (Entry α) :=
  log.findSome? (Event.stored? key)

theorem latest?_cons_of_ne (h : key ≠ event.key) (log : List (Event α)) :
    latest? key (event :: log) = latest? key log := by
  rw [latest?, List.findSome?_cons, Event.stored?_of_ne h]
  rfl

/-- What stands under a key is what was stored there last. -/
theorem latest?_of_contents (h : Cache.entry? (contents log) key = some entry) :
    latest? key log = some entry := by
  induction log with
  | nil => simp [contents, empty, Cache.entry?] at h
  | cons event log ih =>
    by_cases hkey : key = event.key
    · subst hkey
      obtain ⟨m, key, act⟩ := event
      cases act with
      | evicted now => exact ih (entry?_evict_eq_some_iff.mp h).1
      | stored entry' =>
        obtain rfl : entry' = entry := Option.some.inj (entry?_insert_self.symm.trans h)
        simp [latest?, Event.stored?]
      | asked | looked | returned | offered | overflowed => exact ih h
    · rw [latest?_cons_of_ne hkey]
      exact ih ((Event.entry?_replay_of_ne hkey).symm.trans h)

/-- What stands under a key comes of the operations on that key alone. -/
theorem entry?_contents_filter (key : String) (log : List (Event α)) :
    Cache.entry? (contents (log.filter (·.key = key))) key = Cache.entry? (contents log) key := by
  induction log with
  | nil => rfl
  | cons event log ih =>
    by_cases hkey : key = event.key
    · subst hkey
      rw [List.filter_cons_of_pos (by simp)]
      exact Event.entry?_replay_congr ih
    · rw [List.filter_cons_of_neg (by simpa using Ne.symm hkey), ih]
      exact (Event.entry?_replay_of_ne hkey).symm

/-- What an operation did before it came to its stage, or was over. -/
inductive Course : Option (Stage α) → List (Act α) → Prop where
  | idle : Course none []
  | looking (now : Instant) : Course (some (.looking now)) [.asked now]
  | served (value : α) (now : Instant) :
      Course none [.returned (some value), .looked now (.hit value), .asked now]
  | missed (now : Instant) : Course none [.returned none, .looked now .absent, .asked now]
  | evicting (now : Instant) : Course (some (.evicting now)) [.looked now .expired, .asked now]
  | evicted (now : Instant) :
      Course none [.returned none, .evicted now, .looked now .expired, .asked now]
  | storing {value : α} {ttl : Duration} {now expiry : Instant} (h : now.add ttl = .ok expiry) :
      Course (some (.storing ⟨value, expiry⟩)) [.offered value ttl now]
  | stored {value : α} {ttl : Duration} {now expiry : Instant} (h : now.add ttl = .ok expiry) :
      Course none [.stored ⟨value, expiry⟩, .offered value ttl now]
  | overflowed {value : α} {ttl : Duration} {now : Instant} {cause : ClockError}
      (h : now.add ttl = .error cause) : Course none [.overflowed cause, .offered value ttl now]

theorem course_of_begins (h : Begins clock stage? acts) : Course stage? acts := by
  cases h with
  | ask => exact .looking clock
  | offer h => exact .storing h
  | overflow h => exact .overflowed h

theorem Course.move (h : Course (some stage) acts')
    (hsection : Section key cache stage cache' stage? acts) : Course stage? (acts ++ acts') := by
  cases hsection with
  | hit => cases h with | looking => exact .served _ _
  | absent => cases h with | looking => exact .missed _
  | expired => cases h with | looking => exact .evicting _
  | evict => cases h with | evicting => exact .evicted _
  | store => cases h with | storing h => exact .stored h

/-- What a lookup found is what stood under its key when it read the entries. -/
def IsSeen (log : List (Event α)) : Prop :=
  ∀ n key now found earlier, ⟨n, key, .looked now found⟩ :: earlier <:+ log →
    ⟨n, key, .asked now⟩ ∈ earlier ∧ (contents earlier).look key now = found

theorem IsSeen.cons (h : IsSeen log)
    (hevent : ∀ now found, event.act = .looked now found →
      ⟨event.number, event.key, .asked now⟩ ∈ log ∧ (contents log).look event.key now = found) :
    IsSeen (event :: log) := by
  intro n key now found earlier hsuffix
  rcases List.suffix_cons_iff.mp hsuffix with heq | hsuffix
  · obtain ⟨rfl, rfl⟩ := List.cons.inj heq
    exact hevent now found rfl
  · exact h n key now found earlier hsuffix

theorem IsSeen.append (h : IsSeen log) (n : Nat) (key : String) (acts : List (Act α))
    (hacts : ∀ now found, .looked now found ∉ acts) :
    IsSeen (acts.map (Event.mk n key) ++ log) := by
  induction acts with
  | nil => exact h
  | cons act acts ih =>
    refine (ih fun now found hmem => hacts now found (List.mem_cons_of_mem _ hmem)).cons ?_
    rintro now found rfl
    exact absurd List.mem_cons_self (hacts now found)

structure IsConsistent (s : Usage α) : Prop where
  replayed : s.cache = contents s.log
  courses : ∀ n, ∃ key stage? acts, s.running n = stage?.map (Running.mk key) ∧
    trace n s.log = acts.map (Event.mk n key) ∧ Course stage? acts
  /-- No reading of the clock is ahead of it. -/
  clocked : ∀ n key now, ⟨n, key, .asked now⟩ ∈ s.log → now ≤ s.clock
  seen : IsSeen s.log
  kept : ∀ key entry, latest? key s.log = some entry → s.clock < entry.expiry →
    s.cache.entry? key = some entry

theorem isConsistent_initial (clock : Instant) : IsConsistent (initial clock : Usage α) where
  replayed := rfl
  courses _ := ⟨"", none, [], rfl, rfl, .idle⟩
  clocked := by simp [initial]
  seen := by simp [initial, IsSeen]
  kept := by simp [initial, latest?]

theorem IsConsistent.course (hs : IsConsistent s) (hrunning : s.running n = some ⟨key, stage⟩) :
    ∃ acts, trace n s.log = acts.map (Event.mk n key) ∧ Course (some stage) acts := by
  obtain ⟨key', stage?, acts, hstage, htrace, hcourse⟩ := hs.courses n
  rw [hrunning] at hstage
  cases stage? with
  | none => simp at hstage
  | some stage' =>
    obtain ⟨rfl, rfl⟩ : key = key' ∧ stage = stage' := by simpa using hstage
    exact ⟨acts, htrace, hcourse⟩

theorem IsConsistent.asked (hs : IsConsistent s) (hrunning : s.running n = some ⟨key, stage⟩)
    (hstage : stage = .looking now ∨ stage = .evicting now) : ⟨n, key, .asked now⟩ ∈ s.log := by
  obtain ⟨acts, htrace, hcourse⟩ := hs.course hrunning
  have hasked : .asked now ∈ acts := by
    rcases hstage with rfl | rfl
    · cases hcourse
      simp
    · cases hcourse
      simp
  have hmem : ⟨n, key, .asked now⟩ ∈ trace n s.log := htrace ▸ List.mem_map_of_mem hasked
  exact (mem_trace_iff.mp hmem).1

/-- A lookup that is at its read section finds what stands under its key. -/
theorem IsConsistent.seen_looked (hs : IsConsistent s)
    (hrunning : s.running n = some ⟨key, .looking now⟩) (hlook : s.cache.look key now = found) :
    IsSeen (⟨n, key, .looked now found⟩ :: s.log) := by
  refine hs.seen.cons ?_
  rintro now found ⟨⟩
  exact ⟨hs.asked hrunning (.inl rfl), hs.replayed ▸ hlook⟩

theorem mem_log_put {m : Nat} {act : Act α} :
    ⟨m, other, act⟩ ∈ (s.put n key cache stage? acts).log ↔
      (m = n ∧ other = key ∧ act ∈ acts) ∨ ⟨m, other, act⟩ ∈ s.log := by
  simp only [put, List.mem_append, List.mem_map, Event.mk.injEq]
  refine or_congr_left ⟨?_, ?_⟩
  · rintro ⟨act', hact, rfl, rfl, rfl⟩
    exact ⟨rfl, rfl, hact⟩
  · rintro ⟨rfl, rfl, hact⟩
    exact ⟨act, hact, rfl, rfl, rfl⟩

theorem IsConsistent.put (hs : IsConsistent s)
    (hcache : cache = contents (s.put n key cache stage? acts).log)
    (hcourse : ∃ acts', trace n s.log = acts'.map (Event.mk n key) ∧
      Course stage? (acts ++ acts'))
    (hclocked : ∀ now, .asked now ∈ acts → now ≤ s.clock)
    (hseen : IsSeen (s.put n key cache stage? acts).log)
    (hkept : ∀ other entry, latest? other (s.put n key cache stage? acts).log = some entry →
      s.clock < entry.expiry → cache.entry? other = some entry) :
    IsConsistent (s.put n key cache stage? acts) where
  replayed := hcache
  courses m := by
    by_cases hm : m = n
    · subst hm
      obtain ⟨acts', htrace, hcourse⟩ := hcourse
      exact ⟨key, stage?, acts ++ acts', running_put_self, by simp [trace_put_self, htrace],
        hcourse⟩
    · rw [running_put_of_ne hm, trace_put_of_ne hm]
      exact hs.courses m
  clocked m other now hmem := by
    rcases mem_log_put.mp hmem with ⟨-, -, hact⟩ | hmem
    · exact hclocked now hact
    · exact hs.clocked m other now hmem
  seen := hseen
  kept := hkept

theorem IsConsistent.start (hs : IsConsistent s) (hnew : trace n s.log = []) (key : String)
    (h : Begins s.clock stage? acts) : IsConsistent (s.put n key s.cache stage? acts) := by
  have hcourse : ∃ acts', trace n s.log = acts'.map (Event.mk n key) ∧
      Course stage? (acts ++ acts') := ⟨[], hnew, by simpa using course_of_begins h⟩
  cases h with
  | ask =>
    exact hs.put hs.replayed hcourse (by simp [Instant.le_iff]) (hs.seen.append n key _ (by simp))
      hs.kept
  | offer | overflow =>
    exact hs.put hs.replayed hcourse (by simp) (hs.seen.append n key _ (by simp)) hs.kept

theorem IsConsistent.kept_evict (hs : IsConsistent s)
    (hrunning : s.running n = some ⟨key, .evicting now⟩)
    (hlatest : latest? other s.log = some entry) (hfresh : s.clock < entry.expiry) :
    Cache.entry? (s.cache.evict key now) other = some entry := by
  have hclock : now ≤ s.clock := hs.clocked n key now (hs.asked hrunning (.inr rfl))
  refine entry?_evict_eq_some_iff.mpr ⟨hs.kept other entry hlatest hfresh, ?_⟩
  rintro ⟨-, hexpired⟩
  rw [Instant.lt_iff] at hfresh
  rw [Instant.le_iff] at hclock hexpired
  omega

theorem IsConsistent.kept_insert (hs : IsConsistent s) (n : Nat) (entry : Entry α)
    {last : Entry α} (hlatest : latest? other (⟨n, key, .stored entry⟩ :: s.log) = some last)
    (hfresh : s.clock < last.expiry) :
    Cache.entry? (s.cache.insert key entry) other = some last := by
  by_cases h : other = key
  · subst h
    obtain rfl : entry = last := by simpa [latest?, Event.stored?] using hlatest
    exact entry?_insert_self
  · rw [latest?_cons_of_ne h] at hlatest
    rw [entry?_insert_of_ne h]
    exact hs.kept other last hlatest hfresh

theorem IsConsistent.move (hs : IsConsistent s) (hrunning : s.running n = some ⟨key, stage⟩)
    (h : Section key s.cache stage cache stage? acts) :
    IsConsistent (s.put n key cache stage? acts) := by
  have hcourse : ∃ acts', trace n s.log = acts'.map (Event.mk n key) ∧
      Course stage? (acts ++ acts') := by
    obtain ⟨acts', htrace, hcourse⟩ := hs.course hrunning
    exact ⟨acts', htrace, hcourse.move h⟩
  cases h with
  | @hit _ value hlook =>
    have hseen := (hs.seen_looked hrunning hlook).append n key [.returned (some value)] (by simp)
    exact hs.put hs.replayed hcourse (by simp) hseen hs.kept
  | absent hlook =>
    have hseen := (hs.seen_looked hrunning hlook).append n key [.returned none] (by simp)
    exact hs.put hs.replayed hcourse (by simp) hseen hs.kept
  | expired hlook =>
    exact hs.put hs.replayed hcourse (by simp) (hs.seen_looked hrunning hlook) hs.kept
  | @evict now =>
    refine hs.put (congrArg (·.evict key now) hs.replayed) hcourse (by simp)
      (hs.seen.append n key _ (by simp)) ?_
    intro other entry hlatest hfresh
    exact hs.kept_evict hrunning hlatest hfresh
  | @store entry =>
    refine hs.put (congrArg (·.insert key entry) hs.replayed) hcourse (by simp)
      (hs.seen.append n key _ (by simp)) ?_
    intro other last hlatest hfresh
    exact hs.kept_insert n entry hlatest hfresh

theorem IsConsistent.step (hs : IsConsistent s) (h : Step s s') : IsConsistent s' := by
  cases h with
  | tick now hnow =>
    refine ⟨hs.replayed, hs.courses, ?_, hs.seen, ?_⟩
    · intro n key asked hmem
      exact Nat.le_trans (hs.clocked n key asked hmem) hnow
    · intro key entry hlatest hfresh
      exact hs.kept key entry hlatest (Nat.lt_of_le_of_lt hnow hfresh)
  | start n key hnew hbegins => exact hs.start hnew key hbegins
  | move hrunning hsection => exact hs.move hrunning hsection

theorem Reachable.isConsistent (h : Reachable s) : IsConsistent s := by
  obtain ⟨clock, hsteps⟩ := h
  induction hsteps with
  | refl => exact isConsistent_initial clock
  | tail _ hstep ih => exact ih.step hstep

/-- Lookups and stores at once do what they would do one after the other. -/
structure IsCoherent (s : Usage α) : Prop where
  courses : ∀ n, ∃ key stage? acts, s.running n = stage?.map (Running.mk key) ∧
    trace n s.log = acts.map (Event.mk n key) ∧ Course stage? acts
  replayed : s.cache = contents s.log
  /-- A lookup returns a value exactly if that stood under its key in a fresh entry, by the reading
  of the clock that the lookup had taken before. -/
  returned_iff : ∀ n key now found earlier, ⟨n, key, .looked now found⟩ :: earlier <:+ s.log →
    ⟨n, key, .asked now⟩ ∈ earlier ∧
    ∀ value, ⟨n, key, .returned (some value)⟩ ∈ s.log ↔
      ∃ entry, Cache.entry? (contents earlier) key = some entry ∧ now < entry.expiry ∧
        entry.value = value
  /-- An eviction takes out the entry of its key if that has expired, and nothing else. -/
  evicted : ∀ n key now earlier, ⟨n, key, .evicted now⟩ :: earlier <:+ s.log →
    ⟨n, key, .asked now⟩ ∈ s.log ∧
    ∀ other entry, Cache.entry? (contents (⟨n, key, .evicted now⟩ :: earlier)) other = some entry ↔
      Cache.entry? (contents earlier) other = some entry ∧ ¬ (other = key ∧ entry.expiry ≤ now)
  stored : ∀ n key entry, ⟨n, key, .stored entry⟩ ∈ s.log →
    ∃ ttl now, ⟨n, key, .offered entry.value ttl now⟩ ∈ s.log ∧ now.add ttl = .ok entry.expiry
  /-- The entry that was stored last stands until the clock has come to its expiry. -/
  kept : ∀ key entry, latest? key s.log = some entry → s.clock < entry.expiry →
    s.cache.entry? key = some entry
  /-- From then on no lookup that reads the clock returns it, or anything else. -/
  unserved : ∀ n key now found earlier, ⟨n, key, .looked now found⟩ :: earlier <:+ s.log →
    ∀ entry, latest? key earlier = some entry → entry.expiry ≤ now →
      ∀ value, ⟨n, key, .returned (some value)⟩ ∉ s.log
  /-- What stands under a key would stand there without the operations on other keys too. -/
  independent : ∀ key,
    s.cache.entry? key = Cache.entry? (contents (s.log.filter (·.key = key))) key

theorem IsConsistent.exists_course {act : Act α} (hs : IsConsistent s)
    (h : ⟨n, key, act⟩ ∈ s.log) :
    ∃ stage? acts, Course stage? acts ∧ act ∈ acts ∧
      ∀ other, ⟨n, key, other⟩ ∈ s.log ↔ other ∈ acts := by
  obtain ⟨key', stage?, acts, -, htrace, hcourse⟩ := hs.courses n
  have hacts (other : Act α) (name : String) :
      ⟨n, name, other⟩ ∈ s.log ↔ other ∈ acts ∧ key' = name := by
    have hmem : ⟨n, name, other⟩ ∈ trace n s.log ↔ ⟨n, name, other⟩ ∈ s.log := by
      simp [mem_trace_iff]
    rw [← hmem, htrace]
    simp
  obtain ⟨hact, rfl⟩ := (hacts act key).mp h
  exact ⟨stage?, acts, hcourse, hact, fun other => by simp [hacts]⟩

theorem Course.returned_iff (h : Course stage? acts) (hact : .looked now found ∈ acts) :
    .returned (some value) ∈ acts ↔ found = .hit value := by
  cases h with
  | served value' now' =>
    obtain ⟨rfl, rfl⟩ : now = now' ∧ found = .hit value' := by simpa using hact
    simp [eq_comm]
  | missed now' =>
    obtain ⟨rfl, rfl⟩ : now = now' ∧ found = .absent := by simpa using hact
    simp
  | evicting now' | evicted now' =>
    obtain ⟨rfl, rfl⟩ : now = now' ∧ found = .expired := by simpa using hact
    simp
  | idle | looking | storing | stored | overflowed => simp at hact

theorem Course.asked_of_evicted (h : Course stage? acts) (hact : .evicted now ∈ acts) :
    .asked now ∈ acts := by
  cases h with
  | evicted =>
    obtain rfl : now = _ := by simpa using hact
    simp
  | idle | looking | served | missed | evicting | storing | stored | overflowed => simp at hact

theorem Course.offered_of_stored (h : Course stage? acts) (hact : .stored entry ∈ acts) :
    ∃ ttl now, .offered entry.value ttl now ∈ acts ∧ now.add ttl = .ok entry.expiry := by
  cases h with
  | stored hexpiry =>
    obtain rfl : entry = _ := by simpa using hact
    exact ⟨_, _, by simp, hexpiry⟩
  | idle | looking | served | missed | evicting | evicted | storing | overflowed => simp at hact

/-- A lookup returns a value exactly if it found a fresh entry with it. -/
theorem IsConsistent.returned_iff {earlier : List (Event α)} (hs : IsConsistent s)
    (hsuffix : ⟨n, key, .looked now found⟩ :: earlier <:+ s.log) :
    ⟨n, key, .returned (some value)⟩ ∈ s.log ↔
      ∃ entry, Cache.entry? (contents earlier) key = some entry ∧ now < entry.expiry ∧
        entry.value = value := by
  obtain ⟨stage?, acts, hcourse, hact, hacts⟩ :=
    hs.exists_course (hsuffix.subset List.mem_cons_self)
  rw [hacts, hcourse.returned_iff hact, ← look_eq_hit_iff,
    (hs.seen n key now found earlier hsuffix).2]

theorem Reachable.isCoherent (h : Reachable s) : IsCoherent s where
  courses := h.isConsistent.courses
  replayed := h.isConsistent.replayed
  returned_iff n key now found earlier hsuffix :=
    ⟨(h.isConsistent.seen n key now found earlier hsuffix).1,
      fun _ => h.isConsistent.returned_iff hsuffix⟩
  evicted n key now earlier hsuffix := by
    obtain ⟨stage?, acts, hcourse, hact, hacts⟩ :=
      h.isConsistent.exists_course (hsuffix.subset List.mem_cons_self)
    exact ⟨(hacts _).mpr (hcourse.asked_of_evicted hact), fun _ _ => entry?_evict_eq_some_iff⟩
  stored n key entry hmem := by
    obtain ⟨stage?, acts, hcourse, hact, hacts⟩ := h.isConsistent.exists_course hmem
    obtain ⟨ttl, now, hoffered, hexpiry⟩ := hcourse.offered_of_stored hact
    exact ⟨ttl, now, (hacts _).mpr hoffered, hexpiry⟩
  kept := h.isConsistent.kept
  unserved n key now found earlier hsuffix entry hlatest hexpired value hreturned := by
    obtain ⟨held, hheld, hfresh, -⟩ := (h.isConsistent.returned_iff hsuffix).mp hreturned
    obtain rfl : held = entry := Option.some.inj ((latest?_of_contents hheld).symm.trans hlatest)
    exact Instant.not_lt.mpr hexpired hfresh
  independent key := by rw [h.isConsistent.replayed, entry?_contents_filter]

/-- A value for `Foo` was stored, for ten nanoseconds, which have passed. -/
def outdated : Usage Nat where
  clock := ⟨10⟩
  cache := ⟨[("Foo", ⟨1, ⟨10⟩⟩)]⟩
  running := Function.update (fun _ => none) 0 none
  log := [⟨0, "Foo", .stored ⟨1, ⟨10⟩⟩⟩, ⟨0, "Foo", .offered 1 ⟨10⟩ ⟨0⟩⟩]

def refreshed : Usage Nat :=
  (outdated.put 1 "Foo" outdated.cache (some (.evicting ⟨10⟩))
    [.looked ⟨10⟩ .expired, .asked ⟨10⟩]).put
    2 "Foo" ⟨[("Foo", ⟨2, ⟨20⟩⟩)]⟩ none [.stored ⟨2, ⟨20⟩⟩, .offered 2 ⟨10⟩ ⟨10⟩]

def settled : Usage Nat :=
  refreshed.put 1 "Foo" refreshed.cache none [.returned none, .evicted ⟨10⟩]

theorem reachable_outdated : Reachable outdated := by
  have hbegins : Begins (⟨0⟩ : Instant) (some (.storing ⟨1, ⟨10⟩⟩)) [.offered 1 ⟨10⟩ ⟨0⟩] :=
    .offer rfl
  have hoffered : ReflTransGen Step (initial ⟨0⟩) _ := .single (.start 0 "Foo" rfl hbegins)
  exact ⟨⟨0⟩, (hoffered.tail (.go .store 0 _)).tail (.tick ⟨10⟩ (Nat.zero_le _))⟩

theorem reachable_settled : Reachable settled := by
  obtain ⟨clock, hsteps⟩ := reachable_outdated
  have hbegins : Begins (⟨10⟩ : Instant) (some (.storing ⟨2, ⟨20⟩⟩)) [.offered 2 ⟨10⟩ ⟨10⟩] :=
    .offer rfl
  have hlooked := (hsteps.tail (.start 1 "Foo" rfl .ask)).tail
    (.go (.expired rfl) 1 [.asked ⟨10⟩])
  have hrefreshed := (hlooked.tail (.start 2 "Foo" rfl hbegins)).tail (.go .store 2 _)
  exact ⟨clock, hrefreshed.tail (.move rfl .evict)⟩

/-- The eviction leaves the other value, and the next lookup returns it. -/
theorem isCoherent_refreshed :
    ∃ s : Usage Nat, Reachable s ∧ ⟨1, "Foo", .evicted ⟨10⟩⟩ ∈ s.log ∧
      ⟨3, "Foo", .returned (some 2)⟩ ∈ s.log ∧ IsCoherent s := by
  obtain ⟨clock, hsteps⟩ := reachable_settled
  have hget : (settled.cache.get "Foo" settled.clock).1 = some 2 := rfl
  obtain ⟨acts, hreturned⟩ := steps_of_get (s := settled) (n := 3) rfl "Foo"
  have hreach : Reachable _ := ⟨clock, hsteps.trans hreturned⟩
  exact ⟨_, hreach, by simp [put, settled], by simp [put, hget], hreach.isCoherent⟩

end Usage

end CodeNav.Cache
