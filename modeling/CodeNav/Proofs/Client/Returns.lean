import CodeNav.Proofs.Client.History

/-! # What concurrent calls return

A call returns a fresh list that was stored earlier, or what its one search found, or nothing if the
search found nothing in time. The cache is what the log says: it holds lists that were found under
their keys, and only searches that found one have stored anything.
-/

namespace CodeNav.Client.History

variable {admissible : Query → Prop} {passes : Instant → Instant → Prop} {s s' : History}
  {ttl : Duration} {n : Nat} {query : Query} {client client' : Client} {clock now : Instant}
  {stage : Stage} {stage? : Option Stage} {symbols : List Symbol} {key : String}
  {course events : List Event} {log later earlier : List (Nat × Event)}

def Event.replay (ttl : Duration) (cache : Cache (List Symbol)) : Event → Cache (List Symbol)
  | .stored key symbols now => cache.insert key ⟨symbols, ⟨now.nanoseconds + ttl.nanoseconds⟩⟩
  | .evicted key now => cache.evict key now
  | .began .. | .served .. | .searched | .ended .. | .returned _ | .dropped | .overflowed _ => cache

def contents (ttl : Duration) (log : List (Nat × Event)) : Cache (List Symbol) :=
  log.foldr (fun entry cache => entry.2.replay ttl cache) .empty

theorem contents_append :
    contents ttl (later ++ log) =
      later.foldr (fun entry cache => entry.2.replay ttl cache) (contents ttl log) :=
  List.foldr_append

theorem nodup_contents (ttl : Duration) (log : List (Nat × Event)) :
    ((contents ttl log).entries.map Prod.fst).Nodup := by
  induction log with
  | nil => exact List.nodup_nil
  | cons entry earlier ih =>
    obtain ⟨n, event⟩ := entry
    cases event with
    | stored => exact Cache.nodup_insert ih
    | evicted => exact Cache.nodup_evict ih
    | began | served | searched | ended | returned | dropped | overflowed => exact ih

theorem exists_stored_of_mem {entry : Cache.Entry (List Symbol)}
    (h : (key, entry) ∈ (contents ttl log).entries) :
    ∃ m stored, (m, .stored key entry.value stored) ∈ log ∧
      entry.expiry = ⟨stored.nanoseconds + ttl.nanoseconds⟩ := by
  induction log with
  | nil => simp [contents, Cache.empty] at h
  | cons last earlier ih =>
    -- Only a list that is stored brings a new entry; other events at most take entries out.
    have hearlier : (key, entry) ∈ (contents ttl earlier).entries →
        ∃ m stored, (m, .stored key entry.value stored) ∈ last :: earlier ∧
          entry.expiry = ⟨stored.nanoseconds + ttl.nanoseconds⟩ := by
      intro hmem
      obtain ⟨m, stored, hstored, hexpiry⟩ := ih hmem
      exact ⟨m, stored, List.mem_cons_of_mem _ hstored, hexpiry⟩
    obtain ⟨m, event⟩ := last
    cases event with
    | stored key' symbols' now =>
      rcases Cache.mem_insert.mp h with heq | ⟨hmem, -⟩
      · simp only [Prod.mk.injEq] at heq
        obtain ⟨rfl, rfl⟩ := heq
        exact ⟨m, now, List.mem_cons_self, rfl⟩
      · exact hearlier hmem
    | evicted => exact hearlier (Cache.mem_of_mem_evict h)
    | began | served | searched | ended | returned | dropped | overflowed => exact hearlier h

/-- A call missed the cache and called the backend. -/
inductive Searches (query : Query) : List Event → Prop where
  | absent (now : Instant) : Searches query [.searched, .began query now]
  | expired (now : Instant) :
      Searches query [.searched, .evicted query.cacheKey now, .began query now]

/-- All that a call did which returned a list. -/
inductive Returns (query : Query) : List Symbol → List Event → Prop where
  | served (symbols : List Symbol) (now : Instant) :
      Returns query symbols
        [.returned symbols, .served query symbols now, .began query now]
  | found {symbols : List Symbol} {reply : Reply (List Symbol)} {course : List Event}
      (now : Instant) (hsearches : Searches query course)
      (h : reply.within query.timeout = some (.ok symbols)) :
      Returns query symbols
        (.returned symbols :: .stored query.cacheKey symbols now :: .ended query reply :: course)
  | empty {reply : Reply (List Symbol)} {course : List Event} (hsearches : Searches query course)
      (h : ∀ symbols, reply.within query.timeout ≠ some (.ok symbols)) :
      Returns query [] (.returned [] :: .ended query reply :: course)

/-- What a call did before it came to its stage, or was over. -/
inductive Stands (query : Query) : Option Stage → List Event → Prop where
  | idle : Stands query none []
  | looking (now : Instant) : Stands query (some (.looking now)) [.began query now]
  | evicting (now : Instant) : Stands query (some (.evicting now)) [.began query now]
  | searching {course : List Event} (h : Searches query course) :
      Stands query (some .searching) course
  | storing {symbols : List Symbol} {reply : Reply (List Symbol)} {course : List Event}
      (now : Instant) (hsearches : Searches query course)
      (h : reply.within query.timeout = some (.ok symbols)) :
      Stands query (some (.storing symbols now)) (.ended query reply :: course)
  | returned {symbols : List Symbol} {course : List Event} (h : Returns query symbols course) :
      Stands query none course
  | dropped {course : List Event} (h : Searches query course) :
      Stands query none (.dropped :: course)
  | overflowed {reply : Reply (List Symbol)} {course : List Event} (cause : ClockError)
      (h : Searches query course) :
      Stands query none (.overflowed cause :: .ended query reply :: course)

theorem Stands.move (h : Stands query (some stage) course)
    (hmove : Move query clock client stage client' stage? events) :
    Stands query stage? (events ++ course) := by
  cases hmove with
  | hit => cases h with | looking => exact .returned (.served _ _)
  | expired => cases h with | looking => exact .evicting _
  | absent => cases h with | looking => exact .searching (.absent _)
  | evict => cases h with | evicting => exact .searching (.expired _)
  | found hfound =>
    cases h with
    | searching hsearches =>
      exact .storing clock hsearches (Ending.ofReply_eq_found_iff.mp hfound)
  | empty reply hempty =>
    cases h with
    | searching hsearches =>
      exact .returned (.empty hsearches fun symbols hsymbols =>
        hempty symbols (Ending.ofReply_eq_found_iff.mpr hsymbols))
  | dropped => cases h with | searching hsearches => exact .dropped hsearches
  | store => cases h with | storing _ hsearches h => exact .returned (.found _ hsearches h)
  | overflow => cases h with | storing _ hsearches _ => exact .overflowed _ hsearches

theorem Searches.returned_not_mem (h : Searches query course) : .returned symbols ∉ course := by
  cases h <;> simp

theorem Searches.stored_not_mem (h : Searches query course) :
    .stored key symbols now ∉ course := by
  cases h <;> simp

/-- A call that returned a list did nothing else than what returned it. -/
theorem Stands.returns (h : Stands query stage? course) (hmem : .returned symbols ∈ course) :
    Returns query symbols course := by
  cases h with
  | idle | looking | evicting => simp at hmem
  | searching hsearches => exact absurd hmem hsearches.returned_not_mem
  | storing _ hsearches | dropped hsearches | overflowed _ hsearches =>
    simp [hsearches.returned_not_mem] at hmem
  | returned hreturns =>
    cases hreturns with
    | served =>
      obtain rfl := by simpa using hmem
      exact .served _ _
    | found now hsearches h =>
      obtain rfl := by simpa [hsearches.returned_not_mem] using hmem
      exact .found now hsearches h
    | empty hsearches h =>
      obtain rfl := by simpa [hsearches.returned_not_mem] using hmem
      exact .empty hsearches h

theorem Stands.found_of_stored (h : Stands query stage? course)
    (hmem : .stored key symbols now ∈ course) :
    query.cacheKey = key ∧
      ∃ reply, .ended query reply ∈ course ∧ reply.within query.timeout = some (.ok symbols) := by
  cases h with
  | idle | looking | evicting => simp at hmem
  | searching hsearches => exact absurd hmem hsearches.stored_not_mem
  | storing _ hsearches | dropped hsearches | overflowed _ hsearches =>
    simp [hsearches.stored_not_mem] at hmem
  | returned hreturns =>
    cases hreturns with
    | served => simp at hmem
    | empty hsearches => simp [hsearches.stored_not_mem] at hmem
    | @found _ reply _ _ hsearches h =>
      obtain ⟨rfl, rfl, -⟩ : key = query.cacheKey ∧ symbols = _ ∧ _ := by
        simpa [hsearches.stored_not_mem] using hmem
      exact ⟨rfl, reply, by simp, h⟩

/-- The search of a call under some key found a list in time. -/
def WasFound (n : Nat) (key : String) (symbols : List Symbol) (log : List (Nat × Event)) : Prop :=
  ∃ query reply, (n, .ended query reply) ∈ log ∧ query.cacheKey = key ∧
    reply.within query.timeout = some (.ok symbols)

/-- A call that had found a list stored it, less than the given time before. -/
def WasStored (ttl : Duration) (key : String) (symbols : List Symbol) (now : Instant)
    (log : List (Nat × Event)) : Prop :=
  ∃ n stored, (n, .stored key symbols stored) ∈ log ∧ WasFound n key symbols log ∧
    now.nanoseconds < stored.nanoseconds + ttl.nanoseconds

def ServedFresh (ttl : Duration) (log : List (Nat × Event)) : Prop :=
  ∀ n query symbols now earlier, (n, .served query symbols now) :: earlier <:+ log →
    WasStored ttl query.cacheKey symbols now earlier

def Event.query? : Event → Option Query
  | .began query _ | .served query _ _ | .ended query _ => some query
  | .searched | .evicted .. | .stored .. | .returned _ | .dropped | .overflowed _ => none

structure IsConsistent (admissible : Query → Prop) (ttl : Duration) (s : History) : Prop where
  kept : s.client.ttl = ttl
  replayed : s.client.cache = contents ttl s.log
  calls : ∀ n, ∃ query stage?, s.calls n = stage?.map (Running.mk query) ∧
    Stands query stage? (trace n s.log)
  asked : ∀ n event query, (n, event) ∈ s.log → event.query? = some query → admissible query
  served : ServedFresh ttl s.log

/-- Each list that was returned, served or stored comes from where it should. -/
structure IsAccounted (ttl : Duration) (s : History) : Prop where
  replayed : s.client.cache = contents ttl s.log
  returned : ∀ n symbols, (n, .returned symbols) ∈ s.log →
    ∃ query, Returns query symbols (trace n s.log)
  served : ServedFresh ttl s.log
  evicted : ∀ n key now earlier, (n, .evicted key now) :: earlier <:+ s.log →
    ∀ item, item ∈ (contents ttl ((n, .evicted key now) :: earlier)).entries ↔
      item ∈ (contents ttl earlier).entries ∧ ¬ (item.1 = key ∧ item.2.expiry ≤ now)
  held : ∀ key entry, (key, entry) ∈ s.client.cache.entries →
    ∃ n, WasFound n key entry.value s.log

theorem IsConsistent.exists_stored {entry : Cache.Entry (List Symbol)}
    (hs : IsConsistent admissible ttl s) (h : (key, entry) ∈ s.client.cache.entries) :
    ∃ n stored, (n, .stored key entry.value stored) ∈ s.log ∧ WasFound n key entry.value s.log ∧
      entry.expiry = ⟨stored.nanoseconds + ttl.nanoseconds⟩ := by
  rw [hs.replayed] at h
  obtain ⟨n, stored, hstored, hexpiry⟩ := exists_stored_of_mem h
  obtain ⟨query, stage?, -, hstands⟩ := hs.calls n
  obtain ⟨hkey, reply, hended, hreply⟩ := hstands.found_of_stored (mem_trace_iff.mpr hstored)
  exact ⟨n, stored, hstored, ⟨query, reply, mem_trace_iff.mp hended, hkey, hreply⟩, hexpiry⟩

theorem isConsistent_initial (clock : Instant) :
    IsConsistent admissible ttl (initial ttl clock) where
  kept := rfl
  replayed := rfl
  calls _ := ⟨⟨"", 0, ⟨0⟩, true, .definitions⟩, none, rfl, .idle⟩
  asked := by simp [initial]
  served := by simp [ServedFresh, initial]

theorem WasStored.append (h : WasStored ttl key symbols now log) (later : List (Nat × Event)) :
    WasStored ttl key symbols now (later ++ log) := by
  obtain ⟨m, stored, hstored, ⟨query, reply, hended, hfound⟩, hfresh⟩ := h
  exact ⟨m, stored, List.mem_append_right _ hstored,
    ⟨query, reply, List.mem_append_right _ hended, hfound⟩, hfresh⟩

theorem ServedFresh.append (h : ServedFresh ttl log)
    (hevents : ∀ query symbols now, .served query symbols now ∈ events →
      WasStored ttl query.cacheKey symbols now log) :
    ServedFresh ttl (events.map (n, ·) ++ log) := by
  induction events with
  | nil => exact h
  | cons event events ih =>
    have hearlier := ih fun query symbols now hmem =>
      hevents query symbols now (List.mem_cons_of_mem _ hmem)
    intro n' query symbols now earlier hlog
    rcases List.suffix_cons_iff.mp hlog with heq | hlog
    · simp only [List.cons.injEq, Prod.mk.injEq] at heq
      obtain ⟨⟨-, rfl⟩, rfl⟩ := heq
      exact (hevents query symbols now List.mem_cons_self).append _
    · exact hearlier n' query symbols now earlier hlog

theorem Move.cache_eq (h : Move query clock client stage client' stage? events)
    (hcache : client.cache = contents client.ttl log) (n : Nat) :
    client'.cache = contents client.ttl (events.map (n, ·) ++ log) := by
  rw [contents_append, ← hcache]
  cases h with
  | store hset =>
    obtain ⟨expiry, hexpiry, rfl⟩ := Cache.set_eq_ok_iff.mp hset
    obtain rfl := Instant.add_eq_ok hexpiry
    rfl
  | hit | expired | absent | evict | found | empty | dropped | overflow => rfl

theorem Move.ttl_eq (h : Move query clock client stage client' stage? events) :
    client'.ttl = client.ttl := by
  cases h <;> rfl

theorem Move.served (h : Move query clock client stage client' stage? events)
    {asked : Query} (hserved : .served asked symbols now ∈ events) :
    ∃ entry, (asked.cacheKey, entry) ∈ client.cache.entries ∧ entry.value = symbols ∧
      now < entry.expiry := by
  cases h with
  | hit hlook =>
    obtain ⟨rfl, rfl, rfl⟩ : asked = query ∧ symbols = _ ∧ now = _ := by
      simpa using hserved
    obtain ⟨entry, hentry, hfresh, hvalue⟩ := Cache.look_eq_hit_iff.mp hlook
    exact ⟨entry, Cache.mem_of_entry?_eq_some hentry, hvalue, hfresh⟩
  | expired | absent | evict | found | empty | dropped | store | overflow => simp at hserved

theorem Move.query_eq {event : Event} {asked : Query}
    (h : Move query clock client stage client' stage? events) (hmem : event ∈ events)
    (hasked : event.query? = some asked) : query = asked := by
  cases h with
  | expired => cases hmem
  | hit | empty | store | evict =>
    rcases List.mem_pair.mp hmem with rfl | rfl <;> cases hasked
    all_goals rfl
  | absent | found | dropped | overflow =>
    rcases List.mem_singleton.mp hmem with rfl
    cases hasked
    all_goals rfl

theorem Searches.exists_began (h : Searches query course) : ∃ now, .began query now ∈ course := by
  cases h with
  | absent now | expired now => exact ⟨now, by simp⟩

theorem Stands.exists_began (h : Stands query (some stage) course) :
    ∃ now, .began query now ∈ course := by
  cases h with
  | looking now | evicting now => exact ⟨now, List.mem_cons_self⟩
  | searching hsearches => exact hsearches.exists_began
  | storing _ hsearches =>
    obtain ⟨now, hbegan⟩ := hsearches.exists_began
    exact ⟨now, List.mem_cons_of_mem _ hbegan⟩

theorem IsConsistent.put (hs : IsConsistent admissible ttl s) (httl : client.ttl = ttl)
    (hcache : client.cache = contents ttl (events.map (n, ·) ++ s.log))
    (hstands : Stands query stage? (events ++ trace n s.log))
    (hasked : ∀ event ∈ events, ∀ query, event.query? = some query → admissible query)
    (hserved : ∀ query symbols now, .served query symbols now ∈ events →
      WasStored ttl query.cacheKey symbols now s.log) :
    IsConsistent admissible ttl (s.put n client (stage?.map (Running.mk query)) events) where
  kept := httl
  replayed := hcache
  calls m := by
    by_cases hm : m = n
    · subst hm
      exact ⟨query, stage?, calls_put_self, by rwa [trace_put_self]⟩
    · rw [calls_put_of_ne hm, trace_put_of_ne hm]
      exact hs.calls m
  asked m event asked hmem := by
    rcases List.mem_append.mp hmem with hmem | hmem
    · obtain ⟨other, hother, heq⟩ := List.mem_map.mp hmem
      obtain ⟨rfl, rfl⟩ := Prod.mk.inj heq
      exact hasked other hother asked
    · exact hs.asked m event asked hmem
  served := hs.served.append hserved

theorem IsConsistent.step (hs : IsConsistent admissible ttl s) (h : Step admissible passes s s') :
    IsConsistent admissible ttl s' := by
  cases h with
  | tick => exact ⟨hs.kept, hs.replayed, hs.calls, hs.asked, hs.served⟩
  | start n query hquery hn =>
    have hstands : Stands query (some (.looking s.clock))
        ([.began query s.clock] ++ trace n s.log) := by
      rw [hn]
      exact .looking s.clock
    refine hs.put hs.kept ?_ hstands ?_ (by simp)
    · exact hs.replayed
    · intro event hmem asked hasked
      obtain rfl := List.mem_singleton.mp hmem
      obtain rfl := Option.some.inj hasked
      exact hquery
  | @move n query client stage stage? events hcall hmove =>
    have hcache := hmove.cache_eq (hs.kept.symm ▸ hs.replayed) n
    obtain ⟨query', stage', hcalls, hstands⟩ := hs.calls n
    obtain ⟨rfl, rfl⟩ : query' = query ∧ stage' = some stage := by
      cases stage' with
      | none => simp [hcall] at hcalls
      | some stage' => simpa [hcall, eq_comm] using hcalls
    refine hs.put (hmove.ttl_eq.trans hs.kept) (hs.kept ▸ hcache) (hstands.move hmove) ?_ ?_
    · intro event hmem asked hasked
      obtain rfl := hmove.query_eq hmem hasked
      obtain ⟨now, hbegan⟩ := hstands.exists_began
      exact hs.asked n _ _ (mem_trace_iff.mp hbegan) rfl
    · intro asked symbols now hmem
      -- What is served stands in the cache, so the log knows who stored it.
      obtain ⟨entry, hentry, rfl, hfresh⟩ := hmove.served hmem
      obtain ⟨m, stored, hstored, hfound, hexpiry⟩ := hs.exists_stored hentry
      rw [hexpiry] at hfresh
      exact ⟨m, stored, hstored, hfound, hfresh⟩

theorem ReachableBy.isConsistent (h : ReachableBy admissible passes ttl s) :
    IsConsistent admissible ttl s := by
  obtain ⟨clock, hsteps⟩ := h
  induction hsteps with
  | refl => exact isConsistent_initial clock
  | tail _ hstep ih => exact ih.step hstep

theorem Reachable.isAccounted (h : Reachable ttl s) : IsAccounted ttl s where
  replayed := (ReachableBy.isConsistent h).replayed
  returned n symbols hmem := by
    obtain ⟨query, stage?, -, hstands⟩ := (ReachableBy.isConsistent h).calls n
    exact ⟨query, hstands.returns (mem_trace_iff.mpr hmem)⟩
  served := (ReachableBy.isConsistent h).served
  evicted n key now earlier _ item := Cache.mem_evict_iff (nodup_contents ttl earlier)
  held key entry hmem := by
    obtain ⟨n, stored, -, hfound, -⟩ := (ReachableBy.isConsistent h).exists_stored hmem
    exact ⟨n, hfound⟩

def quietBackend : Backend := ⟨fun _ => .now (.ok []), .now (.ok ())⟩

def brokenBackend : Backend :=
  ⟨fun _ => .now (.error (.root "index unavailable")), .now (.ok ())⟩

def widgetUses : Query := ⟨"Widget", 10, Query.defaultTimeout, true, .references⟩

def tenSecondClient : Client :=
  ⟨⟨[(widgetUses.cacheKey, ⟨[], ⟨10000000000⟩⟩)]⟩, .ofSeconds 10⟩

theorem ask_quietBackend :
    (ofTtl (.ofSeconds 10)).ask quietBackend ⟨0⟩ ⟨0⟩ widgetUses =
      .ok ⟨[], tenSecondClient, some ⟨widgetUses, .found []⟩⟩ := rfl

theorem ask_brokenBackend :
    tenSecondClient.ask brokenBackend ⟨20000000000⟩ ⟨20000000000⟩ widgetUses =
      .ok ⟨[], ofTtl (.ofSeconds 10), some ⟨widgetUses, .failed (.root "index unavailable")⟩⟩ := by
  have hlook : tenSecondClient.lookUp ⟨20000000000⟩ widgetUses = (none, ofTtl (.ofSeconds 10)) := by
    simp [lookUp, tenSecondClient, Cache.get, Cache.look, Cache.entry?, Cache.Entry.isFresh,
      Cache.evict, Cache.erase, Instant.lt_iff, ofTtl, Cache.empty]
  simp only [ask, hlook]
  rfl

theorem exists_reachable_tenSecondClient :
    ∃ s, Reachable (.ofSeconds 10) s ∧ s.client = tenSecondClient ∧ s.clock = ⟨20000000000⟩ ∧
      trace 1 s.log = [] ∧ (0, .returned []) ∈ s.log := by
  have hinitial : Reachable (.ofSeconds 10) (initial (.ofSeconds 10) ⟨0⟩) := ⟨⟨0⟩, .refl⟩
  obtain ⟨events, clock, hsteps⟩ :=
    hinitial.ask (n := 0) rfl (Nat.le_refl _) ask_quietBackend
  have htick := hsteps.tail (.tick ⟨20000000000⟩ (Nat.zero_le _))
  refine ⟨_, ⟨clock, htick⟩, rfl, rfl, ?_, by simp [put]⟩
  rw [trace_put_of_ne (by decide)]
  rfl

/-- The list of one call expires before the search of the next one fails. -/
theorem isAccounted_brokenBackend :
    ∃ s, Reachable (.ofSeconds 10) s ∧ (0, .returned []) ∈ s.log ∧ (1, .returned []) ∈ s.log ∧
      s.client.cache.entries = [] ∧ IsAccounted (.ofSeconds 10) s := by
  obtain ⟨s, hreach, hclient, hclock, htrace, hmem⟩ := exists_reachable_tenSecondClient
  obtain ⟨events, hreach'⟩ := hreach.ask (n := 1) htrace (Nat.le_refl _)
    (hclock ▸ hclient ▸ ask_brokenBackend)
  exact ⟨_, hreach', by simp [put, hmem], by simp [put], rfl, hreach'.isAccounted⟩

/-- A search that fails can leave another cache than it found: what has expired is evicted. -/
theorem not_unchanged_of_failed :
    ¬ ∀ (s : History) (backend : Backend) (answered : Instant) (query : Query)
        (answer : Answer (List Symbol)) (error : ErrorChain),
      Reachable (.ofSeconds 10) s → s.client.ask backend s.clock answered query = .ok answer →
        answer.call? = some ⟨query, .failed error⟩ →
          answer.client.cache.entries = s.client.cache.entries := by
  intro hunchanged
  obtain ⟨s, hreach, hclient, hclock, -, -⟩ := exists_reachable_tenSecondClient
  have hentries := hunchanged s brokenBackend s.clock widgetUses _ _ hreach
    (by rw [hclient, hclock]; exact ask_brokenBackend) rfl
  simp [hclient, ofTtl, Cache.empty, tenSecondClient] at hentries

end CodeNav.Client.History
