import CodeNav.Client
import CodeNav.Proofs.Cache

/-! # Steps of a client

A lookup meets a fresh entry, an expired one or none. After the call to the backend only a list that
was found is stored, and storing is the one step of a query that can fail.
-/

namespace CodeNav.Client

variable {client client' : Client} {backend : Backend} {now asked answered : Instant}
  {query : Query} {symbols : List Symbol} {ending : Ending} {cause : ClockError}
  {answer : Answer (List Symbol)}

theorem lookUp_eq_some_iff :
    client.lookUp now query = (some symbols, client') ↔
      client.cache.look query.cacheKey now = .hit symbols ∧ client' = client := by
  rw [lookUp, Cache.get]
  cases client.cache.look query.cacheKey now with
  | hit value =>
    constructor
    · intro h
      obtain ⟨hsymbols, rfl⟩ := Prod.mk.inj h
      exact ⟨congrArg Cache.Lookup.hit (Option.some.inj hsymbols), rfl⟩
    · rintro ⟨hsymbols, rfl⟩
      rw [Cache.Lookup.hit.inj hsymbols]
  | expired => simp
  | absent => simp

theorem lookUp_eq_none_iff :
    client.lookUp now query = (none, client') ↔
      client.cache.look query.cacheKey now = .expired ∧
          client' = { client with cache := client.cache.evict query.cacheKey now } ∨
        client.cache.look query.cacheKey now = .absent ∧ client' = client := by
  rw [lookUp, Cache.get]
  cases client.cache.look query.cacheKey now with
  | hit value => simp
  | expired => simp [eq_comm]
  | absent =>
    have heta : client' = client ↔ client = client' := eq_comm
    simpa using heta.symm

theorem settle_eq_ok_iff :
    client.settle now query ending = .ok (symbols, client') ↔
      (∃ cache, ending = .found symbols ∧
          client.cache.set query.cacheKey symbols now client.ttl = .ok cache ∧
            client' = { client with cache }) ∨
        (∀ found, ending ≠ .found found) ∧ symbols = [] ∧ client' = client := by
  cases ending with
  | failed error => simp [settle, eq_comm]
  | timedOut => simp [settle, eq_comm]
  | found found =>
    rw [settle]
    cases hset : client.cache.set query.cacheKey found now client.ttl with
    | error cause =>
      simp only [bind, Except.bind, reduceCtorEq, Ending.found.injEq, false_iff]
      rintro (⟨cache, rfl, hset', -⟩ | ⟨hnot, -⟩)
      · simp [hset] at hset'
      · exact hnot found rfl
    | ok cache =>
      constructor
      · intro h
        obtain ⟨rfl, rfl⟩ := Prod.mk.inj (Except.ok.inj h)
        exact .inl ⟨cache, rfl, hset, rfl⟩
      · rintro (⟨cache', hending, hset', rfl⟩ | ⟨hnot, -⟩)
        · obtain rfl := Ending.found.inj hending
          obtain rfl := Except.ok.inj (hset.symm.trans hset')
          rfl
        · exact absurd rfl (hnot found)

theorem settle_eq_error_iff :
    client.settle now query ending = .error cause ↔
      (∃ symbols, ending = .found symbols) ∧ now.add client.ttl = .error cause := by
  cases ending with
  | failed error => simp [settle]
  | timedOut => simp [settle]
  | found symbols =>
    rw [← Cache.set_eq_error_iff, settle]
    cases client.cache.set query.cacheKey symbols now client.ttl with
    | error cause => simp [bind, Except.bind]
    | ok cache => simp [bind, Except.bind, pure, Except.pure]

theorem ask_eq_ok_iff :
    client.ask backend asked answered query = .ok answer ↔
      (∃ symbols client', client.lookUp asked query = (some symbols, client') ∧
          answer = { value := symbols, client := client' }) ∨
        ∃ looked symbols settled, client.lookUp asked query = (none, looked) ∧
          looked.settle answered query (.ofReply (backend.search query) query.timeout) =
              .ok (symbols, settled) ∧
            answer = ⟨symbols, settled,
              some ⟨query, .ofReply (backend.search query) query.timeout⟩⟩ := by
  constructor
  · intro h
    rw [ask] at h
    rcases hlook : client.lookUp asked query with ⟨_ | symbols, looked⟩ <;> rw [hlook] at h
    · rcases hsettle : looked.settle answered query
          (.ofReply (backend.search query) query.timeout) with cause | ⟨symbols, settled⟩
      · simp [hsettle, bind, Except.bind] at h
      · simp only [hsettle, bind, Except.bind, pure, Except.pure, Except.ok.injEq] at h
        exact .inr ⟨looked, symbols, settled, rfl, hsettle, h.symm⟩
    · exact .inl ⟨symbols, looked, rfl, (Except.ok.inj h).symm⟩
  · rintro (⟨symbols, looked, hlook, rfl⟩ | ⟨looked, symbols, settled, hlook, hsettle, rfl⟩)
    · simp only [ask, hlook]
    · simp only [ask, hlook, hsettle, bind, Except.bind, pure, Except.pure]

end CodeNav.Client
