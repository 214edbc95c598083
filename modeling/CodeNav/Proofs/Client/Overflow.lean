import CodeNav.Proofs.Client.Basic
import CodeNav.Settings.Basic

/-! # Queries at the end of the clock

Whatever the backend does, a query should end with a list. The one step that can fail is on the
path of success: a list that was found is stored until an instant that the clock may be unable to
show.
-/

namespace CodeNav

/-- The seconds of the clock are a signed 64-bit number. -/
theorem Instant.add_ofSeconds_eq_error_iff {t : Instant} {n : Nat} {cause : ClockError} :
    t.add (.ofSeconds n) = .error cause ↔ 1 <<< 63 ≤ t.nanoseconds / 1000000000 + n := by
  have hlimit : t.nanoseconds + n * 1000000000 < limit ↔
      t.nanoseconds / 1000000000 + n < 1 <<< 63 := by
    simp only [limit, Nat.one_shiftLeft]
    omega
  cases cause
  by_cases h : t.nanoseconds + n * 1000000000 < limit
  · simpa [add, Duration.ofSeconds, h] using hlimit.mp h
  · simpa [add, Duration.ofSeconds, h] using hlimit.not.mp h

namespace Client

def Ending.symbols : Ending → List Symbol
  | .found symbols => symbols
  | .failed _ => []
  | .timedOut => []

/-- The list that a query should end with: the cached one, or what the backend finds in time. -/
def promised (cache : Cache (List Symbol)) (backend : Backend) (asked : Instant) (query : Query) :
    List Symbol :=
  match cache.look query.cacheKey asked with
  | .hit symbols => symbols
  | .expired | .absent =>
    match (backend.search query).within query.timeout with
    | some (.ok symbols) => symbols
    | some (.error _) | none => []

/-- A list that the cache does not serve is found in time, and expires past the end of the clock. -/
structure EndsPastClock (cache : Cache (List Symbol)) (settings : Settings) (backend : Backend)
    (asked answered : Instant) (query : Query) : Prop where
  missed : ∀ symbols, cache.look query.cacheKey asked ≠ .hit symbols
  found : ∃ symbols, (backend.search query).within query.timeout = some (.ok symbols)
  overflows : 1 <<< 63 ≤ answered.nanoseconds / 1000000000 + settings.cacheTtlSeconds

variable {client client' : Client} {cache : Cache (List Symbol)} {settings : Settings}
  {backend : Backend} {now asked answered : Instant} {query : Query} {ending : Ending}
  {symbols : List Symbol} {cause : ClockError}

theorem lookUp_of_miss (h : ∀ symbols, client.cache.look query.cacheKey now ≠ .hit symbols) :
    ∃ cache, client.lookUp now query = (none, { client with cache }) := by
  rcases hlook : client.lookUp now query with ⟨_ | symbols, looked⟩
  · obtain ⟨-, rfl⟩ | ⟨-, rfl⟩ := lookUp_eq_none_iff.mp hlook
    · exact ⟨_, rfl⟩
    · exact ⟨_, rfl⟩
  · exact absurd (lookUp_eq_some_iff.mp hlook).1 (h symbols)

theorem promised_of_miss (h : ∀ symbols, cache.look query.cacheKey asked ≠ .hit symbols) :
    promised cache backend asked query =
      (Ending.ofReply (backend.search query) query.timeout).symbols := by
  rw [promised, Ending.ofReply]
  cases hlook : cache.look query.cacheKey asked with
  | hit symbols => exact absurd hlook (h symbols)
  | expired | absent =>
    rcases (backend.search query).within query.timeout with _ | _ | symbols <;> rfl

theorem symbols_of_settle (h : client.settle now query ending = .ok (symbols, client')) :
    symbols = ending.symbols := by
  obtain ⟨cache, rfl, -, -⟩ | ⟨hnot, rfl, -⟩ := settle_eq_ok_iff.mp h
  · rfl
  · cases ending with
    | found found => exact absurd rfl (hnot found)
    | failed error => rfl
    | timedOut => rfl

theorem ask_of_hit (h : client.cache.look query.cacheKey asked = .hit symbols) :
    client.ask backend asked answered query = .ok { value := symbols, client } := by
  simp only [ask, lookUp, Cache.get, h]

theorem ask_of_miss (client : Client) (backend : Backend) (answered : Instant)
    (h : ∀ symbols, client.cache.look query.cacheKey asked ≠ .hit symbols) :
    ∃ cache, client.ask backend asked answered query =
      (settle { client with cache } answered query
          (.ofReply (backend.search query) query.timeout)).map fun settled =>
        ⟨settled.1, settled.2, some ⟨query, .ofReply (backend.search query) query.timeout⟩⟩ := by
  obtain ⟨cache, hlook⟩ := lookUp_of_miss h
  refine ⟨cache, ?_⟩
  simp only [ask, hlook]
  cases settle { client with cache } answered query
    (.ofReply (backend.search query) query.timeout) <;> rfl

theorem EndsPastClock.ask_eq
    (h : EndsPastClock cache settings backend asked answered query) :
    (⟨cache, settings.cacheTtl⟩ : Client).ask backend asked answered query = .error .pastEnd := by
  obtain ⟨cache', hask⟩ := ask_of_miss ⟨cache, settings.cacheTtl⟩ backend answered h.missed
  obtain ⟨symbols, hfound⟩ := h.found
  have hsettle : settle ⟨cache', settings.cacheTtl⟩ answered query
      (.ofReply (backend.search query) query.timeout) = .error .pastEnd :=
    settle_eq_error_iff.mpr ⟨⟨symbols, Ending.ofReply_eq_found_iff.mpr hfound⟩,
      Instant.add_ofSeconds_eq_error_iff.mpr h.overflows⟩
  rw [hask, hsettle]
  rfl

theorem exists_ask_eq (h : ¬ EndsPastClock cache settings backend asked answered query) :
    ∃ answer, (⟨cache, settings.cacheTtl⟩ : Client).ask backend asked answered query = .ok answer ∧
      answer.value = promised cache backend asked query := by
  by_cases hhit : ∃ symbols, cache.look query.cacheKey asked = .hit symbols
  · obtain ⟨symbols, hhit⟩ := hhit
    exact ⟨_, ask_of_hit hhit, by simp only [promised, hhit]⟩
  · have hmissed : ∀ symbols, cache.look query.cacheKey asked ≠ .hit symbols :=
      not_exists.mp hhit
    obtain ⟨cache', hask⟩ := ask_of_miss ⟨cache, settings.cacheTtl⟩ backend answered hmissed
    cases hsettle : settle ⟨cache', settings.cacheTtl⟩ answered query
        (.ofReply (backend.search query) query.timeout) with
    | error cause =>
      obtain ⟨⟨symbols, hending⟩, hadd⟩ := settle_eq_error_iff.mp hsettle
      have hfound := Ending.ofReply_eq_found_iff.mp hending
      have hoverflow := Instant.add_ofSeconds_eq_error_iff.mp hadd
      exact absurd ⟨hmissed, ⟨symbols, hfound⟩, hoverflow⟩ h
    | ok settled =>
      rw [hask, hsettle]
      exact ⟨_, rfl, (symbols_of_settle hsettle).trans (promised_of_miss hmissed).symm⟩

/-- A query ends with the promised list, unless it ends past the clock; then there is none. -/
theorem ask_ends_iff (cache : Cache (List Symbol)) (settings : Settings) (backend : Backend)
    (asked answered : Instant) (query : Query) :
    ((∃ answer,
          (⟨cache, settings.cacheTtl⟩ : Client).ask backend asked answered query = .ok answer ∧
            answer.value = promised cache backend asked query) ↔
        ¬ EndsPastClock cache settings backend asked answered query) ∧
      ((⟨cache, settings.cacheTtl⟩ : Client).ask backend asked answered query = .error .pastEnd ↔
        EndsPastClock cache settings backend asked answered query) := by
  refine ⟨⟨?_, exists_ask_eq⟩, ?_, EndsPastClock.ask_eq⟩
  · rintro ⟨answer, hanswer, -⟩ hends
    simp [hends.ask_eq] at hanswer
  · intro herror
    by_contra hnot
    obtain ⟨answer, hanswer, -⟩ := exists_ask_eq hnot
    simp [herror] at hanswer

/-- With the greatest time that settings can hold, no list that is found can be stored. -/
theorem ask_greatestTtl :
    (ofTtl { cacheTtlSeconds := 18446744073709551615 : Settings }.cacheTtl).ask
        ⟨fun _ => .now (.ok []), .now (.ok ())⟩ ⟨0⟩ ⟨0⟩
        ⟨"Widget", 10, Query.defaultTimeout, true, .references⟩ = .error .pastEnd :=
  EndsPastClock.ask_eq
    { missed := by simp [Cache.look, Cache.entry?, Cache.empty]
      found := ⟨[], rfl⟩
      overflows := by decide }

end Client

end CodeNav
