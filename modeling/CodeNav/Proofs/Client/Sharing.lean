import CodeNav.Proofs.Client.Returns
import CodeNav.Proofs.Query

/-! # Where served lists come from

A list that is served from the cache was found by an earlier search of a query with the same key. It
belongs to the same question unless a filter was written to look like another query.
-/

namespace CodeNav.Client

open History Relation

variable {admissible : Query → Prop} {passes : Instant → Instant → Prop} {q r : Query}
  {related : Query → Query → Prop} {log : List (Nat × Event)} {s : History} {ttl : Duration}

def anyTime (_ _ : Instant) : Prop := True

/-- Each list that was served was found earlier by the search of a related query. -/
def ServedFrom (related : Query → Query → Prop) (log : List (Nat × Event)) : Prop :=
  ∀ n query symbols now earlier, (n, .served query symbols now) :: earlier <:+ log →
    ∃ m source reply, related query source ∧ (m, .ended source reply) ∈ earlier ∧
      reply.within source.timeout = some (.ok symbols)

theorem ServedFrom.mono {related' : Query → Query → Prop} (h : ServedFrom related log)
    (himp : ∀ q r, related q r → related' q r) : ServedFrom related' log := by
  intro n query symbols now earlier hlog
  obtain ⟨m, source, reply, hrelated, hended⟩ := h n query symbols now earlier hlog
  exact ⟨m, source, reply, himp _ _ hrelated, hended⟩

def SharesKey (admissible : Query → Prop) (q r : Query) : Prop :=
  admissible q ∧ admissible r ∧ q.cacheKey = r.cacheKey

theorem History.IsConsistent.servedFrom (hs : IsConsistent admissible ttl s) :
    ServedFrom (SharesKey admissible) s.log := by
  intro n query symbols now earlier hlog
  have hquery : admissible query := hs.asked n _ query (hlog.subset List.mem_cons_self) rfl
  obtain ⟨m, -, -, ⟨source, reply, hended, hkey, hfound⟩, -⟩ := hs.served n _ _ _ _ hlog
  have hsource : admissible source :=
    hs.asked _ _ source (hlog.subset (List.mem_cons_of_mem _ hended)) rfl
  exact ⟨m, source, reply, ⟨hquery, hsource, hkey.symm⟩, hended, hfound⟩

def storedEmpty (r : Query) : Client :=
  ⟨⟨[(r.cacheKey, ⟨[], ⟨Cache.defaultTtl.nanoseconds⟩⟩)]⟩, Cache.defaultTtl⟩

theorem steps_storedEmpty (hr : admissible r) (n : Nat) :
    ReflTransGen (Step admissible passes) (initial Cache.defaultTtl ⟨0⟩)
      ((initial Cache.defaultTtl ⟨0⟩).put n (storedEmpty r) none
        [.returned [], .stored r.cacheKey [] ⟨0⟩, .ended r (.now (.ok [])), .searched,
          .began r ⟨0⟩]) := by
  have hfound : Ending.ofReply (.now (.ok [])) r.timeout = .found [] :=
    Ending.ofReply_eq_found_iff.mpr rfl
  have hset : (ofTtl Cache.defaultTtl).cache.set r.cacheKey [] ⟨0⟩ Cache.defaultTtl =
      .ok (storedEmpty r).cache := rfl
  exact .head (.start n r hr rfl) (.head (.go (.absent rfl) n _)
    (.head (.go (.found hfound) n _) (.single (.go (.store hset) n _))))

theorem look_storedEmpty (h : q.cacheKey = r.cacheKey) :
    (storedEmpty r).cache.look q.cacheKey ⟨0⟩ = .hit [] := by
  have hfresh : (⟨0⟩ : Instant) < ⟨Cache.defaultTtl.nanoseconds⟩ := by decide
  exact Cache.look_eq_hit_iff.mpr
    ⟨⟨[], ⟨Cache.defaultTtl.nanoseconds⟩⟩, by simp [storedEmpty, Cache.entry?, h], hfresh, rfl⟩

/-- A query that mimics another one is served its list. -/
theorem exists_not_servedFrom (hq : admissible q) (hr : admissible r) (h : Query.Mimics q r) :
    ∃ s, ReachableBy admissible anyTime Cache.defaultTtl s ∧
      ¬ ServedFrom Query.SameQuestion s.log := by
  have hstored : ReflTransGen (Step admissible anyTime) _ _ := steps_storedEmpty hr 0
  have hserved := (hstored.tail (.start 1 q hq rfl)).tail
    (.go (.hit (look_storedEmpty h.cacheKey_eq)) 1 _)
  refine ⟨_, ⟨⟨0⟩, hserved⟩, fun hsources => ?_⟩
  obtain ⟨m, source, reply, hsame, hended, -⟩ := hsources 1 q [] ⟨0⟩ _ (List.suffix_cons _ _)
  obtain ⟨-, rfl, -⟩ : m = 0 ∧ source = r ∧ reply = .now (.ok []) := by
    simpa [put, initial] using hended
  exact h.not_sameQuestion hsame

/-- A list that is served from the cache was found earlier for the same question, or for one that
mimics it or that it mimics. So the queries of a client share entries, and lists, only within one
question exactly if none of them mimics another. -/
theorem shares_sameQuestion_iff (admissible : Query → Prop) :
    (∀ ttl s, ReachableBy admissible anyTime ttl s →
        ServedFrom (fun q r => Query.SameQuestion q r ∨ Query.Mimics q r ∨ Query.Mimics r q)
          s.log) ∧
      ((∀ q r, SharesKey admissible q r → Query.SameQuestion q r) ↔
        ∀ q r, admissible q → admissible r → ¬ Query.Mimics q r) ∧
      ((∀ ttl s, ReachableBy admissible anyTime ttl s → ServedFrom Query.SameQuestion s.log) ↔
        ∀ q r, admissible q → admissible r → ¬ Query.Mimics q r) := by
  have hshares : (∀ q r, admissible q → admissible r → ¬ Query.Mimics q r) →
      ∀ q r, SharesKey admissible q r → Query.SameQuestion q r := by
    rintro hnone q r ⟨hq, hr, hkey⟩
    rcases Query.cacheKey_eq_iff.mp hkey with hsame | h | h
    · exact hsame
    · exact absurd h (hnone q r hq hr)
    · exact absurd h (hnone r q hr hq)
  refine ⟨?_, ⟨?_, hshares⟩, ?_, ?_⟩
  · intro ttl s hreach
    exact hreach.isConsistent.servedFrom.mono fun q r h => Query.cacheKey_eq_iff.mp h.2.2
  · intro hsame q r hq hr h
    exact h.not_sameQuestion (hsame q r ⟨hq, hr, h.cacheKey_eq⟩)
  · intro hserved q r hq hr h
    obtain ⟨s, hreach, hnot⟩ := exists_not_servedFrom hq hr h
    exact hnot (hserved _ s hreach)
  · intro hnone ttl s hreach
    exact hreach.isConsistent.servedFrom.mono (hshares hnone)

def widgetDefinitions : Query := ⟨"Widget", 10, Query.defaultTimeout, true, .definitions⟩

def widgetReferences : Query := ⟨"def:Widget", 10, Query.defaultTimeout, true, .references⟩

/-- A search for the uses of `def:Widget` is served the definitions of `Widget`. -/
theorem not_servedFrom_widget :
    ∃ s,
      ReachableBy (· ∈ [widgetDefinitions, widgetReferences]) anyTime Cache.defaultTtl s ∧
        ¬ ServedFrom Query.SameQuestion s.log :=
  exists_not_servedFrom (q := widgetReferences) (r := widgetDefinitions) (by simp) (by simp)
    (.qualifier rfl rfl rfl rfl)

end CodeNav.Client
