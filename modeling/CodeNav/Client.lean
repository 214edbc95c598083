import CodeNav.Backend
import CodeNav.Cache

/-! # Queries that fail softly

A client looks into its cache, bounds the remote call by the timeout of the query, and turns every
remote failure into an empty list. A successful list is stored, even an empty one; a failure is not.
-/

namespace CodeNav

structure Client where
  cache : Cache (List Symbol)
  /-- How long results are kept. -/
  ttl : Duration

namespace Client

def ofTtl (ttl : Duration) : Client := ⟨.empty, ttl⟩

/-- How the call of a query to the backend ended. -/
inductive Ending where
  | found (symbols : List Symbol)
  | failed (error : ErrorChain)
  | timedOut
  deriving DecidableEq, Repr

def Ending.ofReply (reply : Reply (List Symbol)) (timeout : Duration) : Ending :=
  match reply.within timeout with
  | some (.ok symbols) => .found symbols
  | some (.error error) => .failed error
  | none => .timedOut

theorem Ending.ofReply_eq_found_iff {reply : Reply (List Symbol)} {timeout : Duration}
    {symbols : List Symbol} :
    ofReply reply timeout = .found symbols ↔ reply.within timeout = some (.ok symbols) := by
  rw [ofReply]
  split <;> simp_all

def lookUp (client : Client) (now : Instant) (query : Query) : Option (List Symbol) × Client :=
  let (symbols?, cache) := client.cache.get query.cacheKey now
  (symbols?, { client with cache })

/-- The results of a query that was not in the cache, after the call to the backend. -/
def settle (client : Client) (now : Instant) (query : Query) :
    Ending → Except ClockError (List Symbol × Client)
  | .found symbols => do
    let cache ← client.cache.set query.cacheKey symbols now client.ttl
    return (symbols, { client with cache })
  | .failed _ => .ok ([], client)
  | .timedOut => .ok ([], client)

structure Call where
  query : Query
  ending : Ending
  deriving DecidableEq, Repr

/-- What a client gives back, with the call that it took. -/
structure Answer (α : Type) where
  value : α
  client : Client
  call? : Option Call := none

/-- Answers a query. The clock shows `asked` at the lookup and `answered` after the call. -/
def ask (client : Client) (backend : Backend) (asked answered : Instant) (query : Query) :
    Except ClockError (Answer (List Symbol)) :=
  match client.lookUp asked query with
  | (some symbols, client) => .ok { value := symbols, client }
  | (none, client) => do
    let ending := Ending.ofReply (backend.search query) query.timeout
    let (symbols, client) ← client.settle answered query ending
    return { value := symbols, client, call? := some ⟨query, ending⟩ }

end Client

end CodeNav
