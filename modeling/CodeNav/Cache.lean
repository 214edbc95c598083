import CodeNav.Clock

/-! # A cache with expiry

Entries are stored under text keys and expire some time after they were stored. An expired entry
stays until a lookup meets it. A lookup reads the clock, then the entries, and evicts in a step of
its own, so what another writer stored in between has to survive.
-/

namespace CodeNav

structure Cache.Entry (α : Type) where
  value : α
  /-- The first instant at which the entry is no longer served. -/
  expiry : Instant
  deriving Repr

structure Cache (α : Type) where
  entries : List (String × Cache.Entry α)
  deriving Repr

namespace Cache

def empty : Cache α := ⟨[]⟩

/-- How long an entry is kept where nothing else is said. -/
def defaultTtl : Duration := .ofSeconds 300

def entry? (cache : Cache α) (key : String) : Option (Entry α) := cache.entries.lookup key

/-- The number of entries, with expired ones that are still there. -/
def size (cache : Cache α) : Nat := cache.entries.length

def isEmpty (cache : Cache α) : Bool := cache.entries.isEmpty

def Entry.isFresh (entry : Entry α) (now : Instant) : Bool := decide (now < entry.expiry)

inductive Lookup (α : Type) where
  | hit (value : α)
  | expired
  | absent
  deriving Repr

/-- Reads the entries for a lookup that read the clock at `now`. -/
def look (cache : Cache α) (key : String) (now : Instant) : Lookup α :=
  match cache.entry? key with
  | none => .absent
  | some entry => if entry.isFresh now then .hit entry.value else .expired

def erase (cache : Cache α) (key : String) : Cache α := ⟨cache.entries.filter (·.1 ≠ key)⟩

/-- Evicts for a lookup that read the clock at `now`. An entry that was fresh then stays. -/
def evict (cache : Cache α) (key : String) (now : Instant) : Cache α :=
  match cache.entry? key with
  | some entry => if entry.isFresh now then cache else cache.erase key
  | none => cache

/-- Puts an entry under a key, in place of the one that is there. -/
def insert (cache : Cache α) (key : String) (entry : Entry α) : Cache α :=
  ⟨(key, entry) :: (cache.erase key).entries⟩

/-- A lookup as a whole: the value of a fresh entry, and the cache after it. -/
def get (cache : Cache α) (key : String) (now : Instant) : Option α × Cache α :=
  match cache.look key now with
  | .hit value => (some value, cache)
  | .expired => (none, cache.evict key now)
  | .absent => (none, cache)

/-- Stores a value for the given time. The time has to end before the clock does. -/
def set (cache : Cache α) (key : String) (value : α) (now : Instant) (ttl : Duration) :
    Except ClockError (Cache α) := do
  return cache.insert key ⟨value, ← now.add ttl⟩

end Cache

end CodeNav
