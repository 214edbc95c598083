import Mathlib.Logic.Function.Basic
import Mathlib.Logic.Relation
import CodeNav.Proofs.Client.Basic

/-! # Histories of calls

Calls of one client that run at once, each under a number of its own. Between two uses of the lock,
and while the backend searches, the other calls go on. The log tells what each call did, the latest
event first. A call reads the clock when it begins, before it takes the lock, and once more when its
search is over. Which queries are asked and how the clock goes on is left open; a call that runs
alone is a history of its own.
-/

namespace CodeNav.Client

open Relation

/-- Where a call stands between two moves. -/
inductive Stage where
  | looking (now : Instant)
  | evicting (now : Instant)
  | searching
  | storing (symbols : List Symbol) (now : Instant)

structure Running where
  query : Query
  stage : Stage

inductive History.Event where
  | began (query : Query) (now : Instant)
  /-- A fresh list came out of the cache. -/
  | served (query : Query) (symbols : List Symbol) (now : Instant)
  | evicted (key : String) (now : Instant)
  /-- The backend was called. -/
  | searched
  | ended (query : Query) (reply : Reply (List Symbol))
  | stored (key : String) (symbols : List Symbol) (now : Instant)
  | returned (symbols : List Symbol)
  | dropped
  | overflowed (cause : ClockError)

structure History where
  clock : Instant
  client : Client
  /-- The calls that run, by their numbers. -/
  calls : Nat → Option Running
  log : List (Nat × History.Event)

namespace History

def initial (ttl : Duration) (clock : Instant) : History := ⟨clock, .ofTtl ttl, fun _ => none, []⟩

def trace (n : Nat) (log : List (Nat × Event)) : List Event :=
  (log.filter (·.1 = n)).map Prod.snd

def put (s : History) (n : Nat) (client : Client) (running? : Option Running)
    (events : List Event) : History :=
  { s with client, calls := Function.update s.calls n running?, log := events.map (n, ·) ++ s.log }

/-- One move of a call, with the client and the stage after it, if the call goes on. -/
inductive Move (query : Query) (clock : Instant) (client : Client) :
    Stage → Client → Option Stage → List Event → Prop where
  | hit {now : Instant} {symbols : List Symbol}
      (h : client.cache.look query.cacheKey now = .hit symbols) :
      Move query clock client (.looking now) client none
        [.returned symbols, .served query symbols now]
  | expired {now : Instant} (h : client.cache.look query.cacheKey now = .expired) :
      Move query clock client (.looking now) client (some (.evicting now)) []
  | absent {now : Instant} (h : client.cache.look query.cacheKey now = .absent) :
      Move query clock client (.looking now) client (some .searching) [.searched]
  | evict {now : Instant} :
      Move query clock client (.evicting now)
        { client with cache := client.cache.evict query.cacheKey now } (some .searching)
        [.searched, .evicted query.cacheKey now]
  | found {reply : Reply (List Symbol)} {symbols : List Symbol}
      (h : Ending.ofReply reply query.timeout = .found symbols) :
      Move query clock client .searching client (some (.storing symbols clock))
        [.ended query reply]
  | empty (reply : Reply (List Symbol))
      (h : ∀ symbols, Ending.ofReply reply query.timeout ≠ .found symbols) :
      Move query clock client .searching client none [.returned [], .ended query reply]
  | dropped : Move query clock client .searching client none [.dropped]
  | store {symbols : List Symbol} {now : Instant} {cache : Cache (List Symbol)}
      (h : client.cache.set query.cacheKey symbols now client.ttl = .ok cache) :
      Move query clock client (.storing symbols now) { client with cache } none
        [.returned symbols, .stored query.cacheKey symbols now]
  | overflow {symbols : List Symbol} {now : Instant} {cause : ClockError}
      (h : client.cache.set query.cacheKey symbols now client.ttl = .error cause) :
      Move query clock client (.storing symbols now) client none [.overflowed cause]

/-- The clock goes on, a call begins, or one of the calls makes a move. -/
inductive Step (admissible : Query → Prop) (passes : Instant → Instant → Prop) (s : History) :
    History → Prop where
  | tick (now : Instant) (h : passes s.clock now) : Step admissible passes s { s with clock := now }
  | start (n : Nat) (query : Query) (hquery : admissible query) (h : trace n s.log = []) :
      Step admissible passes s
        (s.put n s.client (some ⟨query, .looking s.clock⟩) [.began query s.clock])
  | move {n : Nat} {query : Query} {client : Client} {stage : Stage} {stage? : Option Stage}
      {events : List Event} (hcall : s.calls n = some ⟨query, stage⟩)
      (h : Move query s.clock s.client stage client stage? events) :
      Step admissible passes s (s.put n client (stage?.map (Running.mk query)) events)

def ReachableBy (admissible : Query → Prop) (passes : Instant → Instant → Prop) (ttl : Duration)
    (s : History) : Prop :=
  ∃ clock, ReflTransGen (Step admissible passes) (initial ttl clock) s

/-- Anything may be asked, and the clock never goes back. -/
def Reachable (ttl : Duration) (s : History) : Prop := ReachableBy (fun _ => True) (· ≤ ·) ttl s

variable {admissible : Query → Prop} {passes : Instant → Instant → Prop} {s : History} {n m : Nat}
  {query : Query} {client client' : Client} {stage : Stage} {stage? : Option Stage}
  {events earlier : List Event} {log : List (Nat × Event)}

theorem trace_append (n : Nat) (later log : List (Nat × Event)) :
    trace n (later ++ log) = trace n later ++ trace n log := by
  simp [trace]

theorem trace_map_self (n : Nat) (events : List Event) : trace n (events.map (n, ·)) = events := by
  simp [trace, List.filter_map, Function.comp_def]

theorem trace_map_of_ne (h : m ≠ n) (events : List Event) : trace m (events.map (n, ·)) = [] := by
  simp [trace, Ne.symm h]

theorem mem_trace_iff {event : Event} : event ∈ trace n log ↔ (n, event) ∈ log := by
  simp [trace]

@[simp] theorem calls_put_self {running? : Option Running} :
    (s.put n client running? events).calls n = running? :=
  Function.update_self ..

theorem calls_put_of_ne {running? : Option Running} (h : m ≠ n) :
    (s.put n client running? events).calls m = s.calls m :=
  Function.update_of_ne h ..

theorem trace_put_self {running? : Option Running} :
    trace n (s.put n client running? events).log = events ++ trace n s.log := by
  rw [put, trace_append, trace_map_self]

theorem trace_put_of_ne {running? : Option Running} (h : m ≠ n) :
    trace m (s.put n client running? events).log = trace m s.log := by
  rw [put, trace_append, trace_map_of_ne h, List.nil_append]

theorem put_put {running? running'? : Option Running} :
    (s.put n client running? earlier).put n client' running'? events =
      s.put n client' running'? (events ++ earlier) := by
  simp [put]

theorem Step.go {stage : Stage} (h : Move query s.clock client stage client' stage? events)
    (n : Nat) (earlier : List Event) :
    Step admissible passes (s.put n client (some ⟨query, stage⟩) earlier)
      (s.put n client' (stage?.map (Running.mk query)) (events ++ earlier)) := by
  have hstep : Step admissible passes (s.put n client (some ⟨query, stage⟩) earlier) _ :=
    .move calls_put_self h
  rwa [put_put] at hstep

theorem steps_of_lookUp_none (h : client.lookUp s.clock query = (none, client')) (n : Nat)
    (earlier : List Event) :
    ∃ events,
      ReflTransGen (Step admissible passes)
        (s.put n client (some ⟨query, .looking s.clock⟩) earlier)
        (s.put n client' (some ⟨query, .searching⟩) events) := by
  obtain ⟨hexpired, rfl⟩ | ⟨habsent, rfl⟩ := lookUp_eq_none_iff.mp h
  · exact ⟨_, .tail (.single (.go (.expired hexpired) n earlier)) (.go .evict n _)⟩
  · exact ⟨_, .single (.go (.absent habsent) n earlier)⟩

theorem steps_of_settle {reply : Reply (List Symbol)} {symbols : List Symbol}
    (h : client.settle s.clock query (.ofReply reply query.timeout) = .ok (symbols, client'))
    (n : Nat) (earlier : List Event) :
    ∃ events,
      ReflTransGen (Step admissible passes) (s.put n client (some ⟨query, .searching⟩) earlier)
        (s.put n client' none (.returned symbols :: events)) := by
  obtain ⟨cache, hfound, hset, rfl⟩ | ⟨hnot, rfl, rfl⟩ := settle_eq_ok_iff.mp h
  · exact ⟨_, .tail (.single (.go (.found hfound) n earlier)) (.go (.store hset) n _)⟩
  · exact ⟨_, .single (.go (.empty reply hnot) n earlier)⟩

/-- A query that is answered on its own is a run of moves. -/
theorem steps_of_ask {backend : Backend} {answered : Instant} {answer : Answer (List Symbol)}
    (hquery : admissible query) (hn : trace n s.log = []) (hclock : passes s.clock answered)
    (h : s.client.ask backend s.clock answered query = .ok answer) :
    ∃ events,
      ReflTransGen (Step admissible passes) s
        ({ s with clock := answered }.put n answer.client none
          (.returned answer.value :: events)) := by
  have hstart : Step admissible passes s _ := .start n query hquery hn
  obtain ⟨symbols, looked, hlook, rfl⟩ | ⟨looked, symbols, settled, hlook, hsettle, rfl⟩ :=
    ask_eq_ok_iff.mp h
  · obtain ⟨hhit, rfl⟩ := lookUp_eq_some_iff.mp hlook
    exact ⟨_, .tail (.head hstart (.single (.go (.hit hhit) n _))) (.tick answered hclock)⟩
  · obtain ⟨events, hsteps⟩ := steps_of_lookUp_none hlook n [.began query s.clock]
    -- While the backend searches, nothing moves but the clock.
    have htick : Step admissible passes (s.put n looked (some ⟨query, .searching⟩) events)
        ({ s with clock := answered }.put n looked (some ⟨query, .searching⟩) events) :=
      .tick answered hclock
    obtain ⟨events', hsteps'⟩ :=
      steps_of_settle (s := { s with clock := answered }) hsettle n events
    exact ⟨events', .trans (.head hstart hsteps) (.head htick hsteps')⟩

theorem Reachable.ask {ttl : Duration} {backend : Backend} {answered : Instant}
    {answer : Answer (List Symbol)} (h : Reachable ttl s) (hn : trace n s.log = [])
    (hclock : s.clock ≤ answered)
    (hask : s.client.ask backend s.clock answered query = .ok answer) :
    ∃ events,
      Reachable ttl
        ({ s with clock := answered }.put n answer.client none
          (.returned answer.value :: events)) := by
  obtain ⟨clock, hsteps⟩ := h
  refine (steps_of_ask ?_ hn ?_ hask).imp fun _ hsteps' => ⟨clock, hsteps.trans hsteps'⟩
  · exact trivial
  · exact hclock

end History

end CodeNav.Client
