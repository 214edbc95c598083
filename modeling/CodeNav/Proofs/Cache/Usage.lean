import Mathlib.Logic.Function.Basic
import Mathlib.Logic.Relation
import CodeNav.Proofs.Cache

/-! # Uses of one cache at once

Lookups and stores of one cache, each under a number of its own, beside a clock that never goes
back. An operation reads the clock when it begins and takes the lock afterwards: a lookup to read
the entries, and once more to evict what had expired; a store to put its entry in. Between two of
these sections other operations go on. The log tells what each of them did, the latest event first.
-/

namespace CodeNav.Cache

open Relation

variable {α : Type}

inductive Act (α : Type) where
  /-- A lookup read the clock. -/
  | asked (now : Instant)
  /-- A lookup read the entries. -/
  | looked (now : Instant) (found : Lookup α)
  | evicted (now : Instant)
  | returned (value? : Option α)
  /-- A store read the clock. -/
  | offered (value : α) (ttl : Duration) (now : Instant)
  | stored (entry : Entry α)
  | overflowed (cause : ClockError)

structure Event (α : Type) where
  number : Nat
  key : String
  act : Act α

inductive Stage (α : Type) where
  | looking (now : Instant)
  | evicting (now : Instant)
  | storing (entry : Entry α)

structure Running (α : Type) where
  key : String
  stage : Stage α

/-- An operation reads the clock. A store whose entry would outlive the clock is over then. -/
inductive Begins (clock : Instant) : Option (Stage α) → List (Act α) → Prop where
  | ask : Begins clock (some (.looking clock)) [.asked clock]
  | offer {value : α} {ttl : Duration} {expiry : Instant} (h : clock.add ttl = .ok expiry) :
      Begins clock (some (.storing ⟨value, expiry⟩)) [.offered value ttl clock]
  | overflow {value : α} {ttl : Duration} {cause : ClockError} (h : clock.add ttl = .error cause) :
      Begins clock none [.overflowed cause, .offered value ttl clock]

/-- One section of an operation on a key, with the cache and the stage after it, if the operation
goes on. -/
inductive Section (key : String) (cache : Cache α) :
    Stage α → Cache α → Option (Stage α) → List (Act α) → Prop where
  | hit {now : Instant} {value : α} (h : cache.look key now = .hit value) :
      Section key cache (.looking now) cache none
        [.returned (some value), .looked now (.hit value)]
  | absent {now : Instant} (h : cache.look key now = .absent) :
      Section key cache (.looking now) cache none [.returned none, .looked now .absent]
  | expired {now : Instant} (h : cache.look key now = .expired) :
      Section key cache (.looking now) cache (some (.evicting now)) [.looked now .expired]
  | evict {now : Instant} :
      Section key cache (.evicting now) (cache.evict key now) none [.returned none, .evicted now]
  | store {entry : Entry α} :
      Section key cache (.storing entry) (cache.insert key entry) none [.stored entry]

structure Usage (α : Type) where
  clock : Instant
  cache : Cache α
  /-- The operations that go on, by their numbers. -/
  running : Nat → Option (Running α)
  log : List (Event α)

namespace Usage

def initial (clock : Instant) : Usage α := ⟨clock, .empty, fun _ => none, []⟩

def trace (n : Nat) (log : List (Event α)) : List (Event α) := log.filter (·.number = n)

def put (s : Usage α) (n : Nat) (key : String) (cache : Cache α) (stage? : Option (Stage α))
    (acts : List (Act α)) : Usage α where
  clock := s.clock
  cache := cache
  running := Function.update s.running n (stage?.map (Running.mk key))
  log := acts.map (Event.mk n key) ++ s.log

inductive Step (s : Usage α) : Usage α → Prop where
  | tick (now : Instant) (h : s.clock ≤ now) : Step s { s with clock := now }
  | start (n : Nat) (key : String) {stage? : Option (Stage α)} {acts : List (Act α)}
      (hnew : trace n s.log = []) (h : Begins s.clock stage? acts) :
      Step s (s.put n key s.cache stage? acts)
  | move {n : Nat} {key : String} {stage : Stage α} {cache : Cache α} {stage? : Option (Stage α)}
      {acts : List (Act α)} (hrunning : s.running n = some ⟨key, stage⟩)
      (h : Section key s.cache stage cache stage? acts) :
      Step s (s.put n key cache stage? acts)

def Reachable (s : Usage α) : Prop := ∃ clock, ReflTransGen Step (initial clock) s

variable {s : Usage α} {n m : Nat} {key : String} {cache cache' : Cache α} {stage : Stage α}
  {stage? stage'? : Option (Stage α)} {acts earlier : List (Act α)} {log : List (Event α)}

theorem trace_append (n : Nat) (later log : List (Event α)) :
    trace n (later ++ log) = trace n later ++ trace n log :=
  List.filter_append ..

theorem trace_map_self (n : Nat) (key : String) (acts : List (Act α)) :
    trace n (acts.map (Event.mk n key)) = acts.map (Event.mk n key) := by
  refine List.filter_eq_self.mpr fun event hevent => ?_
  obtain ⟨act, -, rfl⟩ := List.mem_map.mp hevent
  exact decide_eq_true rfl

theorem trace_map_of_ne (h : m ≠ n) (key : String) (acts : List (Act α)) :
    trace m (acts.map (Event.mk n key)) = [] := by
  refine List.filter_eq_nil_iff.mpr fun event hevent => ?_
  obtain ⟨act, -, rfl⟩ := List.mem_map.mp hevent
  simpa using h.symm

theorem mem_trace_iff {event : Event α} :
    event ∈ trace n log ↔ event ∈ log ∧ event.number = n := by
  simp [trace]

@[simp] theorem running_put_self : (s.put n key cache stage? acts).running n =
    stage?.map (Running.mk key) :=
  Function.update_self ..

theorem running_put_of_ne (h : m ≠ n) :
    (s.put n key cache stage? acts).running m = s.running m :=
  Function.update_of_ne h ..

theorem trace_put_self :
    trace n (s.put n key cache stage? acts).log = acts.map (Event.mk n key) ++ trace n s.log := by
  rw [put, trace_append, trace_map_self]

theorem trace_put_of_ne (h : m ≠ n) :
    trace m (s.put n key cache stage? acts).log = trace m s.log := by
  rw [put, trace_append, trace_map_of_ne h, List.nil_append]

theorem put_put :
    (s.put n key cache stage? earlier).put n key cache' stage'? acts =
      s.put n key cache' stage'? (acts ++ earlier) := by
  simp [put]

theorem Step.go (h : Section key cache stage cache' stage? acts) (n : Nat)
    (earlier : List (Act α)) :
    Step (s.put n key cache (some stage) earlier)
      (s.put n key cache' stage? (acts ++ earlier)) := by
  have hstep := Step.move (s := s.put n key cache (some stage) earlier) running_put_self h
  rwa [put_put] at hstep

/-- A lookup on its own is one that runs undisturbed. -/
theorem steps_of_get (hnew : trace n s.log = []) (key : String) :
    ∃ acts, ReflTransGen Step s
      (s.put n key (s.cache.get key s.clock).2 none
        (.returned (s.cache.get key s.clock).1 :: acts)) := by
  have hstart : Step s (s.put n key s.cache (some (.looking s.clock)) [.asked s.clock]) :=
    .start n key hnew .ask
  cases hlook : s.cache.look key s.clock with
  | hit value =>
    have hget : s.cache.get key s.clock = (some value, s.cache) := by simp only [get, hlook]
    rw [hget]
    exact ⟨_, .tail (.single hstart) (.go (.hit hlook) n _)⟩
  | absent =>
    have hget : s.cache.get key s.clock = (none, s.cache) := by simp only [get, hlook]
    rw [hget]
    exact ⟨_, .tail (.single hstart) (.go (.absent hlook) n _)⟩
  | expired =>
    have hget : s.cache.get key s.clock = (none, s.cache.evict key s.clock) := by
      simp only [get, hlook]
    rw [hget]
    exact ⟨_, .tail (.tail (.single hstart) (.go (.expired hlook) n _)) (.go .evict n _)⟩

theorem steps_of_set {value : α} {ttl : Duration}
    (hnew : trace n s.log = []) (h : s.cache.set key value s.clock ttl = .ok cache) :
    ∃ acts, ReflTransGen Step s (s.put n key cache none acts) := by
  obtain ⟨expiry, hexpiry, rfl⟩ := set_eq_ok_iff.mp h
  exact ⟨_, .tail (.single (.start n key hnew (.offer hexpiry))) (.go .store n _)⟩

end Usage

end CodeNav.Cache
