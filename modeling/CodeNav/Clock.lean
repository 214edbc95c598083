import CodeNav.Word

/-! # Durations and instants

Durations have nanosecond precision. An instant is a reading of a monotonic clock, whose seconds
are a signed 64-bit number, so adding a duration to an instant can leave the range of the clock.
-/

namespace CodeNav

structure Duration where
  nanoseconds : Nat
  deriving DecidableEq, Repr

namespace Duration

def ofSeconds (n : Nat) : Duration := ⟨n * 1000000000⟩

def ofMilliseconds (n : Nat) : Duration := ⟨n * 1000000⟩

def milliseconds (d : Duration) : Nat := d.nanoseconds / 1000000

def seconds (d : Duration) : Nat := d.nanoseconds / 1000000000

instance : LE Duration := ⟨fun d e => d.nanoseconds ≤ e.nanoseconds⟩

instance (d e : Duration) : Decidable (d ≤ e) :=
  inferInstanceAs (Decidable (d.nanoseconds ≤ e.nanoseconds))

theorem milliseconds_ofMilliseconds (n : Nat) : (ofMilliseconds n).milliseconds = n := by
  simp [ofMilliseconds, milliseconds]

end Duration

inductive ClockError where
  | pastEnd
  deriving DecidableEq, Repr

def ClockError.message : ClockError → String
  | pastEnd => "overflow when adding duration to instant"

/-- Nanoseconds on a monotonic clock. -/
structure Instant where
  nanoseconds : Nat
  deriving DecidableEq, Repr

namespace Instant

/-- The first reading that the clock cannot show. -/
def limit : Nat := 1 <<< 63 * 1000000000

/-- Adds a duration; there is no result past the end of the clock. -/
def add (t : Instant) (d : Duration) : Except ClockError Instant :=
  if t.nanoseconds + d.nanoseconds < limit then .ok ⟨t.nanoseconds + d.nanoseconds⟩
  else .error .pastEnd

theorem add_eq_ok {s t : Instant} {d : Duration} (h : t.add d = .ok s) :
    s = ⟨t.nanoseconds + d.nanoseconds⟩ := by
  rw [add] at h
  split at h
  · exact (Except.ok.inj h).symm
  · cases h

instance : LT Instant := ⟨fun s t => s.nanoseconds < t.nanoseconds⟩

instance : LE Instant := ⟨fun s t => s.nanoseconds ≤ t.nanoseconds⟩

instance (s t : Instant) : Decidable (s < t) :=
  inferInstanceAs (Decidable (s.nanoseconds < t.nanoseconds))

instance (s t : Instant) : Decidable (s ≤ t) :=
  inferInstanceAs (Decidable (s.nanoseconds ≤ t.nanoseconds))

theorem lt_iff {s t : Instant} : s < t ↔ s.nanoseconds < t.nanoseconds := Iff.rfl

theorem le_iff {s t : Instant} : s ≤ t ↔ s.nanoseconds ≤ t.nanoseconds := Iff.rfl

theorem not_lt {s t : Instant} : ¬ s < t ↔ t ≤ s := Nat.not_lt

end Instant

end CodeNav
