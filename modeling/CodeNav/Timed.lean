import CodeNav.Clock

/-! # Values that take time

A timed value is there after some delay, or never. It is awaited for a bounded time.
-/

namespace CodeNav

inductive Timed (α : Type) where
  | never
  | after (delay : Duration) (value : α)
  deriving DecidableEq, Repr

namespace Timed

def now (value : α) : Timed α := after ⟨0⟩ value

def map (f : α → β) : Timed α → Timed β
  | never => never
  | after delay value => after delay (f value)

/-- The value, if it is there when the given time is over. -/
def within (timed : Timed α) (time : Duration) : Option α :=
  match timed with
  | never => none
  | after delay value => if delay ≤ time then some value else none

/-- How long the value is awaited, if the wait ends with the given time. -/
def wait (timed : Timed α) (time : Duration) : Duration :=
  match timed with
  | never => time
  | after delay _ => if delay ≤ time then delay else time

end Timed

end CodeNav
