import CodeNav.ErrorChain
import CodeNav.Query
import CodeNav.Symbol
import CodeNav.Timed

/-! # Backends

A backend answers queries with symbols of the local checkout. A call takes some time, may fail, and
may never end.
-/

namespace CodeNav

abbrev Reply (α : Type) := Timed (Except ErrorChain α)

structure Backend where
  search : Query → Reply (List Symbol)
  /-- Pays what the first query would have to wait for. -/
  warmUp : Reply Unit

/-- The filter of a query that only warms up, and that should match nothing. -/
def Backend.warmUpFilter : String := "_fastnav_warm_up_"

/-- The query that warms up. -/
def Backend.warmUpQuery : Query :=
  .capped warmUpFilter 1 Query.defaultTimeout true .definitions

end CodeNav
