import CodeNav.Bridge.Host
import CodeNav.Program.Child

/-! # How the program searches

Direct search runs in the process itself, bridged search in a child.
-/

namespace CodeNav.Program

/-- Bridged search, with the one call that a command makes. -/
def bridgedBackend (child? : Option Backend) : Backend :=
  let host : BridgeHost := { child? }
  { search := fun query => .after Channel.Link.crossing (host.search query).2
    warmUp := .after Channel.Link.crossing host.warmUp.2 }

/-- A backend, and what its child prints when it is first called. -/
structure Searcher where
  backend : Backend
  messages : String := ""

def searcher (world : World) (repository : Repository) (settings : Settings) : Searcher :=
  match settings.mode with
  | .direct => { backend := directBackend world repository settings }
  | .bridged =>
    let child := startChild world repository settings.executable? settings.connectTimeout
    ⟨bridgedBackend child.backend?, child.messages⟩

end CodeNav.Program
