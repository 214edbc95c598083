import CodeNav.Bridge.Lifecycle
import CodeNav.Channel.Link

/-! # A bridge with its child

A bridge whose child, if it starts at all, serves a given backend. Every call waits until the
start-up is over.
-/

namespace CodeNav

open Channel

structure BridgeHost where
  bridge : Bridge Link := .notStarted
  /-- What the child serves; there is none if it does not start. -/
  child? : Option Backend

namespace BridgeHost

/-- Starts the child if that is yet to be done, and sees the start-up through. -/
def start (state : BridgeHost) : BridgeHost :=
  match state.bridge.enter with
  | (bridge, false) => { state with bridge }
  | (bridge, true) =>
    match state.child? with
    | none => { state with bridge := bridge.fail }
    | some backend =>
      let (bridge, isPublished) := bridge.publish {}
      match bridge, isPublished with
      | .connected link, true => { state with bridge := .connected (link.warmUp backend).1 }
      | bridge, _ => { state with bridge }

def withSession (state : BridgeHost) (run : Link → Backend → Link × Except ErrorChain α) :
    BridgeHost × Except ErrorChain α :=
  let state := state.start
  match state.bridge.session? (·.caller.isClosed), state.child? with
  | some (_, .ok link), some backend =>
    let (link, result) := run link backend
    ({ state with bridge := .connected link }, result)
  | some (bridge, .error cause), _ => ({ state with bridge }, .error (.root cause.message))
  | _, _ => (state, .error (.root BridgeError.unavailable.message))

def search (state : BridgeHost) (query : Query) : BridgeHost × Except ErrorChain (List Symbol) :=
  state.withSession fun link backend => link.search backend query

def warmUp (state : BridgeHost) : BridgeHost × Except ErrorChain Unit :=
  state.withSession fun link backend => link.warmUp backend

def shutDown (state : BridgeHost) : BridgeHost := { state with bridge := state.bridge.shutDown }

/-- The child dies. The bridge notices at its next call. -/
def loseChild (state : BridgeHost) : BridgeHost :=
  match state.bridge with
  | .connected link => { state with bridge := .connected link.lose }
  | _ => state

end BridgeHost

end CodeNav
