import CodeNav.ErrorChain

/-! # The life of a bridge

A bridge starts its child on first use and keeps that one session for its whole life. It moves from
not started over starting and connected to terminated, and never back: a bridge that has ended is
not started again.
-/

namespace CodeNav

inductive Bridge (σ : Type) where
  | notStarted
  | starting
  | connected (session : σ)
  | terminated
  deriving DecidableEq, Repr

inductive BridgeStatus where
  | notStarted
  | starting
  | connected
  | terminated
  deriving DecidableEq, Repr

def BridgeStatus.name : BridgeStatus → String
  | notStarted => "not-started"
  | starting => "starting"
  | connected => "connected"
  | terminated => "terminated"

inductive BridgeError where
  | channelClosed
  | unavailable
  deriving DecidableEq, Repr

def BridgeError.message : BridgeError → String
  | channelClosed => "Search bridge channel is closed"
  | unavailable => "Search bridge is not available"

namespace Bridge

variable {σ : Type}

def status : Bridge σ → BridgeStatus
  | notStarted => .notStarted
  | starting => .starting
  | connected _ => .connected
  | terminated => .terminated

/-- A call begins. The first one has the child launched. -/
def enter : Bridge σ → Bridge σ × Bool
  | notStarted => (starting, true)
  | bridge => (bridge, false)

/-- The child is connected. The session is taken up only if the bridge still waits for it. -/
def publish (session : σ) : Bridge σ → Bridge σ × Bool
  | starting => (connected session, true)
  | bridge => (bridge, false)

def fail (_ : Bridge σ) : Bridge σ := terminated

def shutDown (_ : Bridge σ) : Bridge σ := terminated

/-- A session whose channel is closed ends the bridge. -/
def endClosed : Bridge σ → Bridge σ
  | connected _ => terminated
  | bridge => bridge

/-- The session for a call, once the bridge is not starting any more. -/
def session? (isClosed : σ → Bool) : Bridge σ → Option (Bridge σ × Except BridgeError σ)
  | starting => none
  | connected session =>
    if isClosed session then some ((connected session).endClosed, .error .channelClosed)
    else some (connected session, .ok session)
  | bridge => some (bridge, .error .unavailable)

end Bridge

end CodeNav
