import CodeNav.Channel.Caller
import CodeNav.Channel.Server

/-! # Host and child together

The two ends of a channel, with frames that cross it as lines. A call crosses it twice, so its
result is never there at once.
-/

namespace CodeNav.Channel

structure Link where
  caller : Caller := {}
  server : Server := {}
  deriving DecidableEq, Repr

/-- A call on which the child works. -/
structure Link.Call where
  id : Nat
  method : String
  reply : Timed Outcome

namespace Link

/-- The time to cross the channel and to come back. -/
def crossing : Duration := ⟨1⟩

def sent (effects : List Server.Effect) : List Frame :=
  effects.filterMap fun effect =>
    match effect with
    | .send frame => some frame
    | _ => none

def workOf? (id : Nat) (effects : List Server.Effect) : Option Work :=
  effects.findSome? fun effect =>
    match effect with
    | .start _ other work => if other = id then some work else none
    | _ => none

/-- Begins a call to a child that serves the backend, unless the session is closed. -/
def begin? (link : Link) (backend : Backend) (method : String) (params : Json) :
    Link × Option Call :=
  match link.caller.start method params with
  | (caller, none) => ({ link with caller }, none)
  | (caller, some (id, frame)) =>
    let (server, effects) := link.server.receive frame.encode
    let reply := ((workOf? id effects).map (Work.reply backend)).getD .never
    ({ caller, server }, some ⟨id, method, reply⟩)

def complete (link : Link) (call : Call) (outcome : Outcome) : Link × Except CallError Json :=
  let (server, effects) := link.server.finish call.id outcome
  let read (state : Caller × Option Outcome) (frame : Frame) : Caller × Option Outcome :=
    match state.1.receive frame.encode with
    | (caller, some (id, outcome)) =>
      (caller, if id = call.id then some outcome else state.2)
    | (caller, none) => (caller, state.2)
  let (caller, outcome?) := (sent effects).foldl read (link.caller, none)
  ({ caller, server },
    match outcome? with
    | some outcome => Caller.result call.method outcome
    | none => .error (.interrupted call.method))

def giveUp (link : Link) (call : Call) : Link :=
  match link.caller.drop call.id with
  | (caller, some frame) => { caller, server := (link.server.receive frame.encode).1 }
  | (caller, none) => { link with caller }

def lose (link : Link) : Link := { link with caller := link.caller.close.1 }

/-- What a call with a bounded wait comes to: no result if it is given up. -/
def call (link : Link) (backend : Backend) (method : String) (params : Json)
    (timeout? : Option Duration) : Link × Option (Except CallError Json) :=
  match link.begin? backend method params with
  | (link, none) => (link, some (.error .closed))
  | (link, some call) =>
    let inTime (delay : Duration) : Bool :=
      match timeout? with
      | some timeout => decide (delay.nanoseconds + crossing.nanoseconds ≤ timeout.nanoseconds)
      | none => true
    match call.reply with
    | .after delay outcome =>
      if inTime delay then
        let (link, result) := link.complete call outcome
        (link, some result)
      else (link.giveUp call, none)
    | .never => (link.giveUp call, none)

/-- The parameters of a search: the query as the only argument. -/
def searchParams (query : Query) : Json := .array [query.toJson.sorted]

def readSymbols (result : Json) : Except ErrorChain (List Symbol) :=
  match (Json.Decoder.list Symbol.decoder).readValue? result with
  | some symbols => .ok symbols
  | none =>
    .error ((ErrorChain.root "the result is no list of symbols").within
      ("Invalid " ++ searchMethod ++ " result from bridge"))

def timedOut (query : Query) : ErrorChain :=
  .root ("Bridge " ++ searchMethod ++ " call timed out after " ++
    toString query.timeout.milliseconds ++ " ms")

def search (link : Link) (backend : Backend) (query : Query) :
    Link × Except ErrorChain (List Symbol) :=
  match link.call backend searchMethod (searchParams query) (some query.timeout) with
  | (link, some (.ok result)) => (link, readSymbols result)
  | (link, some (.error error)) => (link, .error error.chain)
  | (link, none) => (link, .error (timedOut query))

/-- Warms up over the channel, without a bound on the wait. -/
def warmUp (link : Link) (backend : Backend) : Link × Except ErrorChain Unit :=
  match link.call backend warmUpMethod .null none with
  | (link, some (.ok _)) => (link, .ok ())
  | (link, some (.error error)) => (link, .error error.chain)
  | (link, none) => (link, .error (CallError.interrupted warmUpMethod).chain)

end Link

end CodeNav.Channel
