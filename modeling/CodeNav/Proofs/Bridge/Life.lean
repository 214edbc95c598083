import CodeNav.Bridge.Lifecycle
import CodeNav.Channel.Link
import CodeNav.Proofs.Channel.Conversation

/-! # A bridge among its calls

Searches and warm-ups of one bridge run at once with the start-ups that they launched, with the
sessions that came of these, and with a shutdown that may come at any time. Between two looks at the
state of the bridge everything else goes on. A call is over for the bridge when it failed, was given
up, or was handed to a session.
-/

namespace CodeNav

open Channel Relation

namespace Bridge

inductive Request where
  | search (query : Query)
  | warmUp

def Request.method : Request → String
  | search _ => searchMethod
  | warmUp => warmUpMethod

def Request.params : Request → Json
  | search query => Link.searchParams query
  | warmUp => .null

/-- Where a call stands: it is about to launch the child, waits for the end of the start-up, or has
the session at hand that it found. -/
inductive Stage where
  | launching
  | waiting
  | checking (session : Nat)
  | ending (session : Nat)
  | calling (session : Nat)

def Stage.session? : Stage → Option Nat
  | launching => none
  | waiting => none
  | checking session => some session
  | ending session => some session
  | calling session => some session

structure Running where
  request : Request
  stage : Stage

/-- A start-up that came to its end has yet to tell the bridge. -/
inductive StartUp where
  | running
  | succeeded
  | failed
  | over
  deriving DecidableEq

inductive Deed where
  /-- The call looked at the bridge for the first time. -/
  | began (status : BridgeStatus)
  | launched (startUp : Nat)
  /-- The call went to the session, under an identifier of the channel. -/
  | handed (session id : Nat)
  | failed (cause : BridgeError)
  | dropped
  deriving DecidableEq

inductive Event where
  | call (n : Nat) (deed : Deed)
  | published (session : Nat)
  /-- The warm-up of the bridge itself went to the session. -/
  | warmedUp (session : Nat)
  deriving DecidableEq

/-- A bridge with what goes on around it. Start-ups are counted, and a session has the number of its
start-up. The log has the latest event first. -/
structure Life where
  bridge : Bridge Nat := .notStarted
  launches : Nat := 0
  startUps : Nat → Option StartUp := fun _ => none
  sessions : Nat → Option Conversation := fun _ => none
  /-- The sessions that the bridge has yet to warm up. -/
  warmUps : List Nat := []
  calls : Nat → Option Running := fun _ => none
  log : List Event := []

namespace Life

variable {s : Life} {n m k : Nat} {request : Request} {running? : Option Running}
  {deeds : List Deed} {log : List Event}

def trace (n : Nat) (log : List Event) : List Deed :=
  log.filterMap fun event =>
    match event with
    | .call m deed => if m = n then some deed else none
    | _ => none

def put (s : Life) (n : Nat) (running? : Option Running) (deeds : List Deed) : Life :=
  { s with
    calls := Function.update s.calls n running?
    log := deeds.map (.call n) ++ s.log }

/-- A call looks at the bridge. The first one is to launch the child. -/
def begin (s : Life) (n : Nat) (request : Request) : Life :=
  let (bridge, isFirst) := s.bridge.enter
  { s with bridge }.put n (some ⟨request, if isFirst then .launching else .waiting⟩)
    [.began s.bridge.status]

def launch (s : Life) (n : Nat) (request : Request) : Life :=
  { s with
    launches := s.launches + 1
    startUps := Function.update s.startUps s.launches (some .running) }.put n
      (some ⟨request, .waiting⟩) [.launched s.launches]

def publish (s : Life) (k : Nat) : Life :=
  let s := { s with startUps := Function.update s.startUps k (some .over) }
  match s.bridge.publish k with
  | (bridge, true) =>
    { s with bridge, warmUps := k :: s.warmUps, log := .published k :: s.log }
  | (bridge, false) => { s with bridge }

/-- The bridge ends because the channel of the session is closed, unless it has another one. -/
def endClosed (s : Life) (k : Nat) : Life :=
  { s with bridge := if s.bridge = .connected k then s.bridge.endClosed else s.bridge }

inductive Step (s : Life) : Life → Prop where
  | begin (n : Nat) (request : Request) (h : trace n s.log = []) : Step s (s.begin n request)
  | launch {n : Nat} {request : Request} (hcall : s.calls n = some ⟨request, .launching⟩) :
      Step s (s.launch n request)
  | connect {k : Nat} (h : s.startUps k = some .running) :
      Step s
        { s with
          startUps := Function.update s.startUps k (some .succeeded)
          sessions := Function.update s.sessions k (some {}) }
  | breakDown {k : Nat} (h : s.startUps k = some .running) :
      Step s { s with startUps := Function.update s.startUps k (some .failed) }
  | publish {k : Nat} (h : s.startUps k = some .succeeded) : Step s (s.publish k)
  | fail {k : Nat} (h : s.startUps k = some .failed) :
      Step s
        { s with
          startUps := Function.update s.startUps k (some .over)
          bridge := s.bridge.fail }
  | warmUp {k : Nat} {session : Conversation} (h : k ∈ s.warmUps)
      (hsession : s.sessions k = some session) :
      Step s
        { s with
          warmUps := s.warmUps.erase k
          sessions := Function.update s.sessions k (some (session.call warmUpMethod .null))
          log := .warmedUp k :: s.log }
  | find {n k : Nat} {request : Request} (hcall : s.calls n = some ⟨request, .waiting⟩)
      (h : s.bridge = .connected k) : Step s (s.put n (some ⟨request, .checking k⟩) [])
  | refuse {n : Nat} {request : Request} (hcall : s.calls n = some ⟨request, .waiting⟩)
      (h : s.bridge = .notStarted ∨ s.bridge = .terminated) :
      Step s (s.put n none [.failed .unavailable])
  | drop {n : Nat} {request : Request} (hcall : s.calls n = some ⟨request, .waiting⟩) :
      Step s (s.put n none [.dropped])
  | findOpen {n k : Nat} {request : Request} {session : Conversation}
      (hcall : s.calls n = some ⟨request, .checking k⟩) (hsession : s.sessions k = some session)
      (h : session.caller.isClosed = false) : Step s (s.put n (some ⟨request, .calling k⟩) [])
  | findClosed {n k : Nat} {request : Request} {session : Conversation}
      (hcall : s.calls n = some ⟨request, .checking k⟩) (hsession : s.sessions k = some session)
      (h : session.caller.isClosed = true) : Step s (s.put n (some ⟨request, .ending k⟩) [])
  | endClosed {n k : Nat} {request : Request} (hcall : s.calls n = some ⟨request, .ending k⟩) :
      Step s ((s.endClosed k).put n none [.failed .channelClosed])
  | hand {n k : Nat} {request : Request} {session : Conversation}
      (hcall : s.calls n = some ⟨request, .calling k⟩) (hsession : s.sessions k = some session) :
      Step s
        ({ s with
            sessions := Function.update s.sessions k
              (some (session.call request.method request.params)) }.put n none
          [.handed k session.caller.nextId])
  | shutDown : Step s { s with bridge := s.bridge.shutDown }
  /-- Lines are read, calls end and are dropped, or the channel is lost. -/
  | progress {k : Nat} {session session' : Conversation} (hsession : s.sessions k = some session)
      (h : session.Progress session') :
      Step s { s with sessions := Function.update s.sessions k (some session') }

def Reachable (s : Life) : Prop := ReflTransGen Step {} s

@[simp] theorem calls_put_self : (s.put n running? deeds).calls n = running? :=
  Function.update_self ..

theorem calls_put_of_ne (h : m ≠ n) : (s.put n running? deeds).calls m = s.calls m :=
  Function.update_of_ne h ..

theorem trace_append (n : Nat) (later log : List Event) :
    trace n (later ++ log) = trace n later ++ trace n log :=
  List.filterMap_append

theorem trace_map_self (n : Nat) (deeds : List Deed) : trace n (deeds.map (.call n)) = deeds := by
  simp only [trace, List.filterMap_map, Function.comp_def, if_true, List.filterMap_some]

theorem trace_map_of_ne (h : m ≠ n) (deeds : List Deed) : trace n (deeds.map (.call m)) = [] := by
  simp [trace, h]

theorem trace_put_self : trace n (s.put n running? deeds).log = deeds ++ trace n s.log := by
  rw [put, trace_append, trace_map_self]

theorem trace_put_of_ne (h : m ≠ n) : trace m (s.put n running? deeds).log = trace m s.log := by
  rw [put, trace_append, trace_map_of_ne h.symm, List.nil_append]

theorem published_mem_put_iff :
    .published k ∈ (s.put n running? deeds).log ↔ .published k ∈ s.log := by
  simp [put]

theorem begin_of_notStarted (h : s.bridge = .notStarted) (n : Nat) (request : Request) :
    s.begin n request =
      { s with bridge := .starting }.put n (some ⟨request, .launching⟩) [.began .notStarted] := by
  simp only [begin, enter, h, status, if_true]

theorem begin_of_ne (h : s.bridge ≠ .notStarted) (n : Nat) (request : Request) :
    s.begin n request = s.put n (some ⟨request, .waiting⟩) [.began s.bridge.status] := by
  have henter : s.bridge.enter = (s.bridge, false) := by
    cases hbridge : s.bridge with
    | notStarted => exact absurd hbridge h
    | _ => rfl
  simp only [begin, henter, Bool.false_eq_true, if_false]

theorem publish_of_starting (h : s.bridge = .starting) (k : Nat) :
    s.publish k =
      { s with
        startUps := Function.update s.startUps k (some .over)
        bridge := .connected k
        warmUps := k :: s.warmUps
        log := .published k :: s.log } := by
  simp only [publish, Bridge.publish, h]

theorem publish_of_ne (h : s.bridge ≠ .starting) (k : Nat) :
    s.publish k = { s with startUps := Function.update s.startUps k (some .over) } := by
  have hpublish : s.bridge.publish k = (s.bridge, false) := by
    cases hbridge : s.bridge with
    | starting => exact absurd hbridge h
    | _ => rfl
  simp only [publish, hpublish]

end Life

end Bridge

end CodeNav
