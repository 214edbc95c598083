import CodeNav.Proofs.Wire.Encodings
import CodeNav.Rehearsal.Serving

/-! # How a request is handled

A request of a search calls the backend once, if its parameters encode a query; a request to warm up
calls it once, whatever its parameters. All other requests are refused, and no call is made. The
calls are seen by a backend that records them, for which a request is handled as for any other.
-/

namespace CodeNav

/-- A backend whose answers come with effects. -/
structure BackendM (m : Type → Type) where
  search : Query → m (Except ErrorChain (List Symbol))
  warmUp : m (Except ErrorChain Unit)

/-- A timed value, and what a backend noticed until it was there. -/
structure Recorded (α : Type) where
  events : List BackendEvent
  value : Timed α

/-- What comes after a value that is never there is not done. -/
def Recorded.bind {α β : Type} (recorded : Recorded α) (next : α → Recorded β) : Recorded β :=
  match recorded.value with
  | .never => ⟨recorded.events, .never⟩
  | .after delay value =>
    ⟨recorded.events ++ (next value).events,
      match (next value).value with
      | .never => .never
      | .after more result => .after ⟨delay.nanoseconds + more.nanoseconds⟩ result⟩

instance : Monad Recorded where
  pure value := ⟨[], .now value⟩
  bind := Recorded.bind

def Backend.recorded (backend : Backend) : BackendM Recorded where
  search query := ⟨[.search query], backend.search query⟩
  warmUp := ⟨[.warmUp], backend.warmUp⟩

namespace Serving

theorem events_perform (serving : Serving) (effect : Channel.Server.Effect) :
    (serving.perform effect).events = serving.events := by
  cases effect <;> rfl

theorem events_update (serving : Serving) (result : Channel.Server × List Channel.Server.Effect) :
    (serving.update result).events = serving.events := by
  have hfold (effects : List Channel.Server.Effect) (serving : Serving) :
      (effects.foldl perform serving).events = serving.events := by
    induction effects generalizing serving with
    | nil => rfl
    | cons effect effects ih => rw [List.foldl_cons, ih, events_perform]
  exact hfold result.2 _

theorem events_turn_start (serving : Serving) (task id : Nat) (work : Channel.Work) :
    (serving.turn (.start task id work)).events =
      serving.events ++ (event? work).toList := by
  simp only [turn]
  split
  · next event hevent _ => rw [hevent]; rfl
  · next event delay outcome hevent _ =>
    rw [hevent]
    split
    · rw [events_update]; rfl
    · rfl
  · next hnone _ => simp [events_update, hnone]
  · next hnone _ => simp [hnone]

end Serving

namespace Channel

/-- What is reported of a result of the backend. All errors are internal ones. -/
def report {α : Type} (write : α → Json) : Except ErrorChain α → Outcome
  | .ok result => .ok (write result)
  | .error error => .error ⟨-32603, error.text, none⟩

namespace Work

variable {m : Type → Type} [Monad m]

/-- The work, as a program that may call a backend. -/
def perform (backend : BackendM m) : Work → m Outcome
  | search query => do
    let result ← backend.search query
    return report (fun symbols => (Symbol.listToJson symbols).sorted) result
  | warmUp => do
    let result ← backend.warmUp
    return report (fun _ => Json.null) result
  | refused failure => return .error failure

end Work

/-- A request, as a program that may call a backend. -/
def handle {m : Type → Type} [Monad m] (backend : BackendM m) (method : String)
    (params? : Option Json) : m Outcome :=
  (Work.ofRequest method params?).perform backend

/-- The parameters of a search for the query: an object that encodes it, or an array of nothing but
a value that does. -/
inductive Asks (query : Query) : Option Json → Prop where
  | bare {members : List (String × Json)} (h : query.IsEncodedBy (.object members)) :
      Asks query (some (.object members))
  | only {argument : Json} (h : query.IsEncodedBy argument) : Asks query (some (.array [argument]))

/-- A request calls the backend once for a search or for a warm-up, and reports what comes back. Any
other request is refused without a call. -/
structure IsHandled (backend : Backend) (method : String) (params? : Option Json) : Prop where
  /-- The record changes nothing. -/
  reply : (handle backend.recorded method params?).value =
    (Work.ofRequest method params?).reply backend
  searches : ∀ query, (handle backend.recorded method params?).events = [.search query] ↔
    method = "searchCode" ∧ Asks query params?
  warmsUp : (handle backend.recorded method params?).events = [.warmUp] ↔ method = "warmUp"
  refuses : (handle backend.recorded method params?).events = [] ↔
    (method = "searchCode" ∧ ∀ query, ¬ Asks query params?) ∨
      (method ≠ "searchCode" ∧ method ≠ "warmUp")
  once : (handle backend.recorded method params?).events.length ≤ 1
  /-- A rehearsed server makes the same calls when it starts on the request. -/
  rehearsed : ∀ (serving : Serving) task id,
    (serving.turn (.start task id (Work.ofRequest method params?))).events =
      serving.events ++ (handle backend.recorded method params?).events
  found : ∀ query, method = "searchCode" → Asks query params? →
    (handle backend.recorded method params?).value =
      (backend.search query).map (report fun symbols => (Symbol.listToJson symbols).sorted)
  warm : method = "warmUp" →
    (handle backend.recorded method params?).value = backend.warmUp.map (report fun _ => .null)
  invalid : method = "searchCode" → (∀ query, ¬ Asks query params?) → ∃ message,
    (handle backend.recorded method params?).value = .now (.error ⟨-32602, message, none⟩)
  unknown : method ≠ "searchCode" → method ≠ "warmUp" →
    (handle backend.recorded method params?).value =
      .now (.error ⟨-32601, "Unknown method: " ++ method, none⟩)
  /-- An object may stand for itself or in an array. -/
  bare : ∀ members, params? = some (.object members) →
    handle backend.recorded method params? =
      handle backend.recorded method (some (.array [.object members]))

namespace Work

variable {query : Query} {method : String} {params? : Option Json}

theorem report_eq {α : Type} (write : α → Json) :
    (fun result : Except ErrorChain α => (result.mapError Failure.ofError).map write) =
      report write := by
  funext result
  cases result <;> rfl

theorem bind_report {α : Type} (event : BackendEvent) (reply : Reply α) (write : α → Json) :
    (Recorded.bind ⟨[event], reply⟩ fun result => pure (report write result)) =
      ⟨[event], reply.map (report write)⟩ := by
  cases reply <;> rfl

theorem perform_eq (backend : Backend) (work : Work) :
    work.perform backend.recorded = ⟨(Serving.event? work).toList, work.reply backend⟩ := by
  cases work with
  | search query =>
    rw [reply, report_eq]
    exact bind_report (.search query) (backend.search query) _
  | warmUp =>
    rw [reply, report_eq]
    exact bind_report .warmUp backend.warmUp _
  | refused => rfl

theorem searchArgument?_eq_some_iff {argument : Json} :
    searchArgument? params? = some argument ↔
      params? = some (.array [argument]) ∨
        ∃ members, params? = some (.object members) ∧ argument = .object members := by
  unfold searchArgument?
  split
  · simp [eq_comm]
  · simp [eq_comm]
  · next harray hobject =>
    constructor
    · intro h
      cases h
    · rintro (h | ⟨members, h, -⟩)
      · exact absurd h (harray argument)
      · exact absurd h (hobject members)

theorem asks_iff :
    Asks query params? ↔ ∃ argument, searchArgument? params? = some argument ∧
      Query.decoder.readValue? argument = some query := by
  simp only [searchArgument?_eq_some_iff, Query.readValue?_eq_some_iff]
  constructor
  · rintro (h | h)
    · exact ⟨_, .inr ⟨_, rfl, rfl⟩, h⟩
    · exact ⟨_, .inl rfl, h⟩
  · rintro ⟨argument, rfl | ⟨members, rfl, rfl⟩, h⟩
    · exact .only h
    · exact .bare h

theorem ofSearch_eq_search_iff : ofSearch params? = search query ↔ Asks query params? := by
  rw [asks_iff]
  unfold ofSearch
  split
  · next hnone => simp [hnone]
  · next argument hargument =>
    cases hread : Query.decoder.readValue? argument <;> simp [hargument, hread]

theorem ofSearch_eq_refused (h : ∀ query, ¬ Asks query params?) :
    ∃ message, ofSearch params? = refused ⟨-32602, message, none⟩ := by
  simp only [asks_iff] at h
  unfold ofSearch
  split
  · exact ⟨_, rfl⟩
  · next argument hargument =>
    cases hread : Query.decoder.readValue? argument with
    | none => exact ⟨_, rfl⟩
    | some query => exact absurd ⟨argument, hargument, hread⟩ (h query)

theorem ofRequest_eq_search_iff :
    ofRequest method params? = search query ↔ method = "searchCode" ∧ Asks query params? := by
  rw [← ofSearch_eq_search_iff]
  unfold ofRequest searchMethod
  split
  · next hsearch => simp [hsearch]
  · next hsearch => split <;> simp [hsearch]

theorem ofRequest_eq_warmUp_iff : ofRequest method params? = warmUp ↔ method = "warmUp" := by
  unfold ofRequest searchMethod warmUpMethod
  split
  · next hsearch =>
    have hne : ofSearch params? ≠ warmUp := by
      unfold ofSearch
      split
      · simp
      · split <;> simp
    simp [hsearch, hne]
  · next hsearch => split <;> simp [*]

end Work

variable {backend : Backend} {query : Query} {method : String} {params? : Option Json}

theorem handle_eq (backend : Backend) (method : String) (params? : Option Json) :
    handle backend.recorded method params? =
      ⟨(Serving.event? (Work.ofRequest method params?)).toList,
        (Work.ofRequest method params?).reply backend⟩ :=
  Work.perform_eq backend _

theorem handle_search (h : Asks query params?) :
    handle backend.recorded "searchCode" params? = ⟨[.search query],
      (backend.search query).map (report fun symbols => (Symbol.listToJson symbols).sorted)⟩ := by
  have hwork : Work.ofRequest "searchCode" params? = .search query :=
    Work.ofSearch_eq_search_iff.mpr h
  rw [handle_eq, hwork, Work.reply, Work.report_eq]
  rfl

theorem exists_handle_search (h : ∀ query, ¬ Asks query params?) :
    ∃ message, handle backend.recorded "searchCode" params? =
      ⟨[], .now (.error ⟨-32602, message, none⟩)⟩ := by
  obtain ⟨message, hrefused⟩ := Work.ofSearch_eq_refused h
  have hwork : Work.ofRequest "searchCode" params? = .refused ⟨-32602, message, none⟩ := hrefused
  exact ⟨message, by rw [handle_eq, hwork]; rfl⟩

theorem handle_warmUp (backend : Backend) (params? : Option Json) :
    handle backend.recorded "warmUp" params? =
      ⟨[.warmUp], backend.warmUp.map (report fun _ => .null)⟩ := by
  have hwork : Work.ofRequest "warmUp" params? = .warmUp := rfl
  rw [handle_eq, hwork, Work.reply, Work.report_eq]
  rfl

theorem handle_unknown (hsearch : method ≠ "searchCode") (hwarmUp : method ≠ "warmUp") :
    handle backend.recorded method params? =
      ⟨[], .now (.error ⟨-32601, "Unknown method: " ++ method, none⟩)⟩ := by
  have hwork : Work.ofRequest method params? =
      .refused ⟨-32601, "Unknown method: " ++ method, none⟩ :=
    (if_neg hsearch).trans (if_neg hwarmUp)
  rw [handle_eq, hwork]
  rfl

theorem handle_bare (members : List (String × Json)) :
    handle backend.recorded method (some (.object members)) =
      handle backend.recorded method (some (.array [.object members])) :=
  rfl

/-- Every request is handled so, whatever it holds. -/
theorem isHandled (backend : Backend) (method : String) (params? : Option Json) :
    IsHandled backend method params? where
  reply := by rw [handle_eq]
  searches query := by
    rw [← Work.ofRequest_eq_search_iff, handle_eq]
    cases Work.ofRequest method params? <;> simp [Serving.event?]
  warmsUp := by
    rw [← Work.ofRequest_eq_warmUp_iff, handle_eq]
    cases Work.ofRequest method params? <;> simp [Serving.event?]
  refuses := by
    have hevents : (handle backend.recorded method params?).events = [] ↔
        (∀ query, Work.ofRequest method params? ≠ .search query) ∧
          Work.ofRequest method params? ≠ .warmUp := by
      rw [handle_eq]
      cases Work.ofRequest method params? <;> simp [Serving.event?]
    rw [hevents]
    simp only [ne_eq, Work.ofRequest_eq_search_iff, Work.ofRequest_eq_warmUp_iff, not_and]
    by_cases hsearch : method = "searchCode"
    · simp [hsearch]
    · simp [hsearch]
  once := by
    rw [handle_eq]
    exact Option.length_toList_le
  rehearsed serving task id := by rw [Serving.events_turn_start, handle_eq]
  found query hmethod hasks := by rw [hmethod, handle_search hasks]
  warm hmethod := by rw [hmethod, handle_warmUp]
  invalid hmethod hasks := by
    obtain ⟨message, hhandle⟩ := exists_handle_search hasks
    exact ⟨message, by rw [hmethod, hhandle]⟩
  unknown hsearch hwarmUp := by rw [handle_unknown hsearch hwarmUp]
  bare members hparams := by rw [hparams, handle_bare]

end Channel

end CodeNav
