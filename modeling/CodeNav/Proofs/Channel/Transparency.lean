import CodeNav.Channel.Link
import CodeNav.Proofs.Channel.Crossing
import CodeNav.Proofs.Channel.Service

/-! # Searches over the channel

A search that crosses the channel comes to the backend as it was asked, up to its timeout, and the
answer of the backend comes back as it was given.
-/

namespace CodeNav.Channel

open Json

variable {link : Link} {backend : Backend} {query : Query} {outcome : Outcome}
  {symbols : List Symbol} {error : ErrorChain} {delay : Duration} {id : Nat}
  {timeout? : Option Duration}

theorem isPlain_ofError (error : ErrorChain) : (Failure.ofError error).IsPlain where
  exact := by
    simp only [Failure.ofError, Failure.internalErrorCode]
    decide
  code := by
    simp only [Failure.ofError, Failure.internalErrorCode, Decoder.IsInt64]
    decide
  data := rfl

theorem isReadBack_search (hid : id < wordLimit) (hmax : query.maxResults < wordLimit) :
    (Frame.request id searchMethod (Link.searchParams query)).IsReadBack := by
  have hfits : Fits (125 + 1) (Link.searchParams query) :=
    .array (by simpa using Query.fits_sorted query 124)
  exact Frame.isReadBack_request hid (.array (by simpa using Query.isExact_sorted hmax)) hfits

theorem isReadBack_symbols (hid : id < wordLimit) (h : ∀ symbol ∈ symbols, symbol.IsWord) :
    (Frame.response (some id) (.ok (Symbol.listToJson symbols).sorted)).IsReadBack :=
  Frame.isReadBack_success hid (Symbol.isExact_sorted_listToJson h)
    (Symbol.fits_sorted_listToJson symbols 124)

theorem ofSearch_of_readValue? {argument : Json}
    (h : Query.decoder.readValue? argument = some query) :
    Work.ofSearch (some (.array [argument])) = .search query := by
  simp only [Work.ofSearch, Work.searchArgument?, h]

theorem ofRequest_search (hmax : query.maxResults < wordLimit) :
    Work.ofRequest searchMethod (some (Link.searchParams query)) = .search query.received :=
  (if_pos rfl).trans (ofSearch_of_readValue? (Query.decoder_sorted hmax 126))

theorem readSymbols_of_readValue? {result : Json}
    (h : (Decoder.list Symbol.decoder).readValue? result = some symbols) :
    Link.readSymbols result = .ok symbols := by
  simp only [Link.readSymbols, h]

theorem readSymbols_sorted (h : ∀ symbol ∈ symbols, symbol.IsWord) :
    Link.readSymbols (Symbol.listToJson symbols).sorted = .ok symbols :=
  readSymbols_of_readValue? (Symbol.list_decoder_sorted h 125)

namespace Link

variable {method : String} {params : Json} {work : Work}

theorem receive_search (hid : id < wordLimit) (hmax : query.maxResults < wordLimit)
    (server : Server) :
    server.receive (Frame.request id searchMethod (searchParams query)).encode =
      server.start id (.search query.received) := by
  have hne : searchMethod ≠ Frame.cancelMethod := by decide
  exact (Server.receive_request hne (isReadBack_search hid hmax)).trans
    (congrArg (server.start id) (ofRequest_search hmax))

def working (link : Link) (work : Work) : Link where
  caller := { link.caller with
    nextId := link.caller.nextId + 1
    pending := link.caller.pending ++ [link.caller.nextId] }
  server := (link.server.start link.caller.nextId work).1

theorem start_of_open (hopen : link.caller.isClosed = false) (work : Work) :
    link.caller.start method params =
      ((link.working work).caller,
        some (link.caller.nextId, .request link.caller.nextId method params)) := by
  simp [Caller.start, hopen, working]

theorem begin?_of_start {frame : Frame}
    (hstart : link.caller.start method params =
      ((link.working work).caller, some (link.caller.nextId, frame)))
    (hreceive : link.server.receive frame.encode = link.server.start link.caller.nextId work)
    (backend : Backend) :
    link.begin? backend method params =
      (link.working work, some ⟨link.caller.nextId, method, work.reply backend⟩) := by
  simp only [begin?, hstart, hreceive]
  simp [working, workOf?, Server.start]

/-- A call that is in work and that waits takes the outcome of its work. -/
theorem complete_of_tracked (link : Link) (call : Call) {task : Nat}
    (htracked : link.server.inFlight.lookup call.id = some task)
    (hpending : call.id ∈ link.caller.pending)
    (hread : (Frame.response (some call.id) outcome).IsReadBack) :
    link.complete call outcome =
      (⟨link.caller.settle call.id, link.server.untrack call.id⟩,
        Caller.result call.method outcome.received) := by
  have hreceive := Caller.receive_response link.caller hread
  rw [if_pos hpending] at hreceive
  simp [complete, Server.finish, htracked, sent, hreceive]

/-- The outcome comes back before the wait for it is over. -/
def InTime (delay : Duration) (timeout? : Option Duration) : Prop :=
  ∀ timeout, timeout? = some timeout →
    delay.nanoseconds + crossing.nanoseconds ≤ timeout.nanoseconds

theorem call_of_receive (hopen : link.caller.isClosed = false)
    (hreceive : link.server.receive (Frame.request link.caller.nextId method params).encode =
      link.server.start link.caller.nextId work)
    (hreply : work.reply backend = .after delay outcome) (htime : InTime delay timeout?)
    (hread : (Frame.response (some link.caller.nextId) outcome).IsReadBack) :
    (link.call backend method params timeout?).2 =
      some (Caller.result method outcome.received) := by
  have htracked := Server.lookup_start_self link.server link.caller.nextId work
  have hpending : link.caller.nextId ∈ (link.working work).caller.pending := by simp [working]
  have hcomplete := complete_of_tracked (link.working work)
    ⟨link.caller.nextId, method, .after delay outcome⟩ htracked hpending hread
  rw [Link.call, begin?_of_start (start_of_open hopen work) hreceive, hreply]
  cases timeout? with
  | none => simp [hcomplete]
  | some timeout => simp [hcomplete, htime timeout rfl]

/-- A search over the link is a search of the backend. -/
structure IsTransparent (link : Link) (backend : Backend) (query : Query) : Prop where
  /-- The frame of the call has the child start one search, and nothing else. -/
  asks : ∃ caller frame,
    link.caller.start searchMethod (searchParams query) =
      (caller, some (link.caller.nextId, frame)) ∧
    (link.server.receive frame.encode).2 =
      [.start link.server.nextTask link.caller.nextId (.search query.received)]
  filter : query.received.filter = query.filter
  maxResults : query.received.maxResults = query.maxResults
  exact : query.received.exact = query.exact
  kind : query.received.kind = query.kind
  answers : ∀ timeout? delay symbols, (∀ symbol ∈ symbols, symbol.IsWord) →
    backend.search query.received = .after delay (.ok symbols) → InTime delay timeout? →
    ∃ result, (link.call backend searchMethod (searchParams query) timeout?).2 = some (.ok result) ∧
      readSymbols result = .ok symbols
  fails : ∀ timeout? delay error, backend.search query.received = .after delay (.error error) →
    InTime delay timeout? →
    (link.call backend searchMethod (searchParams query) timeout?).2 =
      some (.error (.failed searchMethod ⟨-32603, ": ".intercalate error.links, none⟩))
  /-- The same for the whole search, with the timeout of the query. -/
  finds : ∀ delay symbols, (∀ symbol ∈ symbols, symbol.IsWord) →
    backend.search query.received = .after delay (.ok symbols) →
    InTime delay (some query.timeout) → (link.search backend query).2 = .ok symbols

theorem reply_of_ok {backend : Backend} (h : backend.search query = .after delay (.ok symbols)) :
    (Work.search query).reply backend = .after delay (.ok (Symbol.listToJson symbols).sorted) := by
  simp only [Work.reply, h, Timed.map]
  rfl

theorem reply_of_error {backend : Backend}
    (h : backend.search query = .after delay (.error error)) :
    (Work.search query).reply backend = .after delay (.error (.ofError error)) := by
  simp only [Work.reply, h, Timed.map]
  rfl

theorem search_of_call {result : Json}
    (h : (link.call backend searchMethod (searchParams query) (some query.timeout)).2 =
      some (.ok result)) : (link.search backend query).2 = readSymbols result := by
  rw [search]
  split
  · next heq =>
    rw [heq] at h
    obtain rfl := Except.ok.inj (Option.some.inj h)
    rfl
  · next heq => rw [heq] at h; cases h
  · next heq => rw [heq] at h; cases h

theorem call_ok (hopen : link.caller.isClosed = false) (hid : link.caller.nextId < wordLimit)
    (hmax : query.maxResults < wordLimit) (hsymbols : ∀ symbol ∈ symbols, symbol.IsWord)
    (hreply : backend.search query.received = .after delay (.ok symbols))
    (htime : InTime delay timeout?) :
    (link.call backend searchMethod (searchParams query) timeout?).2 =
      some (.ok (Symbol.listToJson symbols).sorted) :=
  call_of_receive hopen (receive_search hid hmax link.server) (reply_of_ok hreply) htime
    (isReadBack_symbols hid hsymbols)

theorem search_isTransparent (hopen : link.caller.isClosed = false)
    (hid : link.caller.nextId < wordLimit) (hmax : query.maxResults < wordLimit)
    (backend : Backend) : IsTransparent link backend query where
  asks := by
    refine ⟨_, _, start_of_open hopen (.search query.received), ?_⟩
    rw [receive_search hid hmax]
    rfl
  filter := rfl
  maxResults := rfl
  exact := rfl
  kind := rfl
  answers timeout? delay symbols hsymbols hreply htime :=
    ⟨_, call_ok hopen hid hmax hsymbols hreply htime, readSymbols_sorted hsymbols⟩
  fails timeout? delay error hreply htime :=
    call_of_receive hopen (receive_search hid hmax link.server) (reply_of_error hreply) htime
      (Frame.isReadBack_failure hid (isPlain_ofError error))
  finds delay symbols hsymbols hreply htime :=
    (search_of_call (call_ok hopen hid hmax hsymbols hreply htime)).trans
      (readSymbols_sorted hsymbols)

def edgeSymbol : Symbol :=
  ⟨"/src/\"é\" 𝒳.cs", 0, wordLimit - 1, wordLimit - 1, 7, "\\\x01\n\t"⟩

def edgeBackend : Backend := ⟨fun _ => .now (.ok [edgeSymbol]), .now (.ok ())⟩

def edgeQuery : Query := ⟨"a\"\u007f", wordLimit - 1, .ofSeconds 1, true, .references⟩

theorem search_isTransparent_edgeSymbol :
    IsTransparent {} edgeBackend edgeQuery ∧
      (({} : Link).search edgeBackend edgeQuery).2 = .ok [edgeSymbol] := by
  have htransparent : IsTransparent {} edgeBackend edgeQuery :=
    search_isTransparent rfl (by decide) (by decide) edgeBackend
  have hword : edgeSymbol.IsWord := by constructor <;> decide
  refine ⟨htransparent, htransparent.finds ⟨0⟩ _ (by simpa using hword) rfl ?_⟩
  rintro _ ⟨⟩
  decide

end Link

end CodeNav.Channel
