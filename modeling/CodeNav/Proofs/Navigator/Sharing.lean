import Mathlib
import CodeNav.Navigator
import CodeNav.Proofs.Client.Basic
import CodeNav.Proofs.Identifier
import CodeNav.Proofs.Query

/-! # Calls that share a cache

The calls of a navigator share the cache of its client. A call for the symbols of some filter shows
what it would show with an empty cache, but for the number of files: the list of an earlier call for
the same filter stands until it expires, however many files the later call asks for.
-/

namespace CodeNav

namespace Client

variable {client : Client} {backend : Backend} {asked answered now : Instant} {query : Query}
  {ttl : Duration} {ending : Ending} {key : String} {entry : Cache.Entry (List Symbol)}

/-- The client after a query. Where the clock ends before the list expires, nothing is stored. -/
def next (client : Client) (backend : Backend) (asked answered : Instant) (query : Query) :
    Client :=
  match client.ask backend asked answered query with
  | .ok answer => answer.client
  | .error _ => (client.lookUp asked query).2

theorem next_eq {answer : Answer (List Symbol)}
    (h : client.ask backend asked answered query = .ok answer) :
    client.next backend asked answered query = answer.client := by
  rw [next, h]

theorem ttl_lookUp : (client.lookUp asked query).2.ttl = client.ttl := rfl

theorem mem_of_mem_lookUp {item : String × Cache.Entry (List Symbol)}
    (h : item ∈ (client.lookUp asked query).2.cache.entries) : item ∈ client.cache.entries := by
  rcases hlook : client.lookUp asked query with ⟨_ | symbols, looked⟩
  · rw [hlook] at h
    rcases lookUp_eq_none_iff.mp hlook with ⟨-, rfl⟩ | ⟨-, rfl⟩
    · exact Cache.mem_of_mem_evict h
    · exact h
  · rw [hlook] at h
    obtain ⟨-, rfl⟩ := lookUp_eq_some_iff.mp hlook
    exact h

theorem ttl_settle {symbols : List Symbol} {settled : Client}
    (h : client.settle now query ending = .ok (symbols, settled)) : settled.ttl = client.ttl := by
  rcases settle_eq_ok_iff.mp h with ⟨_, -, -, rfl⟩ | ⟨-, -, rfl⟩
  · rfl
  · rfl

theorem ttl_next : (client.next backend asked answered query).ttl = client.ttl := by
  rw [next]
  split
  · rename_i answer hask
    rcases ask_eq_ok_iff.mp hask with
      ⟨symbols, looked, hlook, rfl⟩ | ⟨looked, symbols, settled, hlook, hsettle, rfl⟩
    · obtain ⟨-, rfl⟩ := lookUp_eq_some_iff.mp hlook
      rfl
    · have hlooked : looked = (client.lookUp asked query).2 := by rw [hlook]
      rw [ttl_settle hsettle, hlooked, ttl_lookUp]
  · exact ttl_lookUp

theorem mem_next (h : (key, entry) ∈ (client.next backend asked answered query).cache.entries) :
    (key, entry) ∈ client.cache.entries ∨
      key = query.cacheKey ∧
        Ending.ofReply (backend.search query) query.timeout = .found entry.value ∧
          answered.add client.ttl = .ok entry.expiry := by
  rw [next] at h
  split at h
  · rename_i answer hask
    rcases ask_eq_ok_iff.mp hask with
      ⟨symbols, looked, hlook, rfl⟩ | ⟨looked, symbols, settled, hlook, hsettle, rfl⟩
    · obtain ⟨-, rfl⟩ := lookUp_eq_some_iff.mp hlook
      exact .inl h
    · obtain rfl : looked = (client.lookUp asked query).2 := by rw [hlook]
      rcases settle_eq_ok_iff.mp hsettle with ⟨cache, hfound, hset, rfl⟩ | ⟨-, -, rfl⟩
      · obtain ⟨expiry, hadd, rfl⟩ := Cache.set_eq_ok_iff.mp hset
        rcases Cache.mem_insert.mp h with heq | ⟨hmem, -⟩
        · obtain ⟨rfl, rfl⟩ := Prod.mk.inj heq
          exact .inr ⟨rfl, hfound, hadd⟩
        · exact .inl (mem_of_mem_lookUp hmem)
      · exact .inl (mem_of_mem_lookUp h)
  · exact .inl (mem_of_mem_lookUp h)

def listed (ttl : Duration) (answered : Instant) : Ending → Except ClockError (List Symbol)
  | .found symbols => (answered.add ttl).map fun _ => symbols
  | .failed _ | .timedOut => .ok []

theorem map_fst_settle (client : Client) (now : Instant) (query : Query) (ending : Ending) :
    (client.settle now query ending).map Prod.fst = listed client.ttl now ending := by
  cases ending with
  | failed error => rfl
  | timedOut => rfl
  | found symbols =>
    rw [settle, listed, Cache.set]
    cases now.add client.ttl with
    | error cause => rfl
    | ok expiry => rfl

theorem map_value_ask_of_lookUp (h : (client.lookUp asked query).1 = none) :
    (client.ask backend asked answered query).map (·.value) =
      listed client.ttl answered (.ofReply (backend.search query) query.timeout) := by
  rcases hlook : client.lookUp asked query with ⟨symbols?, looked⟩
  obtain rfl : symbols? = none := by rw [← h, hlook]
  have hlooked : looked.ttl = client.ttl := (congrArg (·.2.ttl) hlook).symm
  rw [← hlooked, ← map_fst_settle looked answered query]
  simp only [ask, hlook]
  cases looked.settle answered query (.ofReply (backend.search query) query.timeout) with
  | error cause => rfl
  | ok settled => rfl

theorem map_value_ask_ofTtl :
    ((ofTtl ttl).ask backend asked answered query).map (·.value) =
      listed ttl answered (.ofReply (backend.search query) query.timeout) :=
  map_value_ask_of_lookUp rfl

/-- A query is served what the cache holds for its key, or answered as with an empty cache. -/
theorem ask_cases (client : Client) (backend : Backend) (asked answered : Instant)
    (query : Query) :
    (∃ entry, (query.cacheKey, entry) ∈ client.cache.entries ∧ asked < entry.expiry ∧
        (client.ask backend asked answered query).map (·.value) = .ok entry.value) ∨
      (client.ask backend asked answered query).map (·.value) =
        ((ofTtl client.ttl).ask backend asked answered query).map (·.value) := by
  rcases hlook : client.lookUp asked query with ⟨_ | symbols, looked⟩
  · right
    rw [map_value_ask_of_lookUp (by rw [hlook]), map_value_ask_ofTtl]
  · left
    obtain ⟨hhit, rfl⟩ := lookUp_eq_some_iff.mp hlook
    obtain ⟨entry, hentry, hfresh, rfl⟩ := Cache.look_eq_hit_iff.mp hhit
    exact ⟨entry, Cache.mem_of_entry?_eq_some hentry, hfresh, by rw [ask, hlook]; rfl⟩

end Client

namespace Navigator

inductive Call where
  | definition (tree : FileTree) (path : String) (line column : Nat)
  | references (name : List Char) (workspace : List Symbol)
  | symbols (filter : List Char) (maxItems minLength : Nat) (workspace : List Symbol)

def Call.query? (navigator : Navigator) : Call → Option Query
  | definition tree path line column =>
    match Checkout.wordAt tree path line column with
    | .ok (some word) => some (navigator.definitionQuery word)
    | .ok none | .error _ => none
  | references name _ => navigator.referencesQuery? name
  | symbols filter maxItems minLength _ => navigator.symbolsQuery? filter maxItems minLength

/-- A call with the readings of the clock at its lookup and after its search. -/
structure Visit where
  call : Call
  asked : Instant
  answered : Instant

def visit (navigator : Navigator) (backend : Backend) (visit : Visit) : Navigator :=
  match visit.call.query? navigator with
  | none => navigator
  | some query =>
    { navigator with client := navigator.client.next backend visit.asked visit.answered query }

/-- The navigator after some calls, the earliest one first. -/
def after (navigator : Navigator) (backend : Backend) (past : List Visit) : Navigator :=
  past.foldl (·.visit backend ·) navigator

def fresh (ttl timeout : Duration) : Navigator := ⟨.ofTtl ttl, timeout⟩

/-- What a call for symbols shows. -/
def shown (navigator : Navigator) (backend : Backend) (now : Instant) (filter : List Char)
    (maxItems minLength : Nat) (workspace : List Symbol) : Except ClockError (List Symbol) :=
  (navigator.symbols backend now filter maxItems minLength workspace).map (·.value)

variable {navigator : Navigator} {backend : Backend} {ttl timeout : Duration} {now time : Instant}
  {past : List Visit} {filter name : List Char} {maxItems shownItems minLength : Nat}
  {workspace : List Symbol} {query : Query} {call : Call}

/-- The calls of the program are visits at which the clock stands still. -/
theorem client_definition {tree : FileTree} {path : String} {line column : Nat}
    {answer : Client.Answer (Option Symbol)}
    (h : navigator.definition backend now tree path line column = .ok answer) :
    (navigator.visit backend ⟨.definition tree path line column, now, now⟩).client =
      answer.client := by
  rw [definition] at h
  rw [visit, Call.query?]
  rcases hword : Checkout.wordAt tree path line column with cause | _ | word
  · rw [hword] at h
    cases h
  · rw [hword] at h
    cases h
    rfl
  · rw [hword] at h
    cases hask : navigator.client.ask backend now now (navigator.definitionQuery word) with
    | error cause => simp [ask, hask] at h
    | ok found =>
      simp only [ask, hask, Except.ok.injEq] at h
      simp only [Client.next_eq hask, ← h]

theorem next_eq_of_bind {present : List Symbol → List Symbol}
    {answer : Client.Answer (List Symbol)}
    (h : (navigator.ask backend now query >>= fun found =>
      pure { found with value := present found.value }) = .ok answer) :
    navigator.client.next backend now now query = answer.client := by
  cases hask : navigator.client.ask backend now now query with
  | error cause => simp [ask, hask, bind, Except.bind] at h
  | ok found =>
    simp only [ask, hask, bind, Except.bind, pure, Except.pure, Except.ok.injEq] at h
    rw [Client.next_eq hask, ← h]

theorem client_references {answer : Client.Answer (List Symbol)}
    (h : navigator.references backend now name workspace = .ok answer) :
    (navigator.visit backend ⟨.references name workspace, now, now⟩).client = answer.client := by
  rw [references] at h
  rw [visit, Call.query?]
  cases hquery : navigator.referencesQuery? name with
  | none =>
    rw [hquery] at h
    cases h
    rfl
  | some query =>
    rw [hquery] at h
    exact next_eq_of_bind h

theorem client_symbols {answer : Client.Answer (List Symbol)}
    (h : navigator.symbols backend now filter maxItems minLength workspace = .ok answer) :
    (navigator.visit backend ⟨.symbols filter maxItems minLength workspace, now, now⟩).client =
      answer.client := by
  rw [symbols] at h
  rw [visit, Call.query?]
  cases hquery : navigator.symbolsQuery? filter maxItems minLength with
  | none =>
    rw [hquery] at h
    cases h
    rfl
  | some query =>
    rw [hquery] at h
    exact next_eq_of_bind h

theorem query?_eq_of_timeout (call : Call) {other : Navigator}
    (h : navigator.timeout = other.timeout) :
    call.query? navigator = call.query? other := by
  cases call with
  | definition => simp only [Call.query?, definitionQuery, h]
  | references => simp only [Call.query?, referencesQuery?, h]
  | symbols => simp only [Call.query?, symbolsQuery?, h]

/-- The call found the list of a cache entry, which expires when its time is over. -/
structure Visit.Stores (backend : Backend) (ttl timeout : Duration) (visit : Visit) (query : Query)
    (entry : Cache.Entry (List Symbol)) : Prop where
  query_eq : visit.call.query? (fresh ttl timeout) = some query
  found : Client.Ending.ofReply (backend.search query) query.timeout = .found entry.value
  expires : visit.answered.add ttl = .ok entry.expiry

structure IsSourced (backend : Backend) (ttl timeout : Duration) (past : List Visit)
    (navigator : Navigator) : Prop where
  ttl_eq : navigator.client.ttl = ttl
  timeout_eq : navigator.timeout = timeout
  sourced : ∀ key entry, (key, entry) ∈ navigator.client.cache.entries →
    ∃ visit ∈ past, ∃ query, query.cacheKey = key ∧ visit.Stores backend ttl timeout query entry

theorem isSourced_fresh : IsSourced backend ttl timeout [] (fresh ttl timeout) where
  ttl_eq := rfl
  timeout_eq := rfl
  sourced := by simp [fresh, Client.ofTtl, Cache.empty]

theorem IsSourced.visit (h : IsSourced backend ttl timeout past navigator) (visit : Visit) :
    IsSourced backend ttl timeout (past ++ [visit]) (navigator.visit backend visit) := by
  have hold : ∀ key entry, (key, entry) ∈ navigator.client.cache.entries →
      ∃ earlier ∈ past ++ [visit], ∃ query, query.cacheKey = key ∧
        earlier.Stores backend ttl timeout query entry := by
    intro key entry hmem
    obtain ⟨earlier, hearlier, hstores⟩ := h.sourced key entry hmem
    exact ⟨earlier, List.mem_append_left _ hearlier, hstores⟩
  have hsame : visit.call.query? navigator = visit.call.query? (fresh ttl timeout) :=
    query?_eq_of_timeout visit.call h.timeout_eq
  rw [Navigator.visit, hsame]
  cases hquery : visit.call.query? (fresh ttl timeout) with
  | none => exact ⟨h.ttl_eq, h.timeout_eq, hold⟩
  | some query =>
    refine ⟨Client.ttl_next.trans h.ttl_eq, h.timeout_eq, ?_⟩
    intro key entry hmem
    rcases Client.mem_next hmem with hmem | ⟨rfl, hfound, hadd⟩
    · exact hold key entry hmem
    · rw [h.ttl_eq] at hadd
      exact ⟨visit, by simp, query, rfl, hquery, hfound, hadd⟩

theorem isSourced_after (backend : Backend) (ttl timeout : Duration) (past : List Visit) :
    IsSourced backend ttl timeout past ((fresh ttl timeout).after backend past) := by
  induction past using List.reverseRecOn with
  | nil => exact isSourced_fresh
  | append_singleton past visit ih =>
    rw [after, List.foldl_append]
    exact ih.visit visit

/-- The call asks for the references to a name that writes out the key for the symbols of a
filter. -/
def Call.Mimics (filter : List Char) (call : Call) : Prop :=
  ∃ name workspace, call = .references name workspace ∧
    Text.trim name = "def:".toList ++ filter ++ ['*']

def symbolsQuery (timeout : Duration) (filter : List Char) (maxItems : Nat) : Query :=
  .capped (String.ofList filter) (min maxItems Query.maxFiles) timeout false .definitions

theorem symbolsQuery?_eq (navigator : Navigator) (filter : List Char) (maxItems minLength : Nat) :
    navigator.symbolsQuery? filter maxItems minLength =
      if filter.length = 0 ∨ filter.length < minLength then none
      else some (symbolsQuery navigator.timeout filter maxItems) := rfl

/-- A query with the key for the symbols of a filter is one for these symbols, or its own filter
writes out a part of the key. -/
theorem filter_cases (h : query.cacheKey = (symbolsQuery timeout filter maxItems).cacheKey) :
    query.kind = .definitions ∧ query.exact = false ∧ query.filter.toList = filter ∨
      query.kind = .definitions ∧ query.exact = true ∧ query.filter.toList = filter ++ ['*'] ∨
      query.kind = .references ∧ query.exact = false ∧
        query.filter.toList = "def:".toList ++ filter ∨
      query.kind = .references ∧ query.exact = true ∧
        query.filter.toList = "def:".toList ++ filter ++ ['*'] := by
  rcases Query.cacheKey_eq_iff.mp h with hsame | hmimics | hmimics
  · refine .inl ⟨hsame.kind, hsame.exact, ?_⟩
    rw [hsame.filter]
    exact String.toList_ofList
  · cases hmimics with
    | star hkind hq _ hfilter =>
      refine .inr (.inl ⟨hkind, hq, ?_⟩)
      simp [hfilter, symbolsQuery, Query.capped]
    | qualifier hq _ hexact hfilter =>
      refine .inr (.inr (.inl ⟨hq, hexact, ?_⟩))
      simp [hfilter, symbolsQuery, Query.capped]
    | both hq _ hfilter =>
      refine .inr (.inr (.inr ⟨hq.1, hq.2, ?_⟩))
      simp [hfilter, symbolsQuery, Query.capped]
    | crossed _ _ hr => cases hr.2
  · -- The query for the symbols has the qualifier and the star itself, so it mimics none.
    cases hmimics with
    | star _ hq => cases hq
    | qualifier hq => cases hq
    | both hq => cases hq.1
    | crossed _ hq => cases hq.1

theorem isLetterOrDigit_of_wordAt {tree : FileTree} {path : String} {line column : Nat}
    {word : List Char} {c : Char} (h : Checkout.wordAt tree path line column = .ok (some word))
    (hc : c ∈ word) : Text.isLetterOrDigit c := by
  rw [Checkout.wordAt] at h
  split at h
  · exact isLetterOrDigit_of_mem_identifierIn? (Except.ok.inj h) hc
  · cases h

/-- Only calls for the symbols of one filter share a key, unless a name mimics it. -/
theorem exists_eq_symbols (hquery : call.query? navigator = some query)
    (hkey : query.cacheKey = (symbolsQuery timeout filter maxItems).cacheKey)
    (hmimics : ¬ call.Mimics filter) :
    ∃ shownItems minLength workspace, call = .symbols filter shownItems minLength workspace ∧
      query = symbolsQuery navigator.timeout filter shownItems := by
  have hcases := filter_cases hkey
  cases call with
  | definition tree path line column =>
    rw [Call.query?] at hquery
    rcases hword : Checkout.wordAt tree path line column with cause | _ | word
    · simp [hword] at hquery
    · simp [hword] at hquery
    · simp only [hword, Option.some.injEq] at hquery
      subst hquery
      simp only [definitionQuery, Query.capped, reduceCtorEq, Bool.true_eq_false,
        String.toList_ofList, false_and, and_false, true_and, false_or, or_false] at hcases
      -- The word is made of letters and digits, and so has no star.
      have hstar : '*' ∈ word := by simp [hcases]
      exact absurd (isLetterOrDigit_of_wordAt hword hstar) (by decide)
  | references name workspace =>
    simp only [Call.query?, referencesQuery?] at hquery
    split at hquery
    · obtain rfl := Option.some.inj hquery
      simp only [Query.capped, reduceCtorEq, Bool.true_eq_false, String.toList_ofList, false_and,
        and_false, true_and, false_or] at hcases
      exact absurd ⟨name, workspace, rfl, hcases⟩ hmimics
    · cases hquery
  | symbols other shownItems minLength workspace =>
    rw [Call.query?, symbolsQuery?_eq] at hquery
    split at hquery
    · cases hquery
    · obtain rfl := Option.some.inj hquery
      simp only [symbolsQuery, Query.capped, reduceCtorEq, Bool.false_eq_true,
        String.toList_ofList, false_and, and_false, true_and, or_false] at hcases
      subst hcases
      exact ⟨shownItems, minLength, workspace, rfl, rfl⟩

theorem shown_eq (navigator : Navigator) (backend : Backend) (now : Instant) (filter : List Char)
    (maxItems minLength : Nat) (workspace : List Symbol) :
    navigator.shown backend now filter maxItems minLength workspace =
      if filter.length = 0 ∨ filter.length < minLength then .ok []
      else
        ((navigator.client.ask backend now now
          (symbolsQuery navigator.timeout filter maxItems)).map (·.value)).map
            (supplement workspace) := by
  rw [shown, symbols, symbolsQuery?_eq]
  by_cases hshort : filter.length = 0 ∨ filter.length < minLength
  · rw [if_pos hshort, if_pos hshort]
    rfl
  · rw [if_neg hshort, if_neg hshort]
    dsimp only [ask]
    cases navigator.client.ask backend now now (symbolsQuery navigator.timeout filter maxItems) with
    | error cause => rfl
    | ok answer => rfl

theorem shown_fresh (backend : Backend) (ttl timeout : Duration) (now : Instant)
    (filter : List Char) (maxItems minLength : Nat) (workspace : List Symbol) :
    (fresh ttl timeout).shown backend now filter maxItems minLength workspace =
      if filter.length = 0 ∨ filter.length < minLength then .ok []
      else
        (Client.listed ttl now (.ofReply (backend.search (symbolsQuery timeout filter maxItems))
          timeout)).map (supplement workspace) := by
  rw [shown_eq, fresh, Client.map_value_ask_ofTtl]
  rfl

/-- A call shows the symbols in this number of files, as at this time: its own, or those of an
earlier call for the filter whose list has not expired. -/
inductive Governs (ttl : Duration) (past : List Visit) (now : Instant) (filter : List Char)
    (maxItems : Nat) : Instant → Nat → Prop where
  | own : Governs ttl past now filter maxItems now maxItems
  | earlier {visit : Visit} {shownItems minLength : Nat} {workspace : List Symbol}
      {expiry : Instant} (hmem : visit ∈ past)
      (hcall : visit.call = .symbols filter shownItems minLength workspace)
      (hadd : visit.answered.add ttl = .ok expiry) (hfresh : now < expiry) :
      Governs ttl past now filter maxItems visit.answered shownItems

theorem exists_governs (backend : Backend) (ttl timeout : Duration) (now : Instant)
    (maxItems minLength : Nat) (workspace : List Symbol)
    (hmimics : ∀ visit ∈ past, ¬ visit.call.Mimics filter) :
    ∃ time shownItems, Governs ttl past now filter maxItems time shownItems ∧
      ((fresh ttl timeout).after backend past).shown backend now filter maxItems minLength
          workspace =
        (fresh ttl timeout).shown backend time filter shownItems minLength workspace := by
  have hsourced := isSourced_after backend ttl timeout past
  generalize (fresh ttl timeout).after backend past = navigator at hsourced
  by_cases hshort : filter.length = 0 ∨ filter.length < minLength
  · refine ⟨now, maxItems, .own, ?_⟩
    rw [shown_eq, shown_eq, if_pos hshort, if_pos hshort]
  · rw [shown_eq, if_neg hshort, hsourced.timeout_eq]
    rcases Client.ask_cases navigator.client backend now now
      (symbolsQuery timeout filter maxItems) with
      ⟨entry, hmem, hfresh, hvalue⟩ | hmissed
    · obtain ⟨visit, hvisit, query, hkey, hstores⟩ := hsourced.sourced _ _ hmem
      obtain ⟨shownItems, _, _, hcall, rfl⟩ :=
        exists_eq_symbols hstores.query_eq hkey (hmimics visit hvisit)
      refine ⟨visit.answered, shownItems, .earlier hvisit hcall hstores.expires hfresh, ?_⟩
      have hending : Client.Ending.ofReply
          (backend.search (symbolsQuery timeout filter shownItems)) timeout =
            .found entry.value := hstores.found
      rw [hvalue, shown_fresh, if_neg hshort, hending, Client.listed, hstores.expires]
      rfl
    · refine ⟨now, maxItems, .own, ?_⟩
      rw [shown_eq, if_neg hshort, hmissed, hsourced.ttl_eq]
      rfl

/-- While no time runs out, only the number of files makes a difference, and only up to its cap. -/
theorem shown_fresh_congr {expiry expiry' : Instant} {shownItems' : Nat}
    (htime : time.add ttl = .ok expiry) (hnow : now.add ttl = .ok expiry')
    (hcap : min shownItems Query.maxFiles = min shownItems' Query.maxFiles) :
    (fresh ttl timeout).shown backend time filter shownItems minLength workspace =
      (fresh ttl timeout).shown backend now filter shownItems' minLength workspace := by
  rw [shown_fresh, shown_fresh, symbolsQuery, hcap, ← symbolsQuery]
  cases Client.Ending.ofReply (backend.search (symbolsQuery timeout filter shownItems'))
    timeout with
  | found symbols => simp only [Client.listed, htime, hnow, Except.map]
  | failed error => rfl
  | timedOut => rfl

/-- After any calls, of which none mimics the filter, a call for symbols shows what a navigator with
an empty cache shows, for the number of files that the call asks for, or for that of an earlier call
for the filter whose list has not expired. If these numbers are the same, the earlier calls make no
difference. -/
theorem shown_after (backend : Backend) (ttl timeout : Duration) (past : List Visit)
    (now : Instant) (filter : List Char) (maxItems minLength : Nat) (workspace : List Symbol)
    (unmimicked : ∀ visit ∈ past, ¬ visit.call.Mimics filter) :
    (∃ time shownItems, Governs ttl past now filter maxItems time shownItems ∧
      ((fresh ttl timeout).after backend past).shown backend now filter maxItems minLength
          workspace =
        (fresh ttl timeout).shown backend time filter shownItems minLength workspace) ∧
      ((∃ expiry, now.add ttl = .ok expiry) →
        (∀ time shownItems, Governs ttl past now filter maxItems time shownItems →
          min shownItems Query.maxFiles = min maxItems Query.maxFiles) →
        ((fresh ttl timeout).after backend past).shown backend now filter maxItems minLength
            workspace =
          (fresh ttl timeout).shown backend now filter maxItems minLength workspace) := by
  obtain ⟨time, shownItems, hgoverns, hshown⟩ :=
    exists_governs backend ttl timeout now maxItems minLength workspace unmimicked
  refine ⟨⟨time, shownItems, hgoverns, hshown⟩, ?_⟩
  rintro ⟨expiry, hexpiry⟩ hcap
  rw [hshown]
  have hsame := hcap time shownItems hgoverns
  cases hgoverns with
  | own => rfl
  | earlier _ _ hadd _ => exact shown_fresh_congr hadd hexpiry hsame

def twoSymbols : List Symbol :=
  [⟨"/repo/a.cs", 0, 0, 0, 6, "Widget"⟩, ⟨"/repo/b.cs", 0, 0, 0, 6, "Widget"⟩]

/-- A backend that knows two files with one symbol each, and gives those of as many files as it is
asked for. -/
def twoFiles : Backend :=
  ⟨fun query => .now (.ok (twoSymbols.take query.maxResults)), .now (.ok ())⟩

def threeVisits : List Visit :=
  [⟨.symbols ['W', 'i', 'd'] 200 3 [], ⟨0⟩, ⟨0⟩⟩, ⟨.references ['W', 'i', 'd'] [], ⟨0⟩, ⟨0⟩⟩,
    ⟨.symbols ['W'] 1 1 [], ⟨0⟩, ⟨0⟩⟩]

theorem not_mimics_threeVisits : ∀ visit ∈ threeVisits, ¬ visit.call.Mimics ['W', 'i', 'd'] := by
  simp only [threeVisits, List.forall_mem_cons, Call.Mimics]
  refine ⟨?_, ?_, ?_, by simp⟩
  · simp
  · rintro ⟨_, _, heq, htrim⟩
    obtain ⟨rfl, -⟩ := Call.references.inj heq
    revert htrim
    decide
  · simp

theorem shown_after_threeVisits :
    (∀ visit ∈ threeVisits, ¬ visit.call.Mimics ['W', 'i', 'd']) ∧
      ((fresh Cache.defaultTtl Query.defaultTimeout).after twoFiles threeVisits).shown twoFiles ⟨0⟩
          ['W', 'i', 'd'] 500 3 [] = .ok twoSymbols := by
  refine ⟨not_mimics_threeVisits, ?_⟩
  have hafter := shown_after twoFiles Cache.defaultTtl Query.defaultTimeout threeVisits ⟨0⟩
    ['W', 'i', 'd'] 500 3 [] not_mimics_threeVisits
  refine (hafter.2 ⟨_, rfl⟩ ?_).trans (by cbv)
  intro time shownItems hgoverns
  cases hgoverns with
  | own => rfl
  | earlier hmem hcall =>
    simp only [threeVisits, List.mem_cons, List.not_mem_nil, or_false] at hmem
    rcases hmem with rfl | rfl | rfl
    · obtain ⟨-, rfl, -⟩ := Call.symbols.inj hcall
      rfl
    · cases hcall
    · cases hcall

/-- After a call that asks for one file, a call that asks for fifty shows the symbols of one. -/
theorem not_shown_eq_fresh :
    ¬ ∀ (backend : Backend) (ttl timeout : Duration) (past : List Visit) (now : Instant)
        (filter : List Char) (maxItems minLength : Nat) (workspace : List Symbol),
      (∀ visit ∈ past, ∃ expiry, visit.answered.add ttl = .ok expiry ∧ now < expiry) →
      (∀ visit ∈ past, ¬ visit.call.Mimics filter) →
      ((fresh ttl timeout).after backend past).shown backend now filter maxItems minLength
          workspace =
        (fresh ttl timeout).shown backend now filter maxItems minLength workspace := by
  intro h
  have hshown := h twoFiles Cache.defaultTtl Query.defaultTimeout
    [⟨.symbols ['W', 'i', 'd'] 1 3 [], ⟨0⟩, ⟨0⟩⟩] ⟨0⟩ ['W', 'i', 'd'] 50 3 []
    (List.forall_mem_singleton.mpr ⟨_, rfl, by decide⟩)
    (List.forall_mem_singleton.mpr (by simp [Call.Mimics]))
  have hone : ((fresh Cache.defaultTtl Query.defaultTimeout).after twoFiles
      [⟨.symbols ['W', 'i', 'd'] 1 3 [], ⟨0⟩, ⟨0⟩⟩]).shown twoFiles ⟨0⟩ ['W', 'i', 'd'] 50 3 [] =
        .ok (twoSymbols.take 1) := by
    cbv
  have htwo : (fresh Cache.defaultTtl Query.defaultTimeout).shown twoFiles ⟨0⟩ ['W', 'i', 'd'] 50 3
      [] = .ok twoSymbols := by
    cbv
  cases hone.symm.trans (hshown.trans htwo)

end Navigator

end CodeNav
