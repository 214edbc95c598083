import Mathlib
import CodeNav.Direct
import CodeNav.Proofs.Checkout.Soundness
import CodeNav.Proofs.Navigator.Sharing
import CodeNav.Proofs.Supplement

/-! # What a limit limits

A call for symbols asks the index for a number of files, and shows whatever symbols it is served. So
the number limits the files in which the symbols lie, and not the symbols. It even limits the files
only as long as no earlier call for the same filter asked for more.
-/

namespace CodeNav

variable {workspace remote symbols others : List Symbol}

def fileCount (symbols : List Symbol) : Nat := (symbols.map (·.path)).dedup.length

/-- No file with a local symbol holds the symbol. -/
def isOutside (workspace : List Symbol) (symbol : Symbol) : Bool :=
  workspace.all (·.path != symbol.path)

theorem length_dedup_le_of_subset {α : Type*} [DecidableEq α] {xs ys : List α} (h : xs ⊆ ys) :
    xs.dedup.length ≤ ys.length := by
  apply List.Subperm.length_le
  apply (List.nodup_dedup xs).subperm
  intro x hx
  exact h (List.mem_dedup.mp hx)

theorem fileCount_mono (h : symbols ⊆ others) : fileCount symbols ≤ fileCount others := by
  apply length_dedup_le_of_subset
  intro path hpath
  exact List.mem_dedup.mpr (List.map_subset _ h hpath)

theorem supplement_subset (workspace remote : List Symbol) : supplement workspace remote ⊆ remote :=
  fun symbol h => (((isSupplement_supplement workspace remote).mem_iff symbol).mp h).1

theorem length_supplement (workspace remote : List Symbol) :
    (supplement workspace remote).length = (remote.filter (isOutside workspace)).dedup.length := by
  have hmerged := isSupplement_supplement workspace remote
  apply List.Perm.length_eq
  apply (List.perm_ext_iff_of_nodup hmerged.nodup (List.nodup_dedup _)).mpr
  intro symbol
  rw [hmerged.mem_iff, List.mem_dedup, List.mem_filter]
  simp [isOutside]

namespace Index

/-- The index returns at most as many files as it is asked for. -/
def HonorsTop (source : Index.Source) : Prop :=
  ∀ request delay response, source request = .after delay (.ok response) →
    response.results.length ≤ request.top

end Index

namespace Direct

variable {direct : Direct} {source : Index.Source} {tree : FileTree} {query : Query}
  {response : Index.Response} {timeout : Duration}

theorem exists_result_of_mem_place {symbol : Symbol}
    (hplace : direct.place tree query response = .ok symbols) (h : symbol ∈ symbols) :
    ∃ result ∈ response.results,
      Checkout.localPath? direct.root result.path = some symbol.path := by
  have hscan : Checkout.Scanner.scan ⟨direct.root, LineEnding.default, query.criterion⟩ tree
      (fun _ => false) (Checkout.groupByPath response.hits) = .ok symbols := by
    rw [place] at hplace
    cases hscan : Checkout.Scanner.scan ⟨direct.root, LineEnding.default, query.criterion⟩ tree
        (fun _ => false) (Checkout.groupByPath response.hits) with
    | error cause => simp [hscan, Except.mapError] at hplace
    | ok found => simpa [hscan, Except.mapError] using hplace
  rw [Checkout.Scanner.symbols_of_scan hscan] at h
  obtain ⟨group, hgroup, hfound⟩ := List.mem_flatMap.mp h
  obtain ⟨path, bytes, hlocal, -, heq⟩ := Checkout.Scanner.found_of_mem hfound
  rw [heq] at hfound
  obtain ⟨_, -, hplaceOf⟩ := Placement.exists_isPlaceOf_of_mem hfound
  obtain ⟨rfl, -⟩ := Checkout.exists_marks_of_isPlaceOf hplaceOf
  obtain ⟨hit, hhit⟩ :=
    List.exists_mem_of_ne_nil _ (Checkout.hits_ne_nil_of_mem_group group hgroup)
  have hmem := Checkout.mem_of_mem_group hgroup hhit
  obtain ⟨result, hresult, hits⟩ := List.mem_flatMap.mp hmem
  obtain ⟨found, -, rfl⟩ := List.mem_map.mp hits
  refine ⟨result, hresult, ?_⟩
  rw [← hlocal]
  exact congrArg _ (Checkout.path_of_mem_group group hgroup _ hhit)

/-- The symbols of a response lie in no more files than it has. -/
theorem fileCount_le_of_place (h : direct.place tree query response = .ok symbols) :
    fileCount symbols ≤ response.results.length := by
  have hsubset : symbols.map (·.path) ⊆
      response.results.filterMap fun result =>
        Checkout.localPath? direct.root result.path := by
    intro path hpath
    obtain ⟨symbol, hsymbol, rfl⟩ := List.mem_map.mp hpath
    exact List.mem_filterMap.mpr (exists_result_of_mem_place h hsymbol)
  exact (length_dedup_le_of_subset hsubset).trans (List.length_filterMap_le _ _)

theorem exists_response_of_found
    (h : Client.Ending.ofReply (direct.search source tree query) timeout = .found symbols) :
    ∃ delay response, source (direct.request query) = .after delay (.ok response) ∧
      direct.place tree query response = .ok symbols := by
  rw [Client.Ending.ofReply_eq_found_iff, search] at h
  cases hreply : source (direct.request query) with
  | never => simp [hreply, Timed.map, Timed.within] at h
  | after delay outcome =>
    rw [hreply, Timed.map, Timed.within] at h
    split at h
    · cases outcome with
      | error cause => cases h
      | ok response => exact ⟨delay, response, rfl, Option.some_inj.mp h⟩
    · cases h

/-- Of an index that honors the number, a search finds symbols in so many files. -/
theorem fileCount_le_maxResults (hsource : Index.HonorsTop source)
    (h : Client.Ending.ofReply (direct.search source tree query) timeout = .found symbols) :
    fileCount symbols ≤ query.maxResults := by
  obtain ⟨delay, response, hreply, hplace⟩ := exists_response_of_found h
  exact (fileCount_le_of_place hplace).trans (hsource _ _ _ hreply)

end Direct

theorem Client.listed_cases {ttl : Duration} {answered : Instant} {ending : Client.Ending}
    (h : Client.listed ttl answered ending = .ok symbols) :
    ending = .found symbols ∨ symbols = [] := by
  cases ending with
  | found found =>
    rw [listed] at h
    cases hadd : answered.add ttl with
    | error cause => simp [hadd, Except.map] at h
    | ok expiry =>
      rw [hadd] at h
      exact .inl (congrArg _ (Except.ok.inj h))
  | failed error => exact .inr (Except.ok.inj h).symm
  | timedOut => exact .inr (Except.ok.inj h).symm

namespace Navigator

variable {navigator : Navigator} {backend : Backend} {now time : Instant} {ttl timeout : Duration}
  {filter : List Char} {maxItems minLength : Nat} {shown : List Symbol}
  {direct : Direct} {source : Index.Source} {tree : FileTree} {past : List Visit}

def limit (maxItems : Nat) : Nat := min maxItems Query.maxFiles

/-- The list that a call for symbols is served by the cache or the backend. -/
def served (navigator : Navigator) (backend : Backend) (now : Instant) (filter : List Char)
    (maxItems minLength : Nat) : Except ClockError (List Symbol) :=
  if filter.length = 0 ∨ filter.length < minLength then .ok []
  else
    (navigator.client.ask backend now now
      (symbolsQuery navigator.timeout filter maxItems)).map (·.value)

theorem shown_eq_map_served (navigator : Navigator) (backend : Backend) (now : Instant)
    (filter : List Char) (maxItems minLength : Nat) (workspace : List Symbol) :
    navigator.shown backend now filter maxItems minLength workspace =
      (navigator.served backend now filter maxItems minLength).map (supplement workspace) := by
  rw [shown_eq, Navigator.served]
  split
  · have hnone : supplement workspace [] = [] :=
      List.eq_nil_of_subset_nil (supplement_subset workspace [])
    rw [Except.map, hnone]
  · rfl

theorem shown_eq_ok_iff :
    navigator.shown backend now filter maxItems minLength workspace = .ok shown ↔
      ∃ served, navigator.served backend now filter maxItems minLength = .ok served ∧
        shown = supplement workspace served := by
  rw [shown_eq_map_served]
  cases navigator.served backend now filter maxItems minLength with
  | error cause => simp [Except.map]
  | ok served => simp [Except.map, eq_comm]

/-- The symbols that a call shows are as few as the limit, whatever the workspace holds. -/
def KeepsLimit (navigator : Navigator) (backend : Backend) (now : Instant) (filter : List Char)
    (maxItems minLength : Nat) : Prop :=
  ∀ workspace shown, navigator.shown backend now filter maxItems minLength workspace = .ok shown →
    shown.length ≤ limit maxItems

theorem keepsLimit_iff :
    navigator.KeepsLimit backend now filter maxItems minLength ↔
      ∀ served, navigator.served backend now filter maxItems minLength = .ok served →
        served.dedup.length ≤ limit maxItems := by
  constructor
  · intro hkeeps served hserved
    have hshown := hkeeps [] _ (shown_eq_ok_iff.mpr ⟨served, hserved, rfl⟩)
    rw [length_supplement, List.filter_eq_self.mpr (by simp [isOutside])] at hshown
    exact hshown
  · intro hserved workspace shown hshown
    obtain ⟨served, hok, rfl⟩ := shown_eq_ok_iff.mp hshown
    have hsubset : served.filter (isOutside workspace) ⊆ served.dedup := fun symbol hsymbol =>
      List.mem_dedup.mpr (List.mem_of_mem_filter hsymbol)
    rw [length_supplement]
    exact (length_dedup_le_of_subset hsubset).trans (hserved served hok)

theorem served_fresh (backend : Backend) (ttl timeout : Duration) (now : Instant)
    (filter : List Char) (maxItems minLength : Nat) :
    (fresh ttl timeout).served backend now filter maxItems minLength =
      if filter.length = 0 ∨ filter.length < minLength then .ok []
      else
        Client.listed ttl now
          (.ofReply (backend.search (symbolsQuery timeout filter maxItems)) timeout) := by
  rw [served, fresh, Client.map_value_ask_ofTtl]
  rfl

theorem fileCount_served_fresh_le (hsource : Index.HonorsTop source)
    (h : (fresh ttl timeout).served (direct.backend source tree) time filter maxItems minLength =
      .ok symbols) :
    fileCount symbols ≤ limit maxItems := by
  rw [served_fresh] at h
  split at h
  · rw [← Except.ok.inj h]
    exact Nat.zero_le _
  · rcases Client.listed_cases h with hfound | hnone
    · have hcount := Direct.fileCount_le_maxResults hsource hfound
      exact hcount.trans (Nat.min_le_left _ _)
    · rw [hnone]
      exact Nat.zero_le _

theorem fileCount_shown_fresh_le (hsource : Index.HonorsTop source)
    (h : (fresh ttl timeout).shown (direct.backend source tree) time filter maxItems minLength
      workspace = .ok shown) :
    fileCount shown ≤ limit maxItems := by
  obtain ⟨served, hserved, rfl⟩ := shown_eq_ok_iff.mp h
  calc fileCount (supplement workspace served)
      ≤ fileCount served := fileCount_mono (supplement_subset workspace served)
    _ ≤ limit maxItems := fileCount_served_fresh_le hsource hserved

def AsksAtMost (past : List Visit) (filter : List Char) (maxItems : Nat) : Prop :=
  ∀ visit ∈ past, ∀ items minLength workspace,
    visit.call = .symbols filter items minLength workspace → items ≤ maxItems

theorem fileCount_shown_after_le (hsource : Index.HonorsTop source)
    (hmimics : ∀ visit ∈ past, ¬ visit.call.Mimics filter)
    (hasked : AsksAtMost past filter maxItems)
    (h : ((fresh ttl timeout).after (direct.backend source tree) past).shown
      (direct.backend source tree) now filter maxItems minLength workspace = .ok shown) :
    fileCount shown ≤ limit maxItems := by
  obtain ⟨time, shownItems, hgoverns, hshown⟩ :=
    exists_governs (direct.backend source tree) ttl timeout now maxItems minLength workspace hmimics
  have hitems : shownItems ≤ maxItems := by
    cases hgoverns with
    | own => exact Nat.le_refl _
    | earlier hmem hcall => exact hasked _ hmem _ _ _ hcall
  rw [hshown] at h
  exact (fileCount_shown_fresh_le hsource h).trans (min_le_min_right _ hitems)

structure Limits (navigator : Navigator) (backend : Backend) (now : Instant) (filter : List Char)
    (maxItems minLength : Nat) : Prop where
  count : ∀ workspace shown,
    navigator.shown backend now filter maxItems minLength workspace = .ok shown →
      ∃ served, navigator.served backend now filter maxItems minLength = .ok served ∧
        shown.length = (served.filter (isOutside workspace)).dedup.length
  symbols : navigator.KeepsLimit backend now filter maxItems minLength ↔
    ∀ served, navigator.served backend now filter maxItems minLength = .ok served →
      served.dedup.length ≤ limit maxItems
  files : ∀ (direct : Direct) (source : Index.Source) (tree : FileTree) (ttl timeout : Duration)
      (past : List Visit), backend = direct.backend source tree →
    navigator = (fresh ttl timeout).after backend past → Index.HonorsTop source →
      (∀ visit ∈ past, ¬ visit.call.Mimics filter) → AsksAtMost past filter maxItems →
        ∀ workspace shown,
          navigator.shown backend now filter maxItems minLength workspace = .ok shown →
            fileCount shown ≤ limit maxItems

/-- A call keeps to its number of items exactly if it is served no more distinct symbols. Behind an
index that honors the number, the symbols lie in so many files, unless an earlier call for the
filter asked for more. -/
theorem maxItems_limits (navigator : Navigator) (backend : Backend) (now : Instant)
    (filter : List Char) (maxItems minLength : Nat) :
    Limits navigator backend now filter maxItems minLength where
  count workspace shown hshown := by
    obtain ⟨served, hserved, rfl⟩ := shown_eq_ok_iff.mp hshown
    exact ⟨served, hserved, length_supplement workspace served⟩
  symbols := keepsLimit_iff
  files direct source tree ttl timeout past hbackend hnavigator hsource hmimics hasked workspace
      shown hshown := by
    subst hbackend hnavigator
    exact fileCount_shown_after_le hsource hmimics hasked hshown

def twoWords : FileTree :=
  ⟨[(["repo"], .directory),
    (["repo", "a.cs"], .file [87, 105, 100, 10, 87, 105, 100, 103, 101, 116, 10])], []⟩

def bothWords : Index.Response := ⟨1, [⟨"a.cs", [("content", [⟨0, 3⟩, ⟨4, 6⟩])]⟩]⟩

def wordIndex : Index.Source := fun request =>
  .now (.ok { bothWords with results := bothWords.results.take request.top })

def wordSearch : Direct := ⟨"/repo", [], none⟩

def wordSymbols : List Symbol :=
  [⟨"/repo/a.cs", 0, 0, 0, 3, "Wid"⟩, ⟨"/repo/a.cs", 1, 1, 0, 6, "Widget"⟩]

theorem honorsTop_wordIndex : Index.HonorsTop wordIndex := by
  intro request delay response h
  obtain ⟨-, hresponse⟩ := Timed.after.inj h
  rw [← Except.ok.inj hresponse]
  exact List.length_take_le ..

theorem place_bothWords :
    wordSearch.place twoWords (symbolsQuery Query.defaultTimeout ['W', 'i', 'd'] 1) bothWords =
      .ok wordSymbols := by
  have hgroups : Checkout.groupByPath bothWords.hits =
      [⟨"a.cs", [⟨"a.cs", 0, 3⟩, ⟨"a.cs", 4, 6⟩]⟩] := by decide +kernel
  have hfile : twoWords.isFile "/repo/a.cs" = true := by decide +kernel
  have hread : twoWords.read "/repo/a.cs" =
      .ok [87, 105, 100, 10, 87, 105, 100, 103, 101, 116, 10] := by decide +kernel
  have hsymbols : (Placement.ofText LineEnding.default
      (symbolsQuery Query.defaultTimeout ['W', 'i', 'd'] 1).criterion "/repo/a.cs"
      [⟨"a.cs", 0, 3⟩, ⟨"a.cs", 4, 6⟩]
      (Text.Utf8.lenient [87, 105, 100, 10, 87, 105, 100, 103, 101, 116, 10])).symbols =
        wordSymbols := by
    cbv
  simp only [Direct.place, wordSearch, hgroups, Checkout.Scanner.scan, List.map_cons, List.map_nil,
    Checkout.Scanner.scanGroup, Checkout.localPath?_plain, hfile, hread, hsymbols, if_true,
    Bool.false_eq_true, if_false]
  rfl

/-- Asked for one item, a call shows both words of the one file. -/
theorem shown_wordSymbols :
    (fresh Cache.defaultTtl Query.defaultTimeout).shown (wordSearch.backend wordIndex twoWords) ⟨0⟩
      ['W', 'i', 'd'] 1 3 [] = .ok wordSymbols := by
  have hsearch : (wordSearch.backend wordIndex twoWords).search
      (symbolsQuery Query.defaultTimeout ['W', 'i', 'd'] 1) = .now (.ok wordSymbols) :=
    congrArg Timed.now place_bothWords
  have hserved : (fresh Cache.defaultTtl Query.defaultTimeout).served
      (wordSearch.backend wordIndex twoWords) ⟨0⟩ ['W', 'i', 'd'] 1 3 = .ok wordSymbols := by
    rw [served_fresh, hsearch]
    rfl
  exact shown_eq_ok_iff.mpr ⟨_, hserved, by cbv⟩

theorem maxItems_limits_wordIndex :
    Index.HonorsTop wordIndex ∧ AsksAtMost [] ['W', 'i', 'd'] 1 ∧ fileCount wordSymbols ≤ 1 := by
  have hasked : AsksAtMost [] ['W', 'i', 'd'] 1 := List.forall_mem_nil _
  have hlimits := maxItems_limits (fresh Cache.defaultTtl Query.defaultTimeout)
    (wordSearch.backend wordIndex twoWords) ⟨0⟩ ['W', 'i', 'd'] 1 3
  exact ⟨honorsTop_wordIndex, hasked, hlimits.files _ _ _ _ _ [] rfl rfl honorsTop_wordIndex
    (List.forall_mem_nil _) hasked [] _ shown_wordSymbols⟩

theorem not_keepsLimit :
    ¬ ∀ (navigator : Navigator) (backend : Backend) (now : Instant) (filter : List Char)
        (maxItems minLength : Nat),
      navigator.KeepsLimit backend now filter maxItems minLength := by
  intro h
  exact absurd (h _ _ _ _ _ _ _ _ shown_wordSymbols) (by decide)

end Navigator

end CodeNav
