import CodeNav.Proofs.Wire
import CodeNav.Settings.Basic

/-! # Timeouts on the wire

A query is always read back, in the order of its fields or sorted by their names, as a text or as a
value. Its timeout comes back rounded down to whole milliseconds as long as these fit a word. From
there on it starts over at none, so that a longer timeout becomes a shorter one. Settings reach
that end, since their words count seconds; a command line does not, since its words count
milliseconds.
-/

namespace CodeNav

open Json

namespace Duration

variable {d e : Duration}

theorem milliseconds_le (h : d ≤ e) : d.milliseconds ≤ e.milliseconds :=
  Nat.div_le_div_right h

theorem ofMilliseconds_inj {m n : Nat} : ofMilliseconds m = ofMilliseconds n ↔ m = n := by
  constructor
  · intro h
    have hmilliseconds := congrArg milliseconds h
    rwa [milliseconds_ofMilliseconds, milliseconds_ofMilliseconds] at hmilliseconds
  · rintro rfl
    rfl

theorem ofMilliseconds_le_iff {n : Nat} : ofMilliseconds n ≤ d ↔ n ≤ d.milliseconds :=
  (Nat.le_div_iff_mul_le (by decide)).symm

theorem ofMilliseconds_mono {m n : Nat} (h : m ≤ n) : ofMilliseconds m ≤ ofMilliseconds n :=
  Nat.mul_le_mul_right _ h

theorem milliseconds_ofSeconds (n : Nat) : (ofSeconds n).milliseconds = n * 1000 := by
  simp only [ofSeconds, milliseconds]
  omega

end Duration

namespace Query

variable {query read other : Query} {n depth : Nat}

/-- The query with its timeout rounded down to whole milliseconds. -/
def rounded (query : Query) : Query :=
  { query with timeout := .ofMilliseconds query.timeout.milliseconds }

structure IsReadAs (query read : Query) : Prop where
  record : decoder.readText? query.toJson.compact = some read
  text : decoder.readText? query.toJson.sorted.compact = some read
  value : decoder.readValue? query.toJson.sorted = some read

/-- Longer timeouts up to the bound stay no shorter on the wire. -/
def KeepsOrder (bound : Duration) : Prop :=
  ∀ shorter longer : Query, shorter.timeout ≤ longer.timeout → longer.timeout ≤ bound →
    shorter.received.timeout ≤ longer.received.timeout

theorem decoder_declared_eq (filter maxResults timeout exact' kind : Json) :
    decoder (depth + 1)
        (.ofJson (.object [("filter_text", filter), ("max_results", maxResults),
          ("timeout", timeout), ("exact_match", exact'), ("query_type", kind)])) =
      decoder (depth + 1)
        (.ofJson (.object [("exact_match", exact'), ("filter_text", filter),
          ("max_results", maxResults), ("query_type", kind), ("timeout", timeout)])) := by
  rw [decoder, decoder, Decoder.fields_ofJson _ _ (by simp), Decoder.fields_ofJson _ _ (by simp)]
  simp [List.lookup_cons]

theorem decoder_declared (h : query.maxResults < wordLimit) (depth : Nat) :
    decoder (depth + 1) (.ofJson query.toJson) = some query.received := by
  rw [← decoder_sorted h depth, sorted_toJson]
  exact decoder_declared_eq ..

theorem isExact_declared (h : query.maxResults < wordLimit) : IsExact query.toJson := by
  unfold toJson
  refine .cons (.string _) (.cons (isExact_natural h) (.cons ?_ ?_))
  · exact isExact_natural (wireTimeout_lt query)
  · exact .cons (.bool _) (.cons (.string _) .nil)

theorem readText?_compact {json : Json} (hexact : IsExact json)
    (hread : decoder Document.maxDepth (.ofJson json) = some read) :
    decoder.readText? json.compact = some read := by
  rw [Decoder.readText?, Document.ofText?_compact hexact]
  exact hread

theorem isReadAs_received (h : query.maxResults < wordLimit) :
    query.IsReadAs query.received where
  record := readText?_compact (isExact_declared h) (decoder_declared h 126)
  text := readText?_compact (isExact_sorted h) (decoder_sorted h 126)
  value := decoder_sorted h 126

theorem IsReadAs.unique (hread : query.IsReadAs read) (hother : query.IsReadAs other) :
    read = other :=
  Option.some_inj.mp (hread.value.symm.trans hother.value)

theorem received_eq_rounded_iff :
    query.received = query.rounded ↔ query.timeout.milliseconds < wordLimit := by
  constructor
  · intro h
    have htimeout := Duration.ofMilliseconds_inj.mp (congrArg timeout h)
    rw [← htimeout]
    exact wireTimeout_lt query
  · intro h
    rw [received, rounded, wireTimeout, Nat.mod_eq_of_lt h]

theorem isReadAs_rounded_iff (h : query.maxResults < wordLimit) :
    query.IsReadAs query.rounded ↔ query.timeout.milliseconds < wordLimit := by
  rw [← received_eq_rounded_iff]
  constructor
  · exact (isReadAs_received h).unique
  · intro heq
    exact heq ▸ isReadAs_received h

theorem maxResults_capped_lt (filter : String) (maxResults : Nat) (timeout : Duration)
    (exact' : Bool) (kind : Kind) :
    (capped filter maxResults timeout exact' kind).maxResults < wordLimit :=
  Nat.lt_of_le_of_lt (Nat.min_le_right ..) (by decide)

def ofTimeout (timeout : Duration) : Query := ⟨"", 0, timeout, false, .definitions⟩

theorem received_ofTimeout (n : Nat) :
    (ofTimeout (.ofMilliseconds n)).received.timeout = .ofMilliseconds (n % wordLimit) := by
  simp only [received, wireTimeout, ofTimeout, Duration.milliseconds_ofMilliseconds]

/-- The first timeout that does not fit is read as none, and that of a millisecond as itself. -/
theorem keepsOrder_iff (bound : Duration) :
    KeepsOrder bound ↔ bound.milliseconds < wordLimit := by
  constructor
  · intro hkeeps
    by_contra hbound
    have hreaches : Duration.ofMilliseconds wordLimit ≤ bound :=
      Duration.ofMilliseconds_le_iff.mpr (Nat.not_lt.mp hbound)
    have hlonger : Duration.ofMilliseconds 1 ≤ .ofMilliseconds wordLimit :=
      Duration.ofMilliseconds_mono (by decide)
    have horder := hkeeps (ofTimeout (.ofMilliseconds 1)) (ofTimeout (.ofMilliseconds wordLimit))
      hlonger hreaches
    rw [received_ofTimeout, received_ofTimeout, Nat.mod_self,
      Nat.mod_eq_of_lt (by decide)] at horder
    exact absurd horder (by decide)
  · intro hbound shorter longer horder hlonger
    have hshorter := Duration.milliseconds_le horder
    have hfits := Nat.lt_of_le_of_lt (Duration.milliseconds_le hlonger) hbound
    simp only [received, wireTimeout, Nat.mod_eq_of_lt hfits,
      Nat.mod_eq_of_lt (Nat.lt_of_le_of_lt hshorter hfits)]
    exact Duration.ofMilliseconds_mono hshorter

structure RoundTrip (filter : String) (maxResults : Nat) (exact' : Bool) (kind : Kind) : Prop where
  reads : ∀ timeout, (capped filter maxResults timeout exact' kind).IsReadAs
    { capped filter maxResults timeout exact' kind with
      timeout := .ofMilliseconds (timeout.milliseconds % wordLimit) }
  rounds : ∀ timeout,
    (capped filter maxResults timeout exact' kind).IsReadAs
        (capped filter maxResults timeout exact' kind).rounded ↔
      timeout.milliseconds < wordLimit
  ofSettings : ∀ settings : Settings,
    (capped filter maxResults settings.timeout exact' kind).IsReadAs
        (capped filter maxResults settings.timeout exact' kind).rounded ↔
      settings.timeoutSeconds ≤ 18446744073709551
  ofCommandLine : ∀ milliseconds,
    (capped filter maxResults (.ofMilliseconds milliseconds) exact' kind).IsReadAs
        (capped filter maxResults (.ofMilliseconds milliseconds) exact' kind) ↔
      milliseconds < wordLimit
  ordered : ∀ bound, KeepsOrder bound ↔ bound.milliseconds < wordLimit

theorem rounded_ofMilliseconds (h : query.timeout = .ofMilliseconds n) :
    query.rounded = query := by
  rw [rounded, h, Duration.milliseconds_ofMilliseconds, ← h]

/-- A timeout is read back in whole milliseconds exactly when these fit a word. -/
theorem roundTrip (filter : String) (maxResults : Nat) (exact' : Bool) (kind : Kind) :
    RoundTrip filter maxResults exact' kind where
  reads timeout := isReadAs_received (maxResults_capped_lt ..)
  rounds timeout := isReadAs_rounded_iff (maxResults_capped_lt ..)
  ofSettings settings := by
    have hword : wordLimit = 18446744073709551616 := by decide
    have hmilliseconds : settings.timeout.milliseconds = settings.timeoutSeconds * 1000 :=
      Duration.milliseconds_ofSeconds _
    rw [isReadAs_rounded_iff (maxResults_capped_lt ..)]
    change settings.timeout.milliseconds < wordLimit ↔ _
    omega
  ofCommandLine milliseconds := by
    have hrounded := isReadAs_rounded_iff
      (maxResults_capped_lt filter maxResults (.ofMilliseconds milliseconds) exact' kind)
    rw [rounded_ofMilliseconds rfl] at hrounded
    rw [hrounded]
    change (Duration.ofMilliseconds milliseconds).milliseconds < wordLimit ↔ _
    rw [Duration.milliseconds_ofMilliseconds]
  ordered := keepsOrder_iff

/-- Settings that ask for the longest waits get the shortest ones. -/
theorem not_isReadAs_rounded_settings :
    ¬ ∀ (filter : String) (maxResults : Nat) (settings : Settings) (exact' : Bool) (kind : Kind),
      settings.timeoutSeconds < wordLimit →
        (capped filter maxResults settings.timeout exact' kind).IsReadAs
          (capped filter maxResults settings.timeout exact' kind).rounded := by
  intro hall
  have hread := hall "Widget" 20 { timeoutSeconds := 18446744073709552 } false .definitions
    (by decide)
  have hcut : (capped "Widget" 20 (.ofSeconds 18446744073709552) false .definitions).IsReadAs
      ⟨"Widget", 20, .ofMilliseconds 384, false, .definitions⟩ :=
    isReadAs_received (by decide)
  exact absurd (hread.unique hcut) (by decide)

end Query

end CodeNav
