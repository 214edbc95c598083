import CodeNav.Proofs.Wire

/-! # What encodes a query

A query is read from an object that has each of its five fields once, in any order and among others,
or from the array of the five fields in their order. Nothing else is read as a query.
-/

namespace CodeNav

namespace Json.Decoder

variable {json : Json} {items : List Json} {members : List (String × Json)} {depth left : Nat}
  {names : List String} {name : String} {document : Document}

theorem string_ofJson_eq_some_iff {s : String} :
    string depth (.ofJson json) = some s ↔ json = .string s := by
  cases json <;> simp [Document.ofJson, string]

theorem bool_ofJson_eq_some_iff {b : Bool} :
    bool depth (.ofJson json) = some b ↔ json = .bool b := by
  cases json <;> simp [Document.ofJson, bool]

theorem integerFrom_ofJson_eq_some_iff {least greatest n : Int} :
    integerFrom least greatest depth (.ofJson json) = some n ↔
      (least ≤ n ∧ n ≤ greatest) ∧ ∃ exact, json = .number (.integer n exact) := by
  constructor
  · intro h
    unfold integerFrom at h
    split at h
    · next k exact hdocument =>
      split at h
      · next hrange =>
        obtain rfl := Option.some.inj h
        refine ⟨hrange, exact, ?_⟩
        cases json <;> simp_all [Document.ofJson]
      · cases h
    · cases h
  · rintro ⟨⟨hleast, hgreatest⟩, exact, rfl⟩
    exact integerFrom_integer exact hleast hgreatest depth

theorem natural_ofJson_eq_some_iff {n : Nat} :
    natural depth (.ofJson json) = some n ↔ n < wordLimit ∧ json = .natural n := by
  constructor
  · intro h
    obtain ⟨m, hm, rfl⟩ := Option.map_eq_some_iff.mp h
    obtain ⟨⟨hleast, hgreatest⟩, exact, rfl⟩ := integerFrom_ofJson_eq_some_iff.mp hm
    obtain ⟨n, rfl⟩ := Int.eq_ofNat_of_zero_le hleast
    rw [Int.toNat_natCast]
    have hn : n < wordLimit := Int.ofNat_lt.mp (Int.lt_of_le_sub_one hgreatest)
    exact ⟨hn, (natural_of_lt hn).symm⟩
  · rintro ⟨hn, hjson⟩
    rw [hjson, natural_ofJson hn]

theorem mapM_eq_some_iff_forall₂ {α β : Type} {read : α → Option β} {entries : List α}
    {results : List β} :
    entries.mapM read = some results ↔
      List.Forall₂ (fun entry result => read entry = some result) entries results := by
  induction entries generalizing results with
  | nil => simp [eq_comm]
  | cons entry entries ih =>
    simp only [List.mapM_cons, Option.bind_eq_bind, Option.bind_eq_some_iff, Option.pure_def,
      Option.some.injEq, ih, List.forall₂_cons_left_iff]
    constructor
    · rintro ⟨result, hentry, results, hentries, rfl⟩
      exact ⟨result, results, hentry, hentries, rfl⟩
    · rintro ⟨result, results, hentry, hentries, rfl⟩
      exact ⟨result, hentry, results, hentries, rfl⟩

def IsOnlyMember (members : List (String × Json)) (name : String) (value : Json) : Prop :=
  members.filter (·.1 = name) = [(name, value)]

theorem filter_map_ofJson (members : List (String × Json)) (name : String) :
    (members.map fun member => (member.1, Document.ofJson member.2)).filter (·.1 = name) =
      (members.filter (·.1 = name)).map fun member => (member.1, Document.ofJson member.2) := by
  rw [List.filter_map]
  rfl

theorem exists_isOnlyMember_iff :
    (∃ value, IsOnlyMember members name value ∧ document = .ofJson value) ↔
      (members.filter (·.1 = name)).map (fun member => (member.1, Document.ofJson member.2)) =
        [(name, document)] := by
  constructor
  · rintro ⟨value, hmember, rfl⟩
    rw [hmember]
    rfl
  · intro h
    obtain ⟨member, hfilter, hmember⟩ := List.map_eq_singleton_iff.mp h
    obtain ⟨rfl, rfl⟩ := Prod.mk.inj hmember
    exact ⟨member.2, hfilter, rfl⟩

/-- A field is found when there is exactly one member of its name. -/
theorem member_eq_some_iff :
    (match (members.filter (·.1 = name)).map
        (fun member => (member.1, Document.ofJson member.2)) with
      | [] => some none
      | [(_, item)] => some (some item)
      | _ => none) = some (some document) ↔
    ∃ value, IsOnlyMember members name value ∧ document = .ofJson value := by
  rw [exists_isOnlyMember_iff]
  rcases hfilter : members.filter (·.1 = name) with _ | ⟨member, _ | ⟨other, rest⟩⟩
  · simp [hfilter]
  · have hmember : member ∈ members.filter (·.1 = name) := hfilter ▸ List.mem_cons_self
    have hname : member.1 = name := by simpa using List.of_mem_filter hmember
    simp [hfilter, hname]
  · simp [hfilter]

/-- The fields of a record are all there, each once. -/
theorem fields_object_eq_some_iff {found : List Document} :
    fields names (depth + 1) (.ofJson (.object members)) = some (left, found.map some) ↔
      left = depth ∧ List.Forall₂ (fun name document =>
        ∃ value, IsOnlyMember members name value ∧ document = .ofJson value) names found := by
  simp only [Document.ofJson, fields]
  rw [mapM_ofMembers fun name item => rfl]
  simp only [Option.bind_eq_bind, Option.bind_some, Option.bind_eq_some_iff, Option.pure_def,
    Option.some.injEq, Prod.mk.injEq, mapM_eq_some_iff_forall₂, filter_map_ofJson]
  constructor
  · rintro ⟨_, hfound, rfl, rfl⟩
    rw [List.forall₂_map_right_iff] at hfound
    exact ⟨rfl, hfound.imp fun name document h => member_eq_some_iff.mp h⟩
  · rintro ⟨rfl, hfound⟩
    refine ⟨_, ?_, rfl, rfl⟩
    rw [List.forall₂_map_right_iff]
    exact hfound.imp fun name document h => member_eq_some_iff.mpr h

theorem fields_array_eq_some_iff {found : List Document} (h : found.length = names.length) :
    fields names (depth + 1) (.ofJson (.array items)) = some (left, found.map some) ↔
      left = depth ∧ found = items.map .ofJson := by
  simp only [Document.ofJson, fields, ofItems_eq_map, List.length_map]
  constructor
  · intro hfields
    split at hfields
    · obtain ⟨rfl, hfound⟩ := Prod.mk.inj (Option.some.inj hfields)
      refine ⟨rfl, ?_⟩
      cases hmissing : names.length - items.length with
      | zero =>
        rw [hmissing, List.replicate_zero, List.append_nil] at hfound
        exact (List.map_injective_iff.mpr (fun _ _ => Option.some.inj) hfound).symm
      | succ missing =>
        have hmem : none ∈ found.map some := by simp [← hfound, hmissing]
        simp at hmem
    · cases hfields
  · rintro ⟨rfl, rfl⟩
    rw [List.length_map] at h
    simp [h]

end Json.Decoder

namespace Query

open Json

variable {query : Query} {json : Json} {members : List (String × Json)} {depth : Nat}

/-- The values of the fields, in their order, are those of the query. A kind may stand for itself or
as the name of a member without a value. -/
structure HasFields (query : Query) (filter maxResults timeout exact kind : Json) : Prop where
  filter : filter = .string query.filter
  maxResults : query.maxResults < wordLimit ∧ maxResults = .natural query.maxResults
  timeout : ∃ n < wordLimit, timeout = .natural n ∧ query.timeout = .ofMilliseconds n
  exact : exact = .bool query.exact
  kind : kind = .string query.kind.name ∨ kind = .object [(query.kind.name, .null)]

inductive IsEncodedBy (query : Query) : Json → Prop where
  | inOrder {filter maxResults timeout exact kind : Json}
      (h : query.HasFields filter maxResults timeout exact kind) :
      IsEncodedBy query (.array [filter, maxResults, timeout, exact, kind])
  | byName {filter maxResults timeout exact kind : Json} {members : List (String × Json)}
      (hfilter : Decoder.IsOnlyMember members "filter_text" filter)
      (hmaxResults : Decoder.IsOnlyMember members "max_results" maxResults)
      (htimeout : Decoder.IsOnlyMember members "timeout" timeout)
      (hexact : Decoder.IsOnlyMember members "exact_match" exact)
      (hkind : Decoder.IsOnlyMember members "query_type" kind)
      (h : query.HasFields filter maxResults timeout exact kind) :
      IsEncodedBy query (.object members)

theorem Kind.lookup_eq_some_iff {kind : Kind} {text : String} :
    (Kind.all.map fun kind => (kind.name, kind)).lookup text = some kind ↔ text = kind.name := by
  constructor
  · intro h
    obtain ⟨before, after, hsplit, -⟩ := List.lookup_eq_some_iff.mp h
    have hmem : (text, kind) ∈ Kind.all.map fun kind => (kind.name, kind) := by simp [hsplit]
    obtain ⟨other, -, hother⟩ := List.mem_map.mp hmem
    obtain ⟨rfl, rfl⟩ := Prod.mk.inj hother
    rfl
  · rintro rfl
    cases kind <;> rfl

theorem ofJson_eq_string_iff {text : String} :
    Document.ofJson json = .string (some text) ↔ json = .string text := by
  cases json <;> simp [Document.ofJson]

theorem ofJson_eq_mark_iff {text : String} :
    Document.ofJson json = .object [(some text, .null)] ↔ json = .object [(text, .null)] := by
  cases json with
  | object members =>
    rcases members with _ | ⟨⟨name, value⟩, _ | _⟩
    · simp [Document.ofJson, Document.ofMembers]
    · cases value <;> simp [Document.ofJson, Document.ofMembers]
    · simp [Document.ofJson, Document.ofMembers]
  | _ => simp [Document.ofJson]

theorem Kind.decoder_ofJson_eq_some_iff {kind : Kind} :
    Kind.decoder (depth + 1) (.ofJson json) = some kind ↔
      json = .string kind.name ∨ json = .object [(kind.name, .null)] := by
  constructor
  · intro h
    unfold Kind.decoder Decoder.choice at h
    split at h
    · next text hdocument =>
      rw [← Kind.lookup_eq_some_iff.mp h]
      exact .inl (ofJson_eq_string_iff.mp hdocument)
    · next text hdocument =>
      rw [← Kind.lookup_eq_some_iff.mp h]
      exact .inr (ofJson_eq_mark_iff.mp hdocument)
    · cases h
  · rintro (rfl | rfl)
    · exact Kind.lookup_eq_some_iff.mpr rfl
    · exact Kind.lookup_eq_some_iff.mpr rfl

def fieldNames : List String :=
  ["filter_text", "max_results", "timeout", "exact_match", "query_type"]

theorem decoder_eq_some_iff {document : Document} :
    decoder depth document = some query ↔
      ∃ left filter maxResults timeout exact kind,
        Decoder.fields fieldNames depth document =
          some (left, [filter, maxResults, timeout, exact, kind].map some) ∧
        Decoder.string left filter = some query.filter ∧
        Decoder.natural left maxResults = some query.maxResults ∧
        (∃ n, Decoder.natural left timeout = some n ∧ query.timeout = .ofMilliseconds n) ∧
        Decoder.bool left exact = some query.exact ∧ Kind.decoder left kind = some query.kind := by
  constructor
  · intro h
    obtain ⟨⟨left, found⟩, hfields, h⟩ := Option.bind_eq_some_iff.mp h
    simp only at h
    split at h
    · next filter? maxResults? timeout? exactMatch? kind? =>
      simp only [Decoder.required, Option.bind_eq_bind, Option.bind_eq_some_iff, Option.pure_def,
        Option.some.injEq] at h
      obtain ⟨_, ⟨filter, rfl, hfilter⟩, _, ⟨maxResults, rfl, hmaxResults⟩, n,
        ⟨timeout, rfl, htimeout⟩, _, ⟨exact, rfl, hexact⟩, _, ⟨kind, rfl, hkind⟩, rfl⟩ := h
      exact ⟨left, filter, maxResults, timeout, exact, kind, hfields, hfilter, hmaxResults,
        ⟨n, htimeout, rfl⟩, hexact, hkind⟩
    · cases h
  · rintro ⟨left, filter, maxResults, timeout, exact, kind, hfields, hfilter, hmaxResults,
      ⟨n, htimeout, hquery⟩, hexact, hkind⟩
    refine Option.bind_eq_some_iff.mpr ⟨_, hfields, ?_⟩
    simp [Decoder.required, hfilter, hmaxResults, htimeout, hexact, hkind, ← hquery]

theorem hasFields_iff {filter maxResults timeout exact kind : Json} :
    query.HasFields filter maxResults timeout exact kind ↔
      Decoder.string (depth + 1) (.ofJson filter) = some query.filter ∧
      Decoder.natural (depth + 1) (.ofJson maxResults) = some query.maxResults ∧
      (∃ n, Decoder.natural (depth + 1) (.ofJson timeout) = some n ∧
        query.timeout = .ofMilliseconds n) ∧
      Decoder.bool (depth + 1) (.ofJson exact) = some query.exact ∧
      Kind.decoder (depth + 1) (.ofJson kind) = some query.kind := by
  simp only [Decoder.string_ofJson_eq_some_iff, Decoder.natural_ofJson_eq_some_iff,
    Decoder.bool_ofJson_eq_some_iff, Kind.decoder_ofJson_eq_some_iff]
  constructor
  · rintro ⟨hfilter, hmaxResults, ⟨n, hn, htimeout, hquery⟩, hexact, hkind⟩
    exact ⟨hfilter, hmaxResults, ⟨n, ⟨hn, htimeout⟩, hquery⟩, hexact, hkind⟩
  · rintro ⟨hfilter, hmaxResults, ⟨n, ⟨hn, htimeout⟩, hquery⟩, hexact, hkind⟩
    exact ⟨hfilter, hmaxResults, ⟨n, hn, htimeout, hquery⟩, hexact, hkind⟩

theorem decoder_ofJson_eq_some_iff :
    decoder (depth + 2) (.ofJson json) = some query ↔ query.IsEncodedBy json := by
  rw [decoder_eq_some_iff]
  constructor
  · rintro ⟨left, filter, maxResults, timeout, exact, kind, hfields, hvalues⟩
    cases json with
    | array items =>
      obtain ⟨rfl, hitems⟩ := (Decoder.fields_array_eq_some_iff rfl).mp hfields
      replace hitems := hitems.symm
      simp only [List.map_eq_cons_iff, List.map_eq_nil_iff] at hitems
      obtain ⟨filter, _, rfl, rfl, maxResults, _, rfl, rfl, timeout, _, rfl, rfl, exact, _, rfl,
        rfl, kind, _, rfl, rfl, rfl⟩ := hitems
      exact .inOrder (hasFields_iff.mpr hvalues)
    | object members =>
      obtain ⟨rfl, hmembers⟩ := Decoder.fields_object_eq_some_iff.mp hfields
      simp only [fieldNames, List.forall₂_cons] at hmembers
      obtain ⟨⟨filter, hfilter, rfl⟩, ⟨maxResults, hmaxResults, rfl⟩, ⟨timeout, htimeout, rfl⟩,
        ⟨exact, hexact, rfl⟩, ⟨kind, hkind, rfl⟩, -⟩ := hmembers
      exact .byName hfilter hmaxResults htimeout hexact hkind (hasFields_iff.mpr hvalues)
    | _ => cases hfields
  · rintro (@⟨filter, maxResults, timeout, exact, kind, h⟩ |
      @⟨filter, maxResults, timeout, exact, kind, members, hfilter, hmaxResults, htimeout, hexact,
        hkind, h⟩)
    · refine ⟨depth + 1, .ofJson filter, .ofJson maxResults, .ofJson timeout, .ofJson exact,
        .ofJson kind, (Decoder.fields_array_eq_some_iff rfl).mpr ⟨rfl, rfl⟩, hasFields_iff.mp h⟩
    · refine ⟨depth + 1, .ofJson filter, .ofJson maxResults, .ofJson timeout, .ofJson exact,
        .ofJson kind, Decoder.fields_object_eq_some_iff.mpr ⟨rfl, ?_⟩, hasFields_iff.mp h⟩
      exact .cons ⟨_, hfilter, rfl⟩ (.cons ⟨_, hmaxResults, rfl⟩ (.cons ⟨_, htimeout, rfl⟩
        (.cons ⟨_, hexact, rfl⟩ (.cons ⟨_, hkind, rfl⟩ .nil))))

/-- A query is read from a value exactly if the value encodes it. -/
theorem readValue?_eq_some_iff : decoder.readValue? json = some query ↔ query.IsEncodedBy json :=
  decoder_ofJson_eq_some_iff

end Query

end CodeNav
