import CodeNav.Index.Exchange
import CodeNav.Proofs.Checkout.Groups
import CodeNav.Proofs.Wire.Encodings

/-! # From a response to groups

A response lists matches file by file, and those of a file by category. Its groups hold the matches
in content, each once and under the path of its file, in the order of the response.
-/

namespace CodeNav

namespace Json.Decoder

variable {α : Type} {decoder : Decoder α} {entries : List (String × α)} {depth : Nat}
  {document : Document}

theorem names_insertEntry (entries : List (String × α)) (name : String) (value : α) :
    (insertEntry entries name value).map Prod.fst =
      if name ∈ entries.map Prod.fst then entries.map Prod.fst
      else entries.map Prod.fst ++ [name] := by
  induction entries with
  | nil => rfl
  | cons entry entries ih =>
    obtain ⟨other, held⟩ := entry
    rw [insertEntry]
    by_cases h : other = name
    · simp [h]
    · rw [if_neg h, List.map_cons, ih]
      have hne : name ≠ other := Ne.symm h
      by_cases hmem : name ∈ entries.map Prod.fst
      · simp only [List.map_cons, List.mem_cons, hmem, or_true, if_true]
      · simp only [List.map_cons, List.mem_cons, hne, hmem, or_self, if_false, List.cons_append]

theorem nodup_names_dictionary (h : dictionary decoder depth document = some entries) :
    (entries.map Prod.fst).Nodup := by
  unfold dictionary at h
  split at h
  · simp only [Option.bind_eq_bind, Option.bind_eq_some_iff, Option.pure_def,
      Option.some.injEq] at h
    obtain ⟨read, -, rfl⟩ := h
    refine List.foldlRecOn (motive := fun known => (List.map Prod.fst known).Nodup) read _
      List.nodup_nil ?_
    intro known hknown entry _
    rw [names_insertEntry]
    exact nodup_append_new hknown entry.1
  · cases h

theorem exists_of_mem_list {items : List α} {item : α}
    (h : list decoder depth document = some items) (hmem : item ∈ items) :
    ∃ depth document, decoder depth document = some item := by
  unfold list at h
  split at h
  · rename_i depth documents
    have hread := mapM_eq_some_iff_forall₂.mp h
    clear h
    induction hread with
    | nil => cases hmem
    | cons hfirst _ ih =>
      rcases List.mem_cons.mp hmem with rfl | hmem
      · exact ⟨depth, _, hfirst⟩
      · exact ih hmem
  · cases h

/-- Looking a name up finds all that stands under it, if there is one entry for each name. -/
theorem getD_lookup_eq_flatMap {β : Type} {entries : List (String × List β)}
    (h : (entries.map Prod.fst).Nodup) (name : String) :
    (entries.lookup name).getD [] = (entries.filter (·.1 = name)).flatMap Prod.snd := by
  induction entries with
  | nil => rfl
  | cons entry entries ih =>
    obtain ⟨other, held⟩ := entry
    rw [List.map_cons, List.nodup_cons] at h
    by_cases hname : other = name
    · subst hname
      have hrest : entries.filter (·.1 = other) = [] := by
        rw [List.filter_eq_nil_iff]
        intro entry hmem heq
        exact h.1 (List.mem_map.mpr ⟨entry, hmem, of_decide_eq_true heq⟩)
      simp [hrest]
    · have hother : (name == other) = false := beq_eq_false_iff_ne.mpr (Ne.symm hname)
      simpa [List.lookup_cons, hother, hname] using ih h.2

end Json.Decoder

namespace Index

open Json Json.Decoder

def Result.hitsIn (category : String) (result : Result) : List Hit :=
  (result.found.filter (·.1 = category)).flatMap fun (_, found) =>
    found.map fun m => ⟨result.path, m.offset, m.length⟩

namespace Response

/-- Each file lists a category once. -/
def IsKeyed (response : Response) : Prop :=
  ∀ result ∈ response.results, (result.found.map Prod.fst).Nodup

instance (response : Response) : Decidable response.IsKeyed :=
  inferInstanceAs (Decidable (∀ result ∈ response.results, _))

def hitsIn (category : String) (response : Response) : List Hit :=
  response.results.flatMap (Result.hitsIn category)

def contentUnder (response : Response) (path : String) : List Hit :=
  (response.results.filter (·.path = path)).flatMap (Result.hitsIn Result.contentCategory)

end Response

variable {response : Response} {result : Result} {hit : Hit} {depth : Nat} {document : Document}

theorem Result.nodup_of_decoder (h : Result.decoder depth document = some result) :
    (result.found.map Prod.fst).Nodup := by
  simp only [Result.decoder, Option.bind_eq_bind, Option.bind_eq_some_iff] at h
  obtain ⟨⟨left, fields⟩, -, h⟩ := h
  split at h
  · next path found _ =>
    simp only [Option.bind_eq_some_iff, Option.pure_def, Option.some.injEq] at h
    obtain ⟨path, -, entries, hfound, rfl⟩ := h
    cases found with
    | none =>
      obtain rfl : [] = entries := Option.some.inj hfound
      exact List.nodup_nil
    | some item => exact nodup_names_dictionary hfound
  · cases h

/-- In a response that is read, each file lists a category once. -/
theorem Response.isKeyed_of_decoder (h : Response.decoder depth document = some response) :
    response.IsKeyed := by
  simp only [Response.decoder, Option.bind_eq_bind, Option.bind_eq_some_iff] at h
  obtain ⟨⟨left, fields⟩, -, h⟩ := h
  split at h
  · next count results _ =>
    simp only [Option.bind_eq_some_iff, Option.pure_def, Option.some.injEq] at h
    obtain ⟨count, -, read, hread, rfl⟩ := h
    intro result hmem
    cases results with
    | none =>
      obtain rfl : [] = read := Option.some.inj hread
      cases hmem
    | some item =>
      obtain ⟨_, _, hresult⟩ := exists_of_mem_list hread hmem
      exact Result.nodup_of_decoder hresult
  · cases h

theorem Result.path_of_mem_hitsIn {category : String} (h : hit ∈ result.hitsIn category) :
    hit.path = result.path := by
  simp only [hitsIn, List.mem_flatMap, List.mem_map] at h
  obtain ⟨entry, -, found, -, rfl⟩ := h
  rfl

theorem Result.hits_eq (h : (result.found.map Prod.fst).Nodup) :
    result.hits = result.hitsIn contentCategory := by
  rw [hits, contentMatches, getD_lookup_eq_flatMap h, hitsIn, List.map_flatMap]

theorem Response.hits_eq (h : response.IsKeyed) :
    response.hits = response.hitsIn Result.contentCategory :=
  List.flatMap_congr fun result hmem => Result.hits_eq (h result hmem)

theorem Response.filter_hits (h : response.IsKeyed) (path : String) :
    response.hits.filter (·.path = path) = response.contentUnder path := by
  rw [Response.hits_eq h, hitsIn, contentUnder]
  induction response.results with
  | nil => rfl
  | cons result results ih =>
    rw [List.flatMap_cons, List.filter_append, ih]
    by_cases hpath : result.path = path
    · have hall : (result.hitsIn Result.contentCategory).filter (·.path = path) =
          result.hitsIn Result.contentCategory :=
        List.filter_eq_self.mpr fun hit hmem => by
          simp [Result.path_of_mem_hitsIn hmem, hpath]
      simp [hall, hpath]
    · have hnone : (result.hitsIn Result.contentCategory).filter (·.path = path) = [] :=
        List.filter_eq_nil_iff.mpr fun hit hmem => by
          simp [Result.path_of_mem_hitsIn hmem, hpath]
      simp [hnone, hpath]

end Index

namespace Checkout

open Index

/-- The groups hold the hits in content of a response, and no other hits. -/
structure HoldsContent (response : Response) (groups : List Group) : Prop where
  paths_nodup : (groups.map Group.path).Nodup
  /-- In the group of a path are the hits of all files with that path, in their order. -/
  mem_iff : ∀ path hits, ⟨path, hits⟩ ∈ groups ↔
    hits = response.contentUnder path ∧ response.contentUnder path ≠ []
  absent_iff : ∀ path, path ∉ groups.map Group.path ↔ response.contentUnder path = []
  hits_perm : (groups.flatMap Group.hits).Perm (response.hitsIn Result.contentCategory)

/-- The hits of a response that has one place for each category of a file are grouped by the paths
of the files. -/
theorem holdsContent_groupByPath {response : Response} (h : response.IsKeyed) :
    HoldsContent response (groupByPath response.hits) where
  paths_nodup := nodup_paths_groupByPath _
  mem_iff path hits := by
    rw [mem_groupByPath_iff, Response.filter_hits h]
    exact ⟨fun ⟨heq, hne⟩ => ⟨heq, heq ▸ hne⟩, fun ⟨heq, hne⟩ => ⟨heq, heq ▸ hne⟩⟩
  absent_iff path := by
    rw [mem_paths_groupByPath_iff, Response.filter_hits h, not_not]
  hits_perm := Response.hits_eq h ▸ flatMap_hits_groupByPath response.hits

def repeatedFile : Response where
  count := 3
  results := [
    ⟨"/a.cs", [("content", [⟨4, 2⟩, ⟨4, 2⟩]), ("fileName", [⟨0, 1⟩])]⟩,
    ⟨"/b.cs", [("fileName", [⟨0, 1⟩])]⟩,
    ⟨"/a.cs", [("content", [⟨1, 2⟩])]⟩]

theorem holdsContent_repeatedFile :
    repeatedFile.IsKeyed ∧
      ⟨"/a.cs", [⟨"/a.cs", 4, 2⟩, ⟨"/a.cs", 4, 2⟩, ⟨"/a.cs", 1, 2⟩]⟩ ∈
        groupByPath repeatedFile.hits ∧
      "/b.cs" ∉ (groupByPath repeatedFile.hits).map Group.path := by
  have hkeyed : repeatedFile.IsKeyed := by decide
  have hholds := holdsContent_groupByPath hkeyed
  exact ⟨hkeyed, (hholds.mem_iff _ _).mpr (by decide), (hholds.absent_iff _).mpr (by decide)⟩

end Checkout

end CodeNav
