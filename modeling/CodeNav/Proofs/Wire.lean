import CodeNav.Proofs.Json.Records
import CodeNav.Proofs.Json.Texts
import CodeNav.Wire

/-! # Queries and symbols read back

A query is read back with its timeout in whole milliseconds of a word, and otherwise as it was. A
symbol is read back as it was. No number in them is out of range.
-/

namespace CodeNav

open Json

variable {n depth : Nat}

theorem Json.sorted_natural (n : Nat) : (natural n).sorted = natural n := by
  unfold natural
  split <;> rfl

theorem Json.isExact_natural (h : n < wordLimit) : IsExact (natural n) := by
  rw [natural_of_lt h]
  exact .integer ..

theorem Json.fits_natural (n depth : Nat) : Fits depth (natural n) := by
  unfold natural
  split <;> exact .number ..

theorem Json.sortedMembers_eq_self {members : List (String × Json)}
    (h : ∀ member ∈ members, member.2.sorted = member.2) : sortedMembers members = members := by
  induction members with
  | nil => rfl
  | cons member members ih =>
    have hmembers := ih fun other hother => h other (List.mem_cons_of_mem _ hother)
    rw [sortedMembers, h member List.mem_cons_self, hmembers]

theorem Json.sorted_object {members : List (String × Json)}
    (h : ∀ member ∈ members, member.2.sorted = member.2) :
    (object members).sorted = .object (sortMembers members) := by
  rw [sorted, sortedMembers_eq_self h]

namespace Query

variable {query : Query}

def received (query : Query) : Query := { query with timeout := .ofMilliseconds query.wireTimeout }

theorem sortMembers_fields (filter maxResults timeout exact kind : Json) :
    sortMembers [("filter_text", filter), ("max_results", maxResults), ("timeout", timeout),
        ("exact_match", exact), ("query_type", kind)] =
      [("exact_match", exact), ("filter_text", filter), ("max_results", maxResults),
        ("query_type", kind), ("timeout", timeout)] :=
  rfl

theorem sorted_toJson (query : Query) :
    query.toJson.sorted =
      .object [
        ("exact_match", .bool query.exact),
        ("filter_text", .string query.filter),
        ("max_results", .natural query.maxResults),
        ("query_type", .string query.kind.name),
        ("timeout", .natural query.wireTimeout)] := by
  rw [toJson, sorted_object, sortMembers_fields]
  simp only [List.forall_mem_cons, List.not_mem_nil, false_imp_iff, implies_true, and_true]
  exact ⟨rfl, sorted_natural _, sorted_natural _, rfl, rfl⟩

theorem decoder_fields {filter maxResults timeout exact kind : Json} {milliseconds : Nat}
    (hfilter : Decoder.string depth (.ofJson filter) = some query.filter)
    (hmaxResults : Decoder.natural depth (.ofJson maxResults) = some query.maxResults)
    (htimeout : Decoder.natural depth (.ofJson timeout) = some milliseconds)
    (hexact : Decoder.bool depth (.ofJson exact) = some query.exact)
    (hkind : Kind.decoder depth (.ofJson kind) = some query.kind) :
    decoder (depth + 1)
        (.ofJson (.object [("exact_match", exact), ("filter_text", filter),
          ("max_results", maxResults), ("query_type", kind), ("timeout", timeout)])) =
      some { query with timeout := .ofMilliseconds milliseconds } := by
  rw [decoder, Decoder.fields_ofJson _ _ (by simp)]
  simp [Decoder.required, List.lookup_cons, hfilter, hmaxResults, htimeout, hexact, hkind]

theorem wireTimeout_lt (query : Query) : query.wireTimeout < wordLimit :=
  Nat.mod_lt _ (by decide)

theorem Kind.decoder_name (kind : Kind) (depth : Nat) :
    Kind.decoder depth (.ofJson (.string kind.name)) = some kind := by
  cases kind <;> rfl

theorem decoder_sorted (h : query.maxResults < wordLimit) (depth : Nat) :
    decoder (depth + 1) (.ofJson query.toJson.sorted) = some query.received := by
  rw [sorted_toJson]
  exact decoder_fields rfl (Decoder.natural_ofJson h depth)
    (Decoder.natural_ofJson (wireTimeout_lt query) depth) rfl (Kind.decoder_name query.kind depth)

theorem isExact_sorted (h : query.maxResults < wordLimit) : IsExact query.toJson.sorted := by
  rw [sorted_toJson]
  refine .cons (.bool _) (.cons (.string _) (.cons (isExact_natural h) (.cons (.string _) ?_)))
  exact .cons (isExact_natural (wireTimeout_lt query)) .nil

theorem fits_sorted (query : Query) (depth : Nat) : Fits (depth + 1) query.toJson.sorted := by
  rw [sorted_toJson]
  refine .object ?_ ?_
  · simp only [IsSorted, List.map_cons, List.map_nil]
    decide
  · simp only [List.forall_mem_cons, List.not_mem_nil, false_imp_iff, implies_true, and_true]
    exact ⟨.bool .., .string .., fits_natural .., .string .., fits_natural ..⟩

end Query

namespace Symbol

variable {symbol : Symbol} {symbols : List Symbol}

structure IsWord (symbol : Symbol) : Prop where
  startLine : symbol.startLine < wordLimit
  endLine : symbol.endLine < wordLimit
  startColumn : symbol.startColumn < wordLimit
  endColumn : symbol.endColumn < wordLimit

theorem sortMembers_fields (path startLine endLine startColumn endColumn text : Json) :
    sortMembers [("file_path", path), ("start_line", startLine), ("end_line", endLine),
        ("start_column", startColumn), ("end_column", endColumn), ("text", text)] =
      [("end_column", endColumn), ("end_line", endLine), ("file_path", path),
        ("start_column", startColumn), ("start_line", startLine), ("text", text)] :=
  rfl

theorem sorted_toJson (symbol : Symbol) :
    symbol.toJson.sorted =
      .object [
        ("end_column", .natural symbol.endColumn),
        ("end_line", .natural symbol.endLine),
        ("file_path", .string symbol.path),
        ("start_column", .natural symbol.startColumn),
        ("start_line", .natural symbol.startLine),
        ("text", .string symbol.text)] := by
  rw [toJson, sorted_object, sortMembers_fields]
  simp only [List.forall_mem_cons, List.not_mem_nil, false_imp_iff, implies_true, and_true]
  exact ⟨rfl, sorted_natural _, sorted_natural _, sorted_natural _, sorted_natural _, rfl⟩

theorem decoder_fields {path startLine endLine startColumn endColumn text : Json}
    (hpath : Decoder.string depth (.ofJson path) = some symbol.path)
    (hstartLine : Decoder.natural depth (.ofJson startLine) = some symbol.startLine)
    (hendLine : Decoder.natural depth (.ofJson endLine) = some symbol.endLine)
    (hstartColumn : Decoder.natural depth (.ofJson startColumn) = some symbol.startColumn)
    (hendColumn : Decoder.natural depth (.ofJson endColumn) = some symbol.endColumn)
    (htext : Decoder.string depth (.ofJson text) = some symbol.text) :
    decoder (depth + 1)
        (.ofJson (.object [("end_column", endColumn), ("end_line", endLine), ("file_path", path),
          ("start_column", startColumn), ("start_line", startLine), ("text", text)])) =
      some symbol := by
  rw [decoder, Decoder.fields_ofJson _ _ (by simp)]
  simp [Decoder.required, List.lookup_cons, hpath, hstartLine, hendLine, hstartColumn, hendColumn,
    htext]

theorem decoder_sorted (h : symbol.IsWord) (depth : Nat) :
    decoder (depth + 1) (.ofJson symbol.toJson.sorted) = some symbol := by
  rw [sorted_toJson]
  exact decoder_fields rfl (Decoder.natural_ofJson h.startLine depth)
    (Decoder.natural_ofJson h.endLine depth) (Decoder.natural_ofJson h.startColumn depth)
    (Decoder.natural_ofJson h.endColumn depth) rfl

theorem isExact_sorted (h : symbol.IsWord) : IsExact symbol.toJson.sorted := by
  rw [sorted_toJson]
  refine .cons (isExact_natural h.endColumn) (.cons (isExact_natural h.endLine)
    (.cons (.string _) ?_))
  exact .cons (isExact_natural h.startColumn) (.cons (isExact_natural h.startLine)
    (.cons (.string _) .nil))

theorem fits_sorted (symbol : Symbol) (depth : Nat) : Fits (depth + 1) symbol.toJson.sorted := by
  rw [sorted_toJson]
  refine .object ?_ ?_
  · simp only [IsSorted, List.map_cons, List.map_nil]
    decide
  · simp only [List.forall_mem_cons, List.not_mem_nil, false_imp_iff, implies_true, and_true]
    exact ⟨fits_natural .., fits_natural .., .string .., fits_natural .., fits_natural ..,
      .string ..⟩

theorem sorted_listToJson (symbols : List Symbol) :
    (listToJson symbols).sorted = .array (symbols.map fun symbol => symbol.toJson.sorted) := by
  rw [listToJson, sorted]
  congr 1
  induction symbols with
  | nil => rfl
  | cons symbol symbols ih => simp [sortedItems, ih]

theorem list_decoder_sorted (h : ∀ symbol ∈ symbols, symbol.IsWord) (depth : Nat) :
    Decoder.list decoder (depth + 2) (.ofJson (listToJson symbols).sorted) = some symbols := by
  rw [sorted_listToJson]
  exact Decoder.list_ofJson fun symbol hsymbol => decoder_sorted (h symbol hsymbol) depth

theorem isExact_sorted_listToJson (h : ∀ symbol ∈ symbols, symbol.IsWord) :
    IsExact (listToJson symbols).sorted := by
  rw [sorted_listToJson]
  refine .array (List.forall_mem_map.mpr fun symbol hsymbol => ?_)
  exact isExact_sorted (h symbol hsymbol)

theorem fits_sorted_listToJson (symbols : List Symbol) (depth : Nat) :
    Fits (depth + 2) (listToJson symbols).sorted := by
  rw [sorted_listToJson]
  exact .array (List.forall_mem_map.mpr fun symbol _ => fits_sorted symbol depth)

end Symbol

end CodeNav
