import CodeNav.Json.Decoder
import CodeNav.Placement

/-! # Requests to the index and its responses

The index takes a search text with filters and answers with files. Each file carries its hits by
category, of which only the hits in the content of the file are of use.
-/

namespace CodeNav.Index

open Json

structure Request where
  searchText : String
  skip : Nat
  top : Nat
  /-- For each property of a file, the values that it may have. -/
  filters : List (String × List String)
  includeFacets : Bool
  deriving DecidableEq, Repr

namespace Request

def toJson (request : Request) : Json :=
  .object [
    ("searchText", .string request.searchText),
    ("$skip", .natural request.skip),
    ("$top", .natural request.top),
    ("filters", .object (request.filters.map fun (name, values) => (name, .strings values))),
    ("includeFacets", .bool request.includeFacets)]

def decoder : Decoder Request := fun depth document => do
  let (depth, fields) ← Decoder.fields
    ["searchText", "$skip", "$top", "filters", "includeFacets"] depth document
  match fields with
  | [searchText, skip, top, filters, includeFacets] =>
    return {
      searchText := ← Decoder.required Decoder.string depth searchText
      skip := ← Decoder.required Decoder.natural depth skip
      top := ← Decoder.required Decoder.natural depth top
      filters := ← Decoder.required (Decoder.dictionary (Decoder.list Decoder.string)) depth filters
      includeFacets := ← Decoder.required Decoder.bool depth includeFacets }
  | _ => none

end Request

structure Match where
  offset : Nat
  length : Nat
  deriving DecidableEq, Repr

namespace Match

def toJson (m : Match) : Json :=
  .object [("charOffset", .natural m.offset), ("length", .natural m.length)]

def decoder : Decoder Match := fun depth document => do
  let (depth, fields) ← Decoder.fields ["charOffset", "length"] depth document
  match fields with
  | [offset, length] =>
    return {
      offset := ← Decoder.required Decoder.natural depth offset
      length := ← Decoder.required Decoder.natural depth length }
  | _ => none

end Match

/-- A file that the index found, with its matches by category. -/
structure Result where
  path : String
  found : List (String × List Match)
  deriving DecidableEq, Repr

namespace Result

def contentCategory : String := "content"

def contentMatches (result : Result) : List Match :=
  (result.found.lookup contentCategory).getD []

def hits (result : Result) : List Hit :=
  result.contentMatches.map fun m => ⟨result.path, m.offset, m.length⟩

def toJson (result : Result) : Json :=
  .object [
    ("path", .string result.path),
    ("matches", .object (result.found.map fun (category, found) =>
      (category, .array (found.map Match.toJson))))]

def decoder : Decoder Result := fun depth document => do
  let (depth, fields) ← Decoder.fields ["path", "matches"] depth document
  match fields with
  | [path, found] =>
    return {
      path := ← Decoder.required Decoder.string depth path
      found := ← Decoder.defaulted [] (Decoder.dictionary (Decoder.list Match.decoder)) depth found }
  | _ => none

end Result

structure Response where
  count : Nat
  results : List Result
  deriving DecidableEq, Repr

namespace Response

/-- The hits in the content of all files, in the order of the response. -/
def hits (response : Response) : List Hit := response.results.flatMap Result.hits

def toJson (response : Response) : Json :=
  .object [
    ("count", .natural response.count),
    ("results", .array (response.results.map Result.toJson))]

def decoder : Decoder Response := fun depth document => do
  let (depth, fields) ← Decoder.fields ["count", "results"] depth document
  match fields with
  | [count, results] =>
    return {
      count := ← Decoder.defaulted 0 Decoder.natural depth count
      results := ← Decoder.defaulted [] (Decoder.list Result.decoder) depth results }
  | _ => none

end Response

def apiVersion : String := "7.1"

def endpointOf (projectUri : String) : String :=
  String.ofList (Text.dropTrailing '/' projectUri.toList) ++
    "/_apis/search/codesearchresults?api-version=" ++ apiVersion

end CodeNav.Index
