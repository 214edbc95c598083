import CodeNav.Json.Decoder
import CodeNav.Query
import CodeNav.Symbol

/-! # Queries and symbols as JSON

Records are written with their fields in the declared order. A timeout travels as whole
milliseconds in a word, so a longer one loses its upper bits.
-/

namespace CodeNav

open Json

namespace Query

def Kind.decoder : Decoder Kind := Decoder.choice (all.map fun kind => (kind.name, kind))

/-- The timeout as it is written: whole milliseconds modulo the size of a word. -/
def wireTimeout (query : Query) : Nat := query.timeout.milliseconds % wordLimit

def toJson (query : Query) : Json :=
  .object [
    ("filter_text", .string query.filter),
    ("max_results", .natural query.maxResults),
    ("timeout", .natural query.wireTimeout),
    ("exact_match", .bool query.exact),
    ("query_type", .string query.kind.name)]

def decoder : Decoder Query := fun depth document => do
  let (depth, fields) ← Decoder.fields
    ["filter_text", "max_results", "timeout", "exact_match", "query_type"] depth document
  match fields with
  | [filter, maxResults, timeout, exact, kind] =>
    return {
      filter := ← Decoder.required Decoder.string depth filter
      maxResults := ← Decoder.required Decoder.natural depth maxResults
      timeout := .ofMilliseconds (← Decoder.required Decoder.natural depth timeout)
      exact := ← Decoder.required Decoder.bool depth exact
      kind := ← Decoder.required Kind.decoder depth kind }
  | _ => none

end Query

namespace Symbol

def toJson (symbol : Symbol) : Json :=
  .object [
    ("file_path", .string symbol.path),
    ("start_line", .natural symbol.startLine),
    ("end_line", .natural symbol.endLine),
    ("start_column", .natural symbol.startColumn),
    ("end_column", .natural symbol.endColumn),
    ("text", .string symbol.text)]

def decoder : Decoder Symbol := fun depth document => do
  let (depth, fields) ← Decoder.fields
    ["file_path", "start_line", "end_line", "start_column", "end_column", "text"] depth document
  match fields with
  | [path, startLine, endLine, startColumn, endColumn, text] =>
    return {
      path := ← Decoder.required Decoder.string depth path
      startLine := ← Decoder.required Decoder.natural depth startLine
      endLine := ← Decoder.required Decoder.natural depth endLine
      startColumn := ← Decoder.required Decoder.natural depth startColumn
      endColumn := ← Decoder.required Decoder.natural depth endColumn
      text := ← Decoder.required Decoder.string depth text }
  | _ => none

def listToJson (symbols : List Symbol) : Json := .array (symbols.map toJson)

end Symbol

end CodeNav
