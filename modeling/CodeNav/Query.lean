import CodeNav.Clock
import CodeNav.Text.AsciiCase

/-! # Queries

A query asks the remote index for definitions of, or references to, the identifiers that a filter
selects.
-/

namespace CodeNav

inductive Query.Kind where
  | definitions
  | references
  deriving DecidableEq, Repr

namespace Query.Kind

def all : List Kind := [definitions, references]

def name : Kind → String
  | definitions => "find-definitions"
  | references => "find-references"

/-- The qualifier of the index in front of the filter. References have none, since the qualifier
of the index for them misses too many uses. -/
def qualifier : Kind → String
  | definitions => "def:"
  | references => ""

def isReferences : Kind → Bool
  | definitions => false
  | references => true

def ofName? (text : String) : Option Kind := all.find? (·.name == text)

/-- Reads a name without regard to the case of ASCII letters. -/
def parse? (text : String) : Option Kind :=
  all.find? fun kind => Text.equalsIgnoringAsciiCase kind.name text

end Query.Kind

structure Query where
  /-- An identifier, or the start of one. -/
  filter : String
  /-- The number of files that the index may return. -/
  maxResults : Nat
  /-- Bound on the remote round trip. -/
  timeout : Duration
  /-- Whether the whole text has to match, with regard to case. -/
  exact : Bool
  kind : Query.Kind
  deriving DecidableEq, Repr

namespace Query

/-- The greatest number of files that is asked for. -/
def maxFiles : Nat := 200

/-- Bound on a remote round trip where the caller sets none. -/
def defaultTimeout : Duration := .ofSeconds 5

/-- A query for at most `maxFiles` files. -/
def capped (filter : String) (maxResults : Nat) (timeout : Duration) (exact : Bool)
    (kind : Kind) : Query :=
  ⟨filter, min maxResults maxFiles, timeout, exact, kind⟩

/-- The filter as the index writes it, with a star after a filter that is only a start. -/
def pattern (query : Query) : String :=
  query.kind.qualifier ++ query.filter ++ if query.exact then "" else "*"

def cacheKey (query : Query) : String := query.pattern

/-- The text that is sent to the index, restricted to one file extension if there is one. -/
def searchText (query : Query) (extension? : Option String) : String :=
  match extension? with
  | some extension => "ext:" ++ extension ++ " " ++ query.pattern
  | none => query.pattern

end Query

end CodeNav
