import CodeNav.Checkout.Word
import CodeNav.Client
import CodeNav.Supplement

/-! # Navigation

Go to a definition, find references, and search symbols by the start of their names.
-/

namespace CodeNav

structure Navigator where
  client : Client
  /-- Bound on each remote round trip. -/
  timeout : Duration

namespace Navigator

inductive Error where
  | unreadable (cause : Checkout.ReadError)
  | clock (cause : ClockError)
  deriving DecidableEq, Repr

def ask (navigator : Navigator) (backend : Backend) (now : Instant) (query : Query) :
    Except ClockError (Client.Answer (List Symbol)) :=
  navigator.client.ask backend now now query

def definitionQuery (navigator : Navigator) (word : List Char) : Query :=
  .capped (String.ofList word) 1 navigator.timeout true .definitions

def definition (navigator : Navigator) (backend : Backend) (now : Instant) (tree : FileTree)
    (path : String) (line column : Nat) : Except Error (Client.Answer (Option Symbol)) :=
  match Checkout.wordAt tree path line column with
  | .error cause => .error (.unreadable cause)
  | .ok none => .ok { value := none, client := navigator.client }
  | .ok (some word) =>
    match navigator.ask backend now (navigator.definitionQuery word) with
    | .error cause => .error (.clock cause)
    | .ok answer => .ok { answer with value := answer.value.head? }

/-- The query for the references to a name, which has to begin with a letter. -/
def referencesQuery? (navigator : Navigator) (name : List Char) : Option Query :=
  let name := Text.trim name
  if name.head?.any Text.isLetter then
    some (.capped (String.ofList name) Query.maxFiles navigator.timeout true .references)
  else none

/-- The references to a name outside the files of the workspace. -/
def references (navigator : Navigator) (backend : Backend) (now : Instant) (name : List Char)
    (workspace : List Symbol) : Except ClockError (Client.Answer (List Symbol)) :=
  match navigator.referencesQuery? name with
  | none => .ok { value := [], client := navigator.client }
  | some query => do
    let answer ← navigator.ask backend now query
    return { answer with value := supplement workspace answer.value }

/-- The query for the symbols that begin with a filter, which has to have some length. -/
def symbolsQuery? (navigator : Navigator) (filter : List Char) (maxItems minLength : Nat) :
    Option Query :=
  if filter.length = 0 ∨ filter.length < minLength then none
  else
    some (.capped (String.ofList filter) (min maxItems Query.maxFiles) navigator.timeout false
      .definitions)

/-- The symbols that begin with a filter, outside the files of the workspace. -/
def symbols (navigator : Navigator) (backend : Backend) (now : Instant) (filter : List Char)
    (maxItems minLength : Nat) (workspace : List Symbol) :
    Except ClockError (Client.Answer (List Symbol)) :=
  match navigator.symbolsQuery? filter maxItems minLength with
  | none => .ok { value := [], client := navigator.client }
  | some query => do
    let answer ← navigator.ask backend now query
    return { answer with value := supplement workspace answer.value }

end Navigator

end CodeNav
