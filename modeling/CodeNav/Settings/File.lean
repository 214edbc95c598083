import CodeNav.Files.Tree
import CodeNav.Settings.Environment
import CodeNav.Text.Utf8
import CodeNav.Toml.Parser

/-! # The settings file

A checkout may hold a settings file, of which the table `search` is read. The table may also be
given as an array of its settings in their declared order. What it does not mention keeps its
default, and what it does not know is passed over.
-/

namespace CodeNav

namespace Toml

def string? : Toml → Option String
  | string s => some s
  | _ => none

def natural? : Toml → Option Nat
  | integer n => if 0 ≤ n then some n.toNat else none
  | _ => none

/-- Whether the value is a table or an array without entries. -/
def isEmpty : Toml → Bool
  | array items => items.isEmpty
  | table members => members.isEmpty
  | _ => false

/-- The fields of a record, given by name or by position. A date counts as a record without any of
them. -/
def fields? (names : List String) : Toml → Option (List (Option Toml))
  | table members => some (names.map fun name => members.lookup name)
  | array items =>
    if items.length ≤ names.length then
      some (items.map some ++ List.replicate (names.length - items.length) none)
    else none
  | date => some (names.map fun _ => none)
  | _ => none

end Toml

namespace Settings

def directoryName : String := ".fastnav"

def fileName : String := "config.toml"

def path (root : String) : String := Path.join (Path.join root directoryName) fileName

def tableName : String := "search"

inductive LoadError where
  | unreadable (path : String) (cause : FileError)
  | badDocument (path : String)
  | badTable
  | badVariable (cause : VariableError)
  deriving DecidableEq, Repr

/-- What was attempted when the error came up. -/
def LoadError.message : LoadError → String
  | unreadable path _ => "Failed to read " ++ path
  | badDocument path => "Failed to parse " ++ path
  | badTable => "Failed to parse [" ++ tableName ++ "] section"
  | badVariable cause => cause.chain.outermost

/-- The error with its cause, as far as the cause has a fixed wording. -/
def LoadError.chain : LoadError → ErrorChain
  | unreadable path cause =>
    (ErrorChain.root cause.message).within (LoadError.message (unreadable path cause))
  | badVariable cause => cause.chain
  | error => ErrorChain.root error.message

/-- A mode is given by its name, or as the name of the only member, which is empty. -/
def Mode.ofToml? : Toml → Option Mode
  | .string s => Mode.all.find? (·.name == s)
  | .table [(name, value)] => if value.isEmpty then Mode.all.find? (·.name == name) else none
  | _ => none

def fieldNames : List String :=
  ["mode", "timeout_secs", "max_results", "cache_ttl_secs", "connect_timeout_secs", "branch",
    "file_extension", "endpoint", "personal_access_token", "client_executable"]

def fieldOr (default : α) (read? : Toml → Option α) : Option Toml → Option α
  | none => some default
  | some value => read? value

def text? : Option Toml → Option (Option String) := fieldOr none fun value => value.string?.map some

def ofToml? (value : Toml) : Option Settings := do
  match ← value.fields? fieldNames with
  | [mode, timeout, maxResults, cacheTtl, connectTimeout, branch, fileExtension, endpoint, token,
      executable] =>
    let defaults : Settings := {}
    return {
      mode := ← fieldOr defaults.mode Mode.ofToml? mode
      timeoutSeconds := ← fieldOr defaults.timeoutSeconds Toml.natural? timeout
      maxResults := ← fieldOr defaults.maxResults Toml.natural? maxResults
      cacheTtlSeconds := ← fieldOr defaults.cacheTtlSeconds Toml.natural? cacheTtl
      connectTimeoutSeconds := ← fieldOr defaults.connectTimeoutSeconds Toml.natural? connectTimeout
      branch := ← fieldOr defaults.branch Toml.string? branch
      fileExtension? := ← text? fileExtension
      endpoint? := ← text? endpoint
      token? := ← text? token
      executable? := ← text? executable }
  | _ => none

/-- The settings that the file of a checkout gives. Without a file all have their defaults. -/
def ofFile (tree : FileTree) (root : String) : Except LoadError Settings := do
  let path := path root
  unless tree.exists? path do return {}
  let bytes ← (tree.read path).mapError (.unreadable path)
  let text ← ((Text.Utf8.strict? bytes).elim (.error (.unreadable path .notText)) .ok)
  let document ← (Toml.ofText? text).elim (.error (.badDocument path)) .ok
  match document.lookup tableName with
  | none => return {}
  | some table => (ofToml? table).elim (.error .badTable) .ok

/-- The settings of a checkout: its file, then the environment. -/
def load (tree : FileTree) (environment : Environment) (root : String) :
    Except LoadError Settings := do
  let overridden := (← ofFile tree root).override environment
  match overridden.error? with
  | some error => throw (.badVariable error)
  | none => return overridden.settings

end Settings

end CodeNav
