import CodeNav.Query

/-! # Settings

Where and how a search runs. Every setting has a default.
-/

namespace CodeNav

inductive Settings.Mode where
  /-- In this process. -/
  | direct
  /-- In a child process, over the bridge. -/
  | bridged
  deriving DecidableEq, Repr

namespace Settings.Mode

def all : List Mode := [direct, bridged]

def name : Mode → String
  | direct => "direct"
  | bridged => "bridged"

/-- Reads a name without regard to the case of ASCII letters. -/
def parse? (text : String) : Option Mode :=
  all.find? fun mode => Text.equalsIgnoringAsciiCase mode.name text

end Settings.Mode

structure Settings where
  mode : Settings.Mode := .bridged
  timeoutSeconds : Nat := 5
  /-- Results requested from the index. -/
  maxResults : Nat := Query.maxFiles
  cacheTtlSeconds : Nat := 300
  /-- How long the bridge waits for its child to connect. -/
  connectTimeoutSeconds : Nat := 30
  branch : String := "master"
  /-- Restricts searches to one file extension. -/
  fileExtension? : Option String := none
  /-- Stands for the address derived from the project. -/
  endpoint? : Option String := none
  token? : Option String := none
  /-- The executable of the bridge child, where it is not this program. -/
  executable? : Option String := none
  deriving DecidableEq, Repr

namespace Settings

def timeout (settings : Settings) : Duration := .ofSeconds settings.timeoutSeconds

def cacheTtl (settings : Settings) : Duration := .ofSeconds settings.cacheTtlSeconds

def connectTimeout (settings : Settings) : Duration := .ofSeconds settings.connectTimeoutSeconds

end Settings

end CodeNav
