import CodeNav.CommandLine.Reader
import CodeNav.Clock

/-! # The commands of the program

Every command has an option for the directory to work in and one that makes the log more verbose.
Where they are given after the name of the command, they replace what is given before it.
-/

namespace CodeNav.CommandLine

structure Output where
  json : Bool
  pretty : Bool
  plain : Bool
  deriving DecidableEq, Repr

/-- What the child of a bridge is told on its command line. -/
structure ChildOptions where
  root : String
  projectUri : String
  projectName : String
  repositoryName : String
  /-- The name of the channel to its host. -/
  channel : String
  deriving DecidableEq, Repr

inductive Command where
  | query (filter : String) (kind : Query.Kind) (exact : Bool) (maxResults? timeoutMs? : Option Nat)
      (output : Output)
  | definition (file : String) (line column : Nat) (output : Output)
  | references (name : String) (output : Output)
  | symbols (filter : String) (maxItems minLength : Nat) (output : Output)
  | repositoryInfo (json : Bool)
  | serve (options : ChildOptions)
  deriving DecidableEq, Repr

structure Invocation where
  verbosity : Nat
  directory : String
  command : Command
  deriving DecidableEq, Repr

def queryName : String := "query"
def definitionName : String := "definition"
def referencesName : String := "references"
def symbolsName : String := "symbols"
def repositoryInfoName : String := "repo-info"
def serveName : String := "bridge-serve-internal"
def helpName : String := "help"

def commandNames : List String :=
  [queryName, definitionName, referencesName, symbolsName, repositoryInfoName, serveName]

def verboseOption : Parameter := ⟨"verbose", some 'v', .count⟩

def directoryOption : Parameter := ⟨"dir", some 'C', .set .path⟩

def commonOptions : List Parameter := [verboseOption, directoryOption, ⟨"help", some 'h', .help⟩]

def outputOptions : List Parameter :=
  [⟨"json", none, .switch⟩, ⟨"pretty", none, .switch⟩, ⟨"plain", none, .switch⟩]

/-- A parameter without a letter that takes a value. -/
def named (name : String) (kind : ValueKind) : Parameter := ⟨name, none, .set kind⟩

/-- The arguments before the name of a command. -/
def topGrammar : Grammar where
  options := commonOptions ++ [⟨"version", some 'V', .version⟩]
  commands := commandNames ++ [helpName]

/-- The arguments after the name of a command. -/
def grammarOf (name : String) : Grammar :=
  if name = queryName then
    { options := commonOptions ++ outputOptions ++
        [⟨"type", some 't', .set .queryKind⟩, ⟨"exact", some 'e', .switch⟩,
          ⟨"max-results", some 'n', .set .number⟩, named "timeout-ms" .number]
      operands := [named "filter" .text] }
  else if name = definitionName then
    { options := commonOptions ++ outputOptions
      operands := [named "file" .path, named "line" .number, named "column" .number] }
  else if name = referencesName then
    { options := commonOptions ++ outputOptions
      operands := [named "symbol" .text] }
  else if name = symbolsName then
    { options := commonOptions ++ outputOptions ++
        [named "max-items" .number, named "min-filter-length" .number]
      operands := [named "filter" .text] }
  else if name = repositoryInfoName then
    { options := commonOptions ++ [⟨"json", none, .switch⟩] }
  else
    { options := commonOptions ++
        [named "root-dir" .path, named "project-uri" .text, named "project-name" .text,
          named "repo-name" .text, named "channel" .text] }

namespace Matched

def output (matched : Matched) : Output :=
  ⟨matched.has "json", matched.has "pretty", matched.has "plain"⟩

def required (matched : Matched) (name : String) : Except UsageError String :=
  match matched.value? name with
  | some value => .ok value
  | none => .error .missingRequiredArgument

def number? (matched : Matched) (name : String) : Option Nat :=
  (matched.value? name).bind readNumber?

def requiredNumber (matched : Matched) (name : String) : Except UsageError Nat :=
  match matched.number? name with
  | some n => .ok n
  | none => .error .missingRequiredArgument

def queryKind (matched : Matched) : Query.Kind :=
  ((matched.value? "type").bind Query.Kind.parse?).getD .references

def command (matched : Matched) (name : String) : Except UsageError Command := do
  if name = queryName then
    return .query (← matched.required "filter") matched.queryKind (matched.has "exact")
      (matched.number? "max-results") (matched.number? "timeout-ms") matched.output
  else if name = definitionName then
    return .definition (← matched.required "file") (← matched.requiredNumber "line")
      (← matched.requiredNumber "column") matched.output
  else if name = referencesName then
    return .references (← matched.required "symbol") matched.output
  else if name = symbolsName then
    return .symbols (← matched.required "filter") ((matched.number? "max-items").getD 50)
      ((matched.number? "min-filter-length").getD 2) matched.output
  else if name = repositoryInfoName then return .repositoryInfo (matched.has "json")
  else
    return .serve {
      root := ← matched.required "root-dir"
      projectUri := ← matched.required "project-uri"
      projectName := ← matched.required "project-name"
      repositoryName := ← matched.required "repo-name"
      channel := ← matched.required "channel" }

end Matched

/-- Help on a command, or on all of them. A name after it has to be that of a command, which has no
commands of its own. -/
def helpError : List String → UsageError
  | [] => .displayHelp
  | [name] => if topGrammar.commands.contains name then .displayHelp else .invalidSubcommand
  | _ => .invalidSubcommand

/-- Reads a command line, without the name of the program. -/
def Invocation.ofArguments (arguments : List String) : Except UsageError Invocation := do
  match ← topGrammar.read arguments with
  | (outer, none) =>
    let outer ← outer.resolve
    throw (if outer.matched.isEmpty then .displayHelpForNothing else .missingSubcommand)
  | (outer, some (name, rest)) =>
    if name = helpName then throw (helpError rest)
    let (inner, _) ← (grammarOf name).read rest
    let inner := (← inner.resolve).matched
    let command ← inner.command name
    let outer := (← outer.resolve).matched
    let verbosity? := (inner.count? verboseOption.name).orElse fun _ => outer.count? verboseOption.name
    let directory? := (inner.value? directoryOption.name).orElse fun _ => outer.value? directoryOption.name
    return ⟨verbosity?.getD 0, directory?.getD ".", command⟩

def Invocation.ofCommandLine (words : List String) : Except UsageError Invocation :=
  ofArguments words.tail

end CodeNav.CommandLine
