import CodeNav.CommandLine.Grammar

/-! # Reading arguments by a grammar

Arguments are read one by one. A value is checked only when the argument after it is read, or at
the end, so of two errors an unknown argument comes first. A value that begins with a dash has to be
attached to its option. After two dashes alone all arguments are operands.
-/

namespace CodeNav.CommandLine

def maxCount : Nat := 255

structure Matched where
  /-- The values by the names of their arguments; a switch has an empty one. -/
  values : List (String × String) := []
  counts : List (String × Nat) := []
  deriving DecidableEq, Repr

namespace Matched

def isEmpty (matched : Matched) : Bool := matched.values.isEmpty && matched.counts.isEmpty

def value? (matched : Matched) (name : String) : Option String := matched.values.lookup name

def has (matched : Matched) (name : String) : Bool := (matched.value? name).isSome

def count? (matched : Matched) (name : String) : Option Nat := matched.counts.lookup name

/-- Takes one argument with its value, if it has one. -/
def take (matched : Matched) (parameter : Parameter) (value? : Option String) :
    Except UsageError Matched :=
  let name := parameter.name
  match parameter.action with
  | .set kind =>
    match value? with
    | none => .error .invalidValue
    | some value => do
      if matched.has name then throw .argumentConflict
      kind.check value
      return { matched with values := matched.values ++ [(name, value)] }
  | .switch =>
    if matched.has name then .error .argumentConflict
    else .ok { matched with values := matched.values ++ [(name, "")] }
  | .count =>
    let count := min ((matched.count? name).getD 0 + 1) maxCount
    .ok { matched with counts := (name, count) :: matched.counts.filter (·.1 ≠ name) }
  | .help => .error .displayHelp
  | .version => .error .displayVersion

end Matched

/-- The state between two arguments. -/
structure Reader where
  matched : Matched := {}
  /-- An argument that is not yet taken, with its value if that has been read. -/
  pending? : Option (Parameter × Option String) := none
  /-- The operands that have not been given. -/
  operands : List Parameter
  onlyOperands : Bool := false
  deriving DecidableEq, Repr

namespace Reader

/-- Takes the pending argument. -/
def resolve (reader : Reader) : Except UsageError Reader :=
  match reader.pending? with
  | none => .ok reader
  | some (parameter, value?) => do
    return { reader with matched := ← reader.matched.take parameter value?, pending? := none }

/-- Takes the pending argument, then another one. -/
def take (reader : Reader) (parameter : Parameter) (value? : Option String) :
    Except UsageError Reader := do
  let reader ← reader.resolve
  return { reader with matched := ← reader.matched.take parameter value? }

/-- Takes the pending argument and leaves another one pending. -/
def await (reader : Reader) (parameter : Parameter) (value? : Option String) :
    Except UsageError Reader := do
  return { ← reader.resolve with pending? := some (parameter, value?) }

/-- The option that waits for its value. -/
def awaiting? (reader : Reader) : Option Parameter :=
  match reader.pending? with
  | some (parameter, none) => some parameter
  | _ => none

def takesValue (parameter : Parameter) : Bool :=
  match parameter.action with
  | .set _ => true
  | _ => false

/-- Reads an option after two dashes, perhaps with a value after an equals sign. -/
def long (reader : Reader) (grammar : Grammar) (body : List Char) : Except UsageError Reader :=
  let name := body.takeWhile (· ≠ '=')
  let value? := (body.dropWhile (· ≠ '=')).tail?.map String.ofList
  match grammar.long? name with
  | none => .error .unknownArgument
  | some parameter =>
    if takesValue parameter then
      match value? with
      | some value => reader.take parameter (some value)
      | none => reader.await parameter none
    else if value?.isSome then .error .tooManyValues
    else reader.take parameter none

/-- Reads letters after one dash. What comes after the letter of an option with a value is the
value, perhaps after an equals sign. -/
def letters (grammar : Grammar) : Reader → List Char → Except UsageError Reader
  | reader, [] => .ok reader
  | reader, c :: rest =>
    match grammar.letter? c with
    | none => .error .unknownArgument
    | some parameter =>
      if takesValue parameter then
        match rest with
        | [] => reader.await parameter none
        | '=' :: value => reader.take parameter (some (String.ofList value))
        | value => reader.take parameter (some (String.ofList value))
      else do letters grammar (← reader.take parameter none) rest

def operand (reader : Reader) (grammar : Grammar) (argument : String) : Except UsageError Reader :=
  match reader.operands with
  | parameter :: operands => do
    return { ← reader.await parameter (some argument) with operands }
  | [] =>
    if grammar.commands.isEmpty || (reader.onlyOperands && grammar.commands.contains argument) then
      .error .unknownArgument
    else .error .invalidSubcommand

/-- Reads an argument that names no command. -/
def argument (reader : Reader) (grammar : Grammar) (argument : String) : Except UsageError Reader :=
  if reader.onlyOperands then reader.operand grammar argument
  else
    match argument.toList with
    | ['-', '-'] => .ok { reader with onlyOperands := true }
    | '-' :: '-' :: body => reader.long grammar body
    | '-' :: c :: rest => reader.letters grammar (c :: rest)
    | _ =>
      match reader.awaiting? with
      | some parameter => .ok { reader with pending? := some (parameter, some argument) }
      | none => reader.operand grammar argument

def namesCommand (reader : Reader) (grammar : Grammar) (argument : String) : Bool :=
  !reader.onlyOperands && reader.awaiting?.isNone && grammar.commands.contains argument

/-- Reads arguments up to the name of a command, which comes back with the arguments after it. -/
def arguments (grammar : Grammar) :
    Reader → List String → Except UsageError (Reader × Option (String × List String))
  | reader, [] => .ok (reader, none)
  | reader, argument :: rest =>
    if reader.namesCommand grammar argument then .ok (reader, some (argument, rest))
    else do arguments grammar (← reader.argument grammar argument) rest

end Reader

def Grammar.read (grammar : Grammar) (arguments : List String) :
    Except UsageError (Reader × Option (String × List String)) :=
  Reader.arguments grammar { operands := grammar.operands } arguments

end CodeNav.CommandLine
