import CodeNav.Query
import CodeNav.Text.Decimal

/-! # Grammars of command lines

A command takes options, which are named, and operands, which are known by their order. An option
has a long name after two dashes and perhaps a letter after one.
-/

namespace CodeNav.CommandLine

inductive UsageError where
  | unknownArgument
  | invalidValue
  | valueValidation
  | tooManyValues
  | argumentConflict
  | missingRequiredArgument
  | invalidSubcommand
  | missingSubcommand
  | displayHelp
  | displayVersion
  /-- Help is shown, since nothing was asked for. -/
  | displayHelpForNothing
  deriving DecidableEq, Repr

inductive ValueKind where
  | text
  /-- A path, which is not empty. -/
  | path
  | number
  | queryKind
  deriving DecidableEq, Repr

def readNumber? (value : String) : Option Nat := (Text.readNumber value.toList).toOption

def ValueKind.check : ValueKind → String → Except UsageError Unit
  | text, _ => .ok ()
  | path, value => if value.isEmpty then .error .invalidValue else .ok ()
  | number, value => if (readNumber? value).isSome then .ok () else .error .valueValidation
  | queryKind, value =>
    if (Query.Kind.parse? value).isSome then .ok () else .error .valueValidation

inductive Action where
  /-- It takes a value, at most once. -/
  | set (kind : ValueKind)
  /-- It switches something on, at most once. -/
  | switch
  /-- It counts how often it is given. -/
  | count
  | help
  | version
  deriving DecidableEq, Repr

structure Parameter where
  name : String
  letter? : Option Char := none
  action : Action
  deriving DecidableEq, Repr

structure Grammar where
  options : List Parameter
  operands : List Parameter := []
  /-- The names of the commands that may follow. -/
  commands : List String := []

namespace Grammar

def long? (grammar : Grammar) (name : List Char) : Option Parameter :=
  grammar.options.find? (·.name.toList == name)

def letter? (grammar : Grammar) (c : Char) : Option Parameter :=
  grammar.options.find? (·.letter? == some c)

end Grammar

end CodeNav.CommandLine
