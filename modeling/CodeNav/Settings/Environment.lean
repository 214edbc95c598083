import CodeNav.ErrorChain
import CodeNav.Settings.Basic
import CodeNav.Text.Blank
import CodeNav.Text.Decimal

/-! # Settings from the environment

Each variable overrides one setting. The variables are taken in a fixed order, and the first one
with an invalid value ends the work; those before it keep their effect.
-/

namespace CodeNav

abbrev Environment := List (String × String)

namespace Settings

inductive ValueError where
  | notMode
  | notNumber (cause : Text.NumberError)
  deriving DecidableEq, Repr

/-- A variable whose value is not what its setting needs. -/
structure VariableError where
  name : String
  value : String
  cause : ValueError
  deriving DecidableEq, Repr

def VariableError.chain (error : VariableError) : ErrorChain :=
  let invalid := "Invalid " ++ error.name ++ " '" ++ error.value ++ "'"
  match error.cause with
  | .notMode =>
    (ErrorChain.root "Matching variant not found").within
      (invalid ++ " (expected " ++ Mode.name .direct ++ " or " ++ Mode.name .bridged ++ ")")
  | .notNumber cause => (ErrorChain.root cause.message).within invalid

/-- A variable, with the settings that its value makes out of others. -/
structure Variable where
  name : String
  apply : String → Settings → Except ValueError Settings

namespace Variable

def ofText (name : String) (set : String → Settings → Settings) : Variable :=
  ⟨name, fun value settings => .ok (set value settings)⟩

/-- A variable that holds an unsigned number, which may have blanks around it. -/
def ofNumber (name : String) (set : Nat → Settings → Settings) : Variable :=
  ⟨name, fun value settings =>
    match Text.readNumber (Text.trim value.toList) with
    | .ok n => .ok (set n settings)
    | .error cause => .error (.notNumber cause)⟩

def mode : Variable :=
  ⟨"FASTNAV_MODE", fun value settings =>
    match Mode.parse? value with
    | some mode => .ok { settings with mode }
    | none => .error .notMode⟩

/-- The variables in the order in which they are taken. -/
def all : List Variable := [
  mode,
  ofNumber "FASTNAV_TIMEOUT_SECS" fun n settings => { settings with timeoutSeconds := n },
  ofNumber "FASTNAV_MAX_RESULTS" fun n settings => { settings with maxResults := n },
  ofNumber "FASTNAV_CACHE_TTL_SECS" fun n settings => { settings with cacheTtlSeconds := n },
  ofNumber "FASTNAV_CONNECT_TIMEOUT_SECS" fun n settings =>
    { settings with connectTimeoutSeconds := n },
  ofText "FASTNAV_BRANCH" fun value settings => { settings with branch := value },
  ofText "FASTNAV_FILE_EXTENSION" fun value settings =>
    { settings with fileExtension? := some value },
  ofText "FASTNAV_ENDPOINT" fun value settings => { settings with endpoint? := some value },
  ofText "FASTNAV_PAT" fun value settings => { settings with token? := some value },
  ofText "FASTNAV_CLIENT_EXECUTABLE" fun value settings =>
    { settings with executable? := some value }]

end Variable

/-- Settings after some variables have been taken, and the error that ended the work. -/
structure Overridden where
  settings : Settings
  error? : Option VariableError := none
  deriving DecidableEq, Repr

/-- Takes the given variables, as far as they are set, in turn. -/
def overrideBy (environment : Environment) (settings : Settings) : List Variable → Overridden
  | [] => { settings }
  | v :: rest =>
    match environment.lookup v.name with
    | none => overrideBy environment settings rest
    | some value =>
      match v.apply value settings with
      | .ok settings => overrideBy environment settings rest
      | .error cause => { settings, error? := some ⟨v.name, value, cause⟩ }

def override (settings : Settings) (environment : Environment) : Overridden :=
  overrideBy environment settings Variable.all

end Settings

end CodeNav
