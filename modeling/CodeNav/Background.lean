import CodeNav.ErrorChain

/-! # Background tasks

A task that runs beside everything else ends in the log only. Neither a failure nor a panic reaches
what started it.
-/

namespace CodeNav

inductive LogLevel where
  | error
  | warn
  | info
  | debug
  | trace
  deriving DecidableEq, Repr

structure LogEntry where
  level : LogLevel
  text : String
  deriving DecidableEq, Repr

namespace Background

inductive Ending where
  | completed
  | failed (error : ErrorChain)
  | cancelled
  | panicked (report : String)
  deriving DecidableEq, Repr

def report (name : String) (ending : Ending) : LogEntry :=
  let task := "Background task '" ++ name ++ "' "
  match ending with
  | .completed => ⟨.debug, task ++ "completed"⟩
  | .failed error => ⟨.error, task ++ "failed: " ++ error.text⟩
  | .cancelled => ⟨.debug, task ++ "was cancelled"⟩
  | .panicked report => ⟨.error, task ++ "panicked: " ++ report⟩

end Background

end CodeNav
