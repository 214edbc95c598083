import CodeNav.Files.Tree
import CodeNav.Http.Exchange
import CodeNav.Report
import CodeNav.Settings.Environment

/-! # What the program meets

The program runs on a file system, with an environment, a network, a clock and a terminal, and ends
with an exit code and what it has printed.
-/

namespace CodeNav.Program

structure World where
  tree : FileTree
  environment : Environment
  network : Http.Network
  now : Instant
  isTerminal : Bool := false

def World.colors (world : World) (plain : Bool) : Bool :=
  !plain && (world.environment.lookup "NO_COLOR").isNone && world.isTerminal

structure Result where
  code : Nat
  printed : Report.Printed
  deriving DecidableEq, Repr

inductive Error where
  | failed (error : ErrorChain)
  /-- The clock cannot show an instant that is needed. -/
  | clock (cause : ClockError)
  deriving DecidableEq, Repr

end CodeNav.Program
