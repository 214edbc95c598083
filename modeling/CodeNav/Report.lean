import CodeNav.ErrorChain
import CodeNav.Json.Printer
import CodeNav.Wire

/-! # Output for the terminal

Results go to the standard output, as JSON or as lines. A line shows the path of a symbol, its place,
which counts from one, and its text; on a terminal the parts are coloured. Messages go to the
standard error.
-/

namespace CodeNav.Report

/-- A text style, by the numbers that turn it on and off. -/
structure Style where
  on : Nat
  off : Nat
  deriving DecidableEq, Repr

namespace Style

def bold : Style := ⟨1, 0⟩
def dim : Style := ⟨2, 0⟩
def red : Style := ⟨31, 39⟩
def yellow : Style := ⟨33, 39⟩
def cyan : Style := ⟨36, 39⟩

def code (n : Nat) : String := "\x1b[" ++ toString n ++ "m"

def apply (style : Style) (text : String) : String := code style.on ++ text ++ code style.off

/-- The style where colours are wanted, the bare text elsewhere. -/
def applyIf (style : Style) (colors : Bool) (text : String) : String :=
  if colors then style.apply text else text

end Style

def symbolLine (symbol : Symbol) (colors : Bool) : String :=
  Style.cyan.applyIf colors symbol.path ++ ":" ++
    Style.yellow.applyIf colors (toString (symbol.startLine + 1)) ++ ":" ++
    Style.yellow.applyIf colors (toString (symbol.startColumn + 1)) ++ "  " ++
    Style.bold.applyIf colors symbol.text

/-- What is written to the standard output and to the standard error. -/
structure Printed where
  out : String := ""
  err : String := ""
  deriving DecidableEq, Repr

def Printed.append (first second : Printed) : Printed :=
  ⟨first.out ++ second.out, first.err ++ second.err⟩

def line (text : String) : String := text ++ "\n"

def notice (message : String) : Printed := { err := "\n" ++ message ++ "\n\n" }

def warning (message : String) : Printed := notice (Style.yellow.apply message)

def failure (error : ErrorChain) : Printed := notice (Style.red.apply ("Error: " ++ error.text))

/-- The results as lines, with their number behind them. -/
def symbols (found : List Symbol) (colors : Bool) : Printed :=
  if found.isEmpty then notice "No results found."
  else
    { out := String.join (found.map fun symbol => line (symbolLine symbol colors))
      err := line (Style.dim.applyIf colors (toString found.length ++ " result(s)")) }

def json (value : Json) (pretty : Bool) : Printed :=
  { out := line (if pretty then value.renderPretty else value.render) }

end CodeNav.Report
