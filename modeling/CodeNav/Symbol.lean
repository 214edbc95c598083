/-! # Located symbols

A symbol is a match with its place in a local file. Lines count from zero and columns count UTF-16
units from the start of the line.
-/

namespace CodeNav

structure Symbol where
  path : String
  startLine : Nat
  endLine : Nat
  startColumn : Nat
  endColumn : Nat
  /-- The matched text of a definition, or the trimmed line of a reference. -/
  text : String
  deriving DecidableEq, Repr

namespace Symbol

/-- A symbol within one line. -/
def onLine (path : String) (line startColumn endColumn : Nat) (text : String) : Symbol :=
  ⟨path, line, line, startColumn, endColumn, text⟩

/-- The order by path, start, end and text; paths and texts compare by code points. -/
def order (a b : Symbol) : Ordering :=
  compare a.path b.path
    |>.then (compare a.startLine b.startLine)
    |>.then (compare a.endLine b.endLine)
    |>.then (compare a.startColumn b.startColumn)
    |>.then (compare a.endColumn b.endColumn)
    |>.then (compare a.text b.text)

/-- The order by path and start, and by the whole symbol among those that start together. -/
def positionOrder (a b : Symbol) : Ordering :=
  compare a.path b.path
    |>.then (compare a.startLine b.startLine)
    |>.then (compare a.startColumn b.startColumn)
    |>.then (order a b)

def sort (symbols : List Symbol) : List Symbol :=
  symbols.mergeSort fun a b => (order a b).isLE

end Symbol

end CodeNav
