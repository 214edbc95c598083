import CodeNav.Criterion

/-! # Placement of hits

The index reports a hit by its offset from the start of a stored copy of the file. Whether that
copy used one or two characters at the end of a line is unknown. So every line-ending convention
keeps its own running offset, and on each line the first convention whose candidate is accepted
places the hit.
-/

namespace CodeNav

/-- A match that the index reports, by its offset from the start of the file. -/
structure Hit where
  path : String
  offset : Nat
  length : Nat
  deriving DecidableEq, Repr

inductive LineEnding where
  | lf
  | crlf
  | cr
  deriving DecidableEq, Repr

/-- What the end of a line adds to the running offset. -/
def LineEnding.width : LineEnding → Nat
  | lf => 1
  | crlf => 2
  | cr => 1

/-- The conventions that are tried, in this order. -/
def LineEnding.default : List LineEnding := [lf, crlf]

/-- The hits of one file that found a place, and the number of lines that were read for it. -/
structure Placement where
  symbols : List Symbol
  linesScanned : Nat
  deriving DecidableEq, Repr

namespace Placement

/-- Places a hit on a line by the first convention under which it is accepted there. The line
starts at another offset under each convention. -/
def onLine? (criterion : Criterion) (path : String) (number : Nat) (line : List Char)
    (starts : List Nat) (hit : Hit) : Option Symbol :=
  starts.findSome? fun start =>
    if start ≤ hit.offset ∧ hit.offset < start + Text.units line then
      (criterion.accept line (hit.offset - start) hit.length).map fun accepted =>
        Symbol.onLine path number (hit.offset - start) accepted.endColumn
          (String.ofList accepted.text)
    else none

/-- The offsets at which the next line starts. -/
def advance (endings : List LineEnding) (starts : List Nat) (line : List Char) : List Nat :=
  List.zipWith (fun start ending => start + (Text.units line + ending.width)) starts endings

/-- Reads lines from the given one on until every pending hit has its place. -/
def scan (criterion : Criterion) (path : String) (endings : List LineEnding) :
    Nat → List Nat → List Hit → List (List Char) → Placement
  | _, _, _, [] => ⟨[], 0⟩
  | number, starts, pending, line :: lines =>
    if pending.isEmpty then ⟨[], 0⟩
    else
      let place := onLine? criterion path number line starts
      let rest := scan criterion path endings (number + 1) (advance endings starts line)
        (pending.filter fun hit => (place hit).isNone) lines
      ⟨pending.filterMap place ++ rest.symbols, rest.linesScanned + 1⟩

def ofLines (endings : List LineEnding) (criterion : Criterion) (path : String) (hits : List Hit)
    (lines : List (List Char)) : Placement :=
  scan criterion path endings 0 (endings.map fun _ => 0)
    (hits.mergeSort fun a b => a.offset ≤ b.offset) lines

def ofText (endings : List LineEnding) (criterion : Criterion) (path : String) (hits : List Hit)
    (text : List Char) : Placement :=
  ofLines endings criterion path hits (Text.lines text)

end Placement

end CodeNav
