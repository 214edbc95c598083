import CodeNav.Query
import CodeNav.Symbol
import CodeNav.Text.Blank
import CodeNav.Text.Lines
import CodeNav.Text.Lower
import CodeNav.Text.Units

/-! # Acceptance of candidates

The index knows no syntax and no case, so a hit is only a candidate. A candidate is accepted when
its line is no line comment and the text between its columns is the filter (exact queries) or
starts with it in any case (the others).
-/

namespace CodeNav

/-- Tests whether the first thing on a line is a comment marker. -/
def isLineComment (line : List Char) : Bool :=
  Text.commentMarker.isPrefixOf (Text.trimStart line)

structure Criterion where
  filter : List Char
  exact : Bool
  kind : Query.Kind
  deriving DecidableEq, Repr

def Query.criterion (query : Query) : Criterion := ⟨query.filter.toList, query.exact, query.kind⟩

/-- An accepted candidate: the column at which it ends, and the text to show for it. -/
structure Accepted where
  endColumn : Nat
  text : List Char
  deriving DecidableEq, Repr

namespace Criterion

def fits (c : Criterion) (inside : List Char) : Bool :=
  if c.exact then inside == c.filter else Text.startsWithIgnoringCase inside c.filter

/-- The text to show: the trimmed line of a reference, the matched text of a definition. -/
def shown (c : Criterion) (line inside : List Char) : List Char :=
  if c.kind.isReferences then Text.trim line else inside

/-- Checks a candidate on a line. A candidate that runs past the end of the line is cut there; one
that starts or ends inside a character, or whose end is no word, is none. -/
def accept (c : Criterion) (line : List Char) (column length : Nat) : Option Accepted :=
  if isLineComment line then none
  else if column + length < wordLimit then
    let stop := min (column + length) (Text.units line)
    match Text.slice? line column stop with
    | some inside => if c.fits inside then some ⟨stop, c.shown line inside⟩ else none
    | none => none
  else none

end Criterion

end CodeNav
