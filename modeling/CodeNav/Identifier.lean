import CodeNav.Criterion
import CodeNav.Text.Letter

/-! # The identifier at a column

The word at a column is made of the letters directly before it and the letters and digits from it
on.
-/

namespace CodeNav

/-- The identifier that touches a column of a line, if the line is no line comment. A column past
the end of the line stands for its end. -/
def identifierAt? (line : List Char) (column : Nat) : Option (List Char) :=
  if isLineComment line then none
  else
    match Text.cutAt? line (min column (Text.units line)) with
    | none => none
    | some (before, after) =>
      let word := (before.reverse.takeWhile Text.isLetter).reverse ++
        after.takeWhile Text.isLetterOrDigit
      if word.isEmpty then none else some word

/-- The identifier at a line and a column of a text. A line past the end has none. -/
def identifierIn? (text : List Char) (line column : Nat) : Option (List Char) := do
  let line ← (Text.lines text)[line]?
  identifierAt? line column

end CodeNav
