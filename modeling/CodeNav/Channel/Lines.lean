import CodeNav.Text.Utf8

/-! # Lines of the channel

The bytes of the channel are cut at line feeds. A carriage return before a line feed belongs to it.
-/

namespace CodeNav.Channel

def lineFeed : UInt8 := 10

/-- The bytes of the lines that have ended, and those of the line that has not. -/
def cutLines : List UInt8 → List (List UInt8) × List UInt8
  | [] => ([], [])
  | b :: bytes =>
    let (lines, rest) := cutLines bytes
    if b = lineFeed then ([] :: lines, rest)
    else
      match lines with
      | [] => ([], b :: rest)
      | line :: lines => ((b :: line) :: lines, rest)

def dropReturn (line : List Char) : List Char :=
  if line.getLast? = some '\r' then line.dropLast else line

def lineText? (bytes : List UInt8) : Option (List Char) := (Text.Utf8.strict? bytes).map dropReturn

def lineBytes (text : List Char) : List UInt8 := Text.Utf8.encode text ++ [lineFeed]

end CodeNav.Channel
