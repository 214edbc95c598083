/-! # Lines of a text

A line ends at a line feed, which takes one carriage return directly before it along. A text
that ends with a line feed has no further empty line.
-/

namespace CodeNav.Text

/-- The lines of a text, without their terminators. -/
def lines : List Char → List (List Char)
  | [] => []
  | '\n' :: text => [] :: lines text
  | '\r' :: '\n' :: text => [] :: lines text
  | c :: text =>
    match lines text with
    | [] => [[c]]
    | line :: rest => (c :: line) :: rest

def commentMarker : List Char := ['/', '/']

end CodeNav.Text
