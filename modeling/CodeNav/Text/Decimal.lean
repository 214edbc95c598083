import CodeNav.Word

/-! # Decimal numbers in a text

An unsigned number is written in decimal digits, after at most one plus sign. The first character
that is no digit, or the first digit at which the number leaves the range of a word, decides what is
wrong with a text.
-/

namespace CodeNav.Text

inductive NumberError where
  | empty
  | badDigit
  | tooLarge
  deriving DecidableEq, Repr

def NumberError.message : NumberError → String
  | empty => "cannot parse integer from empty string"
  | badDigit => "invalid digit found in string"
  | tooLarge => "number too large to fit in target type"

def appendDigit (n : Nat) (c : Char) : Except NumberError Nat :=
  if c.isDigit then
    let n := n * 10 + (c.toNat - '0'.toNat)
    if n < wordLimit then .ok n else .error .tooLarge
  else .error .badDigit

/-- Reads an unsigned 64-bit number. -/
def readNumber (text : List Char) : Except NumberError Nat :=
  match text with
  | [] => .error .empty
  | ['+'] => .error .badDigit
  | '+' :: digits => digits.foldlM appendDigit 0
  | digits => digits.foldlM appendDigit 0

end CodeNav.Text
