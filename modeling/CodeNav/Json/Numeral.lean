import CodeNav.Json.Basic

/-! # JSON numerals

A numeral with neither fraction nor exponent is an integer as long as it is in the exact range.
Otherwise its leading digits, as many as a word holds, are scaled by the power of ten that is left.
-/

namespace CodeNav.Json

/-- The parts of a numeral, digits by their values. -/
structure Numeral where
  negative : Bool
  whole : List Nat
  fraction : Option (List Nat)
  /-- The sign of the exponent (whether it is positive) and its digits. -/
  exponent : Option (Bool × List Nat)
  deriving DecidableEq, Repr

namespace Numeral

def digitValue (c : Char) : Nat := c.toNat - '0'.toNat

def takeDigits (text : List Char) : List Nat × List Char :=
  ((text.takeWhile Char.isDigit).map digitValue, text.dropWhile Char.isDigit)

def takeFraction? : List Char → Option (Option (List Nat) × List Char)
  | '.' :: text =>
    match takeDigits text with
    | ([], _) => none
    | (digits, rest) => some (some digits, rest)
  | text => some (none, text)

def takeExponent? : List Char → Option (Option (Bool × List Nat) × List Char)
  | c :: text =>
    if c = 'e' ∨ c = 'E' then
      let (positive, text) := match text with
        | '+' :: text => (true, text)
        | '-' :: text => (false, text)
        | text => (true, text)
      match takeDigits text with
      | ([], _) => none
      | (digits, rest) => some (some (positive, digits), rest)
    else some (none, c :: text)
  | [] => some (none, [])

/-- Reads a numeral that takes up the whole text. A leading zero stands alone. -/
def parse? (text : List Char) : Option Numeral := do
  let (negative, text) := match text with
    | '-' :: text => (true, text)
    | text => (false, text)
  let (whole, text) := takeDigits text
  if whole.isEmpty || (whole.head? == some 0 && 1 < whole.length) then none
  else
    let (fraction, text) ← takeFraction? text
    let (exponent, text) ← takeExponent? text
    if text.isEmpty then some ⟨negative, whole, fraction, exponent⟩ else none

/-- Appends digits to a number as long as the result is a word; the others are left over. -/
def absorb : Nat → List Nat → Nat × List Nat
  | n, [] => (n, [])
  | n, d :: digits => if n * 10 + d < wordLimit then absorb (n * 10 + d) digits else (n, d :: digits)

def ofDigits (digits : List Nat) : Nat := digits.foldl (fun n d => n * 10 + d) 0

/-- The greatest exponent that is told apart from infinity. -/
def maxExponent : Nat := 1 <<< 31 - 1

/-- The value without its sign as a binary number, unless it is too large. -/
def magnitude? (n : Numeral) : Option Float :=
  let (significand, left) := absorb 0 n.whole
  let (significand, dropped) := absorb significand (n.fraction.getD [])
  let places : Int := (left.length : Int) - ((n.fraction.getD []).length - dropped.length : Nat)
  match n.exponent with
  | none => Binary64.ofParts? significand places
  | some (positive, digits) =>
    let exponent := ofDigits digits
    if maxExponent < exponent then
      if positive && significand != 0 then none else some 0
    else Binary64.ofParts? significand (if positive then places + exponent else places - exponent)

/-- The number that a numeral denotes; none if it is too large. There is no integer that stands
for minus zero. -/
def number? (n : Numeral) : Option Number :=
  let value : Int := if n.negative then -(ofDigits n.whole : Int) else ofDigits n.whole
  let integral := n.fraction.isNone && n.exponent.isNone && !(n.negative && value == 0)
  if h : integral ∧ ExactInteger value then some (.integer value h.2)
  else n.magnitude?.map fun x => .binary (.ofFloat (if n.negative then -x else x))

end Numeral

end CodeNav.Json
