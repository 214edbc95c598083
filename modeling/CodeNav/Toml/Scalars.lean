import CodeNav.Toml.Basic
import CodeNav.Toml.Strings

/-! # Numbers and dates of TOML

Digits may be parted by single underscores. An integer has no leading zeros, unless it is written in
another base, and lies within 64 bits with a sign. A date has a day that its month has.
-/

namespace CodeNav.Toml

/-- Reads digits with single underscores between them, and drops the underscores. -/
def takeDigitRun (isDigit : Char → Bool) : List Char → List Char × List Char
  | [] => ([], [])
  | [c] => if isDigit c then ([c], []) else ([], [c])
  | c :: d :: text =>
    if isDigit c then
      if d = '_' then
        match text with
        | e :: _ =>
          if isDigit e then
            let (digits, rest) := takeDigitRun isDigit text
            (c :: digits, rest)
          else ([c], d :: text)
        | [] => ([c], d :: text)
      else
        let (digits, rest) := takeDigitRun isDigit (d :: text)
        (c :: digits, rest)
    else ([], c :: d :: text)

def takeDigits? (text : List Char) : Option (List Char × List Char) :=
  match takeDigitRun Char.isDigit text with
  | ([], _) => none
  | run => some run

def takeSign : List Char → Bool × List Char
  | '-' :: text => (true, text)
  | '+' :: text => (false, text)
  | text => (false, text)

def ofBase (base : Nat) (digits : List Char) : Nat :=
  digits.foldl (fun n c => n * base + (hexValue? c).getD 0) 0

/-- Reads the decimal digits of an integer, of which a leading zero stands alone. -/
def takeWhole? : List Char → Option (List Char × List Char)
  | '0' :: text => some (['0'], text)
  | text => takeDigits? text

/-- Reads an integer in the given base, after its mark. -/
def takeBased? (base : Nat) (text : List Char) : Option (Toml × List Char) :=
  match takeDigitRun (fun c => (hexValue? c).any (· < base)) text with
  | ([], _) => none
  | (digits, rest) =>
    if ofBase base digits ≤ maxInteger.toNat then some (integer (ofBase base digits), rest)
    else none

def takeInteger? (text : List Char) : Option (Toml × List Char) :=
  match text with
  | '0' :: 'x' :: text => takeBased? 16 text
  | '0' :: 'o' :: text => takeBased? 8 text
  | '0' :: 'b' :: text => takeBased? 2 text
  | text => do
    let (negative, text) := takeSign text
    let (digits, rest) ← takeWhole? text
    let value : Int := if negative then -(ofBase 10 digits : Int) else ofBase 10 digits
    if minInteger ≤ value ∧ value ≤ maxInteger then return (integer value, rest) else none

def takeExponent? : List Char → Option (Int × List Char)
  | c :: text =>
    if c = 'e' ∨ c = 'E' then do
      let (negative, text) := takeSign text
      let (digits, rest) ← takeDigits? text
      return (if negative then -(ofBase 10 digits : Int) else ofBase 10 digits, rest)
    else none
  | [] => none

def startsWith? (start text : List Char) : Option (List Char) :=
  if start.isPrefixOf text then some (text.drop start.length) else none

/-- Tests whether a decimal is too large for the 64-bit binary format. -/
def overflows (digits : List Char) (places : Nat) (exponent : Int) : Bool :=
  let n := ofBase 10 digits
  let shift := exponent - places
  (Float.ofScientific n (shift < 0) shift.natAbs).isInf

/-- Reads a number with a fraction or an exponent, an infinity or no number. A positive number has
to be finite. -/
def takeFloat? (text : List Char) : Option (Toml × List Char) := do
  let (negative, text) := takeSign text
  match (startsWith? "inf".toList text).orElse fun _ => startsWith? "nan".toList text with
  | some rest => return (float, rest)
  | none =>
    let (whole, text) ← takeWhole? text
    let (fraction, text, hasFraction) ← match text with
      | '.' :: text => (takeDigits? text).map fun (digits, rest) => (digits, rest, true)
      | text => some ([], text, false)
    match takeExponent? text with
    | some (exponent, rest) =>
      if !negative && overflows (whole ++ fraction) fraction.length exponent then none
      else return (float, rest)
    | none =>
      if !hasFraction || (!negative && overflows (whole ++ fraction) fraction.length 0) then none
      else return (float, text)

/-- Reads a number of so many decimal digits that lies between two bounds. -/
def takeField? (width least greatest : Nat) (text : List Char) : Option (Nat × List Char) :=
  let digits := text.take width
  let n := ofBase 10 digits
  if digits.length = width ∧ digits.all Char.isDigit ∧ least ≤ n ∧ n ≤ greatest then
    some (n, text.drop width)
  else none

def daysOf (year month : Nat) : Nat :=
  if month = 2 then
    if year % 4 = 0 ∧ (year % 100 ≠ 0 ∨ year % 400 = 0) then 29 else 28
  else if month = 4 ∨ month = 6 ∨ month = 9 ∨ month = 11 then 30
  else 31

def takeMark? (mark : Char) : List Char → Option (List Char)
  | c :: text => if c = mark then some text else none
  | [] => none

def takeDay? (text : List Char) : Option (List Char) := do
  let (year, text) ← takeField? 4 0 9999 text
  let (month, text) ← takeField? 2 1 12 (← takeMark? '-' text)
  let (_, text) ← takeField? 2 1 (daysOf year month) (← takeMark? '-' text)
  return text

def takeTime? (text : List Char) : Option (List Char) := do
  let (_, text) ← takeField? 2 0 23 text
  let (_, text) ← takeField? 2 0 59 (← takeMark? ':' text)
  let (_, text) ← takeField? 2 0 60 (← takeMark? ':' text)
  match text with
  | '.' :: c :: rest => if c.isDigit then return rest.dropWhile Char.isDigit else none
  | text => return text

def takeOffset : List Char → List Char
  | c :: text =>
    if c = 'Z' ∨ c = 'z' then text
    else if c = '+' ∨ c = '-' then
      let offset := do
        let (_, rest) ← takeField? 2 0 23 text
        let (_, rest) ← takeField? 2 0 59 (← takeMark? ':' rest)
        return rest
      offset.getD (c :: text)
    else c :: text
  | [] => []

/-- Reads a day with or without a time, or a time alone. -/
def takeDate? (text : List Char) : Option (Toml × List Char) :=
  match takeDay? text with
  | some rest =>
    match rest with
    | c :: text =>
      if c = 'T' ∨ c = 't' ∨ c = ' ' then
        match takeTime? text with
        | some rest => some (date, takeOffset rest)
        | none => some (date, rest)
      else some (date, rest)
    | [] => some (date, [])
  | none => (takeTime? text).map (date, ·)

/-- Reads a value that is no container. -/
def takeScalar? (text : List Char) : Option (Toml × List Char) :=
  match text with
  | 't' :: 'r' :: 'u' :: 'e' :: rest => some (boolean true, rest)
  | 'f' :: 'a' :: 'l' :: 's' :: 'e' :: rest => some (boolean false, rest)
  | c :: _ =>
    if c = '"' ∨ c = '\'' then
      (takeString? text).map fun (cs, rest) => (string (String.ofList cs), rest)
    else
      ((takeDate? text).orElse fun _ => takeFloat? text).orElse fun _ => takeInteger? text
  | [] => none

end CodeNav.Toml
