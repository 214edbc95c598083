import CodeNav.Json.Numeral

/-! # Tokens of JSON

The tokens of a text are its punctuation, its three names, its numerals and its strings. A numeral
or a string can be well formed and still denote nothing: a numeral that is too large, or a string
that escapes half of a surrogate pair. Such a token is told apart from an ill-formed text, since a
reader may skip it.
-/

namespace CodeNav.Json

inductive Token where
  | openBrace
  | closeBrace
  | openBracket
  | closeBracket
  | comma
  | colon
  | null
  | bool (b : Bool)
  | number (n : Option Number)
  | string (s : Option String)
  deriving DecidableEq

namespace Token

/-- One element of a string: a character, or an escaped UTF-16 unit. -/
inductive Piece where
  | char (c : Char)
  | unit (n : Nat)
  deriving DecidableEq, Repr

def isHighSurrogate (n : Nat) : Bool := 0xD800 ≤ n && n < 0xDC00

def isLowSurrogate (n : Nat) : Bool := 0xDC00 ≤ n && n < 0xE000

/-- Joins surrogate pairs to characters; there is no result if one half stands alone. -/
def joinPieces : List Piece → Option (List Char)
  | [] => some []
  | .char c :: pieces => (joinPieces pieces).map (c :: ·)
  | .unit high :: .unit low :: pieces =>
    if isHighSurrogate high then
      if isLowSurrogate low then
        (joinPieces pieces).map
          (Char.ofNat (0x10000 + (high - 0xD800) * 0x400 + (low - 0xDC00)) :: ·)
      else none
    else if isLowSurrogate high then none
    else (joinPieces (.unit low :: pieces)).map (Char.ofNat high :: ·)
  | .unit n :: pieces =>
    if isHighSurrogate n || isLowSurrogate n then none
    else (joinPieces pieces).map (Char.ofNat n :: ·)

def hexDigit? (c : Char) : Option Nat :=
  if '0' ≤ c ∧ c ≤ '9' then some (c.toNat - '0'.toNat)
  else if 'a' ≤ c ∧ c ≤ 'f' then some (c.toNat - 'a'.toNat + 10)
  else if 'A' ≤ c ∧ c ≤ 'F' then some (c.toNat - 'A'.toNat + 10)
  else none

def hexUnit? (a b c d : Char) : Option Nat := do
  return (((← hexDigit? a) * 16 + (← hexDigit? b)) * 16 + (← hexDigit? c)) * 16 + (← hexDigit? d)

/-- The character after a backslash, where it is not `u`. -/
def unescape? : Char → Option Char
  | '"' => some '"'
  | '\\' => some '\\'
  | '/' => some '/'
  | 'b' => some '\x08'
  | 'f' => some '\x0c'
  | 'n' => some '\n'
  | 'r' => some '\r'
  | 't' => some '\t'
  | _ => none

/-- Reads a string up to its closing quote. Control characters have to be escaped. -/
def takeString? : List Char → Option (List Piece × List Char)
  | [] => none
  | '"' :: text => some ([], text)
  | '\\' :: 'u' :: a :: b :: c :: d :: text => do
    let n ← hexUnit? a b c d
    let (pieces, rest) ← takeString? text
    return (.unit n :: pieces, rest)
  | '\\' :: e :: text => do
    let c ← unescape? e
    let (pieces, rest) ← takeString? text
    return (.char c :: pieces, rest)
  | c :: text =>
    if c = '\\' ∨ c.toNat < 0x20 then none
    else (takeString? text).map fun (pieces, rest) => (.char c :: pieces, rest)

def isNumeralChar (c : Char) : Bool :=
  c.isDigit || c == '+' || c == '-' || c == '.' || c == 'e' || c == 'E'

/-- Reads the token that a text starts with, and what comes after it. -/
def take? : List Char → Option (Token × List Char)
  | '{' :: text => some (openBrace, text)
  | '}' :: text => some (closeBrace, text)
  | '[' :: text => some (openBracket, text)
  | ']' :: text => some (closeBracket, text)
  | ',' :: text => some (comma, text)
  | ':' :: text => some (colon, text)
  | 'n' :: 'u' :: 'l' :: 'l' :: text => some (null, text)
  | 't' :: 'r' :: 'u' :: 'e' :: text => some (bool true, text)
  | 'f' :: 'a' :: 'l' :: 's' :: 'e' :: text => some (bool false, text)
  | '"' :: text => do
    let (pieces, rest) ← takeString? text
    return (string ((joinPieces pieces).map String.ofList), rest)
  | c :: text =>
    if c.isDigit || c == '-' then do
      let numeral ← Numeral.parse? ((c :: text).takeWhile isNumeralChar)
      return (number numeral.number?, (c :: text).dropWhile isNumeralChar)
    else none
  | [] => none

def isSpace (c : Char) : Bool := c == ' ' || c == '\t' || c == '\n' || c == '\r'

/-- Reads tokens to the end of a text, at most as many as the fuel. -/
def takeAll? : Nat → List Char → Option (List Token)
  | 0, text => if (text.dropWhile isSpace).isEmpty then some [] else none
  | fuel + 1, text =>
    match text.dropWhile isSpace with
    | [] => some []
    | text => do
      let (token, rest) ← take? text
      return token :: (← takeAll? fuel rest)

/-- The tokens of a text. No text has more tokens than characters. -/
def ofText? (text : List Char) : Option (List Token) := takeAll? text.length text

end Token

end CodeNav.Json
