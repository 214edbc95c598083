/-! # Strings, keys and blanks of TOML

A string stands between quotes, with escapes, or between apostrophes, without. Three quotes or
apostrophes enclose a string over several lines, which loses a line feed at its start. No control
character but the tab may stand in a string or a comment.
-/

namespace CodeNav.Toml

def isBlank (c : Char) : Bool := c == ' ' || c == '\t'

def skipBlanks (text : List Char) : List Char := text.dropWhile isBlank

/-- A character that may stand in a string or a comment. -/
def isTextChar (c : Char) : Bool := c == '\t' || (0x20 ≤ c.toNat && c.toNat != 0x7F)

/-- Removes a line feed, with or without a carriage return, from the front of a text. -/
def dropNewline? : List Char → Option (List Char)
  | '\n' :: text => some text
  | '\r' :: '\n' :: text => some text
  | _ => none

/-- Removes a comment from the front of a text, up to the end of its line. -/
def skipComment : List Char → List Char
  | '#' :: text => text.dropWhile isTextChar
  | text => text

/-- Removes blanks, comments and line ends, at most as many runs as the fuel. -/
def skipLines : Nat → List Char → List Char
  | 0, text => text
  | fuel + 1, text =>
    let rest := skipComment (skipBlanks text)
    match dropNewline? rest with
    | some rest => skipLines fuel rest
    | none => rest

def skipSpace (text : List Char) : List Char := skipLines (text.length + 1) text

def hexValue? (c : Char) : Option Nat :=
  if c.isDigit then some (c.toNat - '0'.toNat)
  else if 'a' ≤ c ∧ c ≤ 'f' then some (c.toNat - 'a'.toNat + 10)
  else if 'A' ≤ c ∧ c ≤ 'F' then some (c.toNat - 'A'.toNat + 10)
  else none

/-- The character of a code point that is no surrogate. -/
def charOf? (n : Nat) : Option Char := if n.isValidChar then some (Char.ofNat n) else none

def charOfHex? (digits : List Char) : Option Char := do
  let values ← digits.mapM hexValue?
  charOf? (values.foldl (fun n d => n * 16 + d) 0)

/-- Reads an escape after its backslash. -/
def takeEscape? : List Char → Option (Char × List Char)
  | 'b' :: text => some ('\x08', text)
  | 't' :: text => some ('\t', text)
  | 'n' :: text => some ('\n', text)
  | 'f' :: text => some ('\x0c', text)
  | 'r' :: text => some ('\r', text)
  | '"' :: text => some ('"', text)
  | '\\' :: text => some ('\\', text)
  | 'u' :: a :: b :: c :: d :: text => (charOfHex? [a, b, c, d]).map (·, text)
  | 'U' :: a :: b :: c :: d :: e :: f :: g :: h :: text =>
    (charOfHex? [a, b, c, d, e, f, g, h]).map (·, text)
  | _ => none

/-- What a reader of a string over several lines does with blanks and line ends. -/
inductive Folding where
  | keep
  /-- After a backslash that has to end its line. -/
  | toLineEnd
  /-- Up to the next other character. -/
  | drop
  deriving DecidableEq, Repr

/-- Reads a string between quotes, after the first of them, with at most as many characters as the
fuel. -/
def takeQuoted? : Nat → List Char → Option (List Char × List Char)
  | _, '"' :: text => some ([], text)
  | fuel + 1, '\\' :: text => do
    let (c, text) ← takeEscape? text
    let (cs, rest) ← takeQuoted? fuel text
    return (c :: cs, rest)
  | fuel + 1, c :: text =>
    if isTextChar c then (takeQuoted? fuel text).map fun (cs, rest) => (c :: cs, rest) else none
  | _, _ => none

/-- Reads a string between apostrophes, after the first of them. -/
def takeLiteral? : List Char → Option (List Char × List Char)
  | [] => none
  | c :: text =>
    if c = '\'' then some ([], text)
    else if isTextChar c then (takeLiteral? text).map fun (cs, rest) => (c :: cs, rest)
    else none

/-- Reads the end of a string over several lines: three marks, after up to two that belong to the
string. -/
def takeClosing? (mark : Char) (text : List Char) : Option (List Char × List Char) :=
  let marks := text.takeWhile (· == mark)
  if 3 ≤ marks.length then
    let count := min marks.length 5
    some (List.replicate (count - 3) mark, text.drop count)
  else none

/-- Reads a string between three quotes, after the first ones. -/
def takeLongQuoted? : Nat → Folding → List Char → Option (List Char × List Char)
  | 0, _, _ => none
  | _, _, [] => none
  | fuel + 1, folding, c :: text =>
    match folding, dropNewline? (c :: text) with
    | .toLineEnd, some text => takeLongQuoted? fuel .drop text
    | .toLineEnd, none => if isBlank c then takeLongQuoted? fuel .toLineEnd text else none
    | .drop, some text => takeLongQuoted? fuel .drop text
    | .keep, some text =>
      (takeLongQuoted? fuel .keep text).map fun (cs, rest) => ('\n' :: cs, rest)
    | folding, none =>
      if folding = .drop ∧ isBlank c then takeLongQuoted? fuel .drop text
      else
        match takeClosing? '"' (c :: text) with
        | some closing => some closing
        | none =>
          if c = '\\' then
            match takeEscape? text with
            | some (escaped, text) =>
              (takeLongQuoted? fuel .keep text).map fun (cs, rest) => (escaped :: cs, rest)
            | none => takeLongQuoted? fuel .toLineEnd text
          else if isTextChar c then
            (takeLongQuoted? fuel .keep text).map fun (cs, rest) => (c :: cs, rest)
          else none

/-- Reads a string between three apostrophes, after the first ones. -/
def takeLongLiteral? : Nat → List Char → Option (List Char × List Char)
  | 0, _ => none
  | _, [] => none
  | fuel + 1, c :: text =>
    match dropNewline? (c :: text), takeClosing? '\'' (c :: text) with
    | some text, _ => (takeLongLiteral? fuel text).map fun (cs, rest) => ('\n' :: cs, rest)
    | none, some closing => some closing
    | none, none =>
      if isTextChar c then (takeLongLiteral? fuel text).map fun (cs, rest) => (c :: cs, rest)
      else none

def takeString? (text : List Char) : Option (List Char × List Char) :=
  match text with
  | '"' :: '"' :: '"' :: text =>
    takeLongQuoted? (text.length + 1) .keep ((dropNewline? text).getD text)
  | '\'' :: '\'' :: '\'' :: text =>
    takeLongLiteral? (text.length + 1) ((dropNewline? text).getD text)
  | '"' :: text => takeQuoted? text.length text
  | '\'' :: text => takeLiteral? text
  | _ => none

def isKeyChar (c : Char) : Bool := c.isAlphanum || c == '_' || c == '-'

/-- Reads one part of a key: a bare word, or a string on one line. -/
def takeKeyPart? (text : List Char) : Option (String × List Char) :=
  match text with
  | '"' :: text => (takeQuoted? text.length text).map fun (cs, rest) => (String.ofList cs, rest)
  | '\'' :: text => (takeLiteral? text).map fun (cs, rest) => (String.ofList cs, rest)
  | text =>
    let word := text.takeWhile isKeyChar
    if word.isEmpty then none else some (String.ofList word, text.dropWhile isKeyChar)

/-- Reads the parts of a key with points between them. Blanks around each part do not count. -/
def takeKeyParts? : Nat → List Char → Option (List String × List Char)
  | 0, _ => none
  | fuel + 1, text => do
    let (part, text) ← takeKeyPart? (skipBlanks text)
    match skipBlanks text with
    | '.' :: text =>
      let (parts, rest) ← takeKeyParts? fuel text
      return (part :: parts, rest)
    | rest => return ([part], rest)

/-- The number of containers, and of parts of a key, at which a document is too deep. -/
def depthLimit : Nat := 80

def takeKey? (text : List Char) : Option (List String × List Char) := do
  let (parts, rest) ← takeKeyParts? (text.length + 1) text
  if parts.length < depthLimit then return (parts, rest) else none

end CodeNav.Toml
