import CodeNav.Toml.Scalars
import CodeNav.Toml.Table

/-! # Reading TOML documents

A document is read line by line: a header, a key with its value, a comment, or nothing. Arrays go
over several lines and may end with a comma; a table as a value stays on one line.
-/

namespace CodeNav.Toml

mutual

/-- Reads a value, within a number of containers that has to stay below the limit. -/
def takeValue? : Nat → Nat → List Char → Option (Toml × List Char)
  | 0, _, _ => none
  | fuel + 1, depth, text =>
    match text with
    | '[' :: text =>
      if depth + 1 < depthLimit then
        (takeItems? fuel (depth + 1) (skipSpace text)).map fun (items, rest) => (array items, rest)
      else none
    | '\x7b' :: text =>
      if depth + 1 < depthLimit then
        match skipBlanks text with
        | '\x7d' :: rest => some (table [], rest)
        | text => (takeMembers? fuel (depth + 1) [] text).map fun (members, rest) =>
          (table (membersToValues members), rest)
      else none
    | text => takeScalar? text

def takeItems? : Nat → Nat → List Char → Option (List Toml × List Char)
  | 0, _, _ => none
  | _, _, ']' :: text => some ([], text)
  | fuel + 1, depth, text => do
    let (item, text) ← takeValue? fuel depth text
    match skipSpace text with
    | ',' :: text =>
      let (items, rest) ← takeItems? fuel depth (skipSpace text)
      return (item :: items, rest)
    | ']' :: rest => return ([item], rest)
    | _ => none

/-- Reads the members of a table that is a value, up to its end. -/
def takeMembers? : Nat → Nat → Members → List Char → Option (Members × List Char)
  | 0, _, _, _ => none
  | fuel + 1, depth, members, text => do
    let (key, text) ← takeKey? text
    let text ← takeMark? '=' (skipBlanks text)
    let (value, text) ← takeValue? fuel depth (skipBlanks text)
    let members ← members.assign key.dropLast (← key.getLast?) value
    match skipBlanks text with
    | ',' :: text => takeMembers? fuel depth members text
    | '\x7d' :: rest => return (members, rest)
    | _ => none

end

/-- Reads blanks and a comment up to the end of a line or of the document. -/
def takeLineEnd? (text : List Char) : Option (List Char) :=
  match skipComment (skipBlanks text) with
  | [] => some []
  | rest => dropNewline? rest

def takeHeader? (close : List Char) (text : List Char) : Option (List String × List Char) := do
  let (path, text) ← takeKey? text
  let text ← startsWith? close text
  return (path, ← takeLineEnd? text)

def takeExpression? (draft : Draft) (text : List Char) : Option (Draft × List Char) :=
  match text with
  | '[' :: '[' :: text => do
    let (path, rest) ← takeHeader? [']', ']'] text
    return (← draft.openArray path, rest)
  | '[' :: text => do
    let (path, rest) ← takeHeader? [']'] text
    return (← draft.openTable path, rest)
  | text => do
    let (key, text) ← takeKey? text
    let text ← takeMark? '=' text
    let (value, text) ← takeValue? (text.length + 1) 0 (skipBlanks text)
    return (← draft.assign key value, ← takeLineEnd? text)

def takeExpressions? : Nat → Draft → List Char → Option Draft
  | 0, _, _ => none
  | fuel + 1, draft, text =>
    match skipSpace text with
    | [] => some draft
    | text => do
      let (draft, rest) ← takeExpression? draft text
      takeExpressions? fuel draft rest

/-- The byte-order mark, which may stand before a document. -/
def byteOrderMark : Char := Char.ofNat 0xFEFF

def ofText? (text : List Char) : Option (List (String × Toml)) := do
  let text := match text with
    | c :: rest => if c = byteOrderMark then rest else c :: rest
    | [] => []
  let draft ← takeExpressions? (text.length + 1) Draft.empty text
  return membersToValues (← draft.close)

end CodeNav.Toml
