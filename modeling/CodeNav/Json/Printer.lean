import CodeNav.Decimal.Shortest
import CodeNav.Json.Basic

/-! # Writing JSON

Values are written without blanks, or over indented lines. Quotes, backslashes and control
characters are escaped, the common ones by letter; everything else is written as it is.
-/

namespace CodeNav.Json

/-- Numbers with a fraction use an exponent from 10^16 on and below 10^-5. -/
def numberLayout : Decimal.Layout := ⟨16, -4⟩

def hexDigitOf (n : Nat) : Char := Nat.digitChar n

def escape (c : Char) : List Char :=
  match c with
  | '"' => ['\\', '"']
  | '\\' => ['\\', '\\']
  | '\x08' => ['\\', 'b']
  | '\x0c' => ['\\', 'f']
  | '\n' => ['\\', 'n']
  | '\r' => ['\\', 'r']
  | '\t' => ['\\', 't']
  | c =>
    if c.toNat < 0x20 then
      ['\\', 'u', '0', '0', hexDigitOf (c.toNat / 16), hexDigitOf (c.toNat % 16)]
    else [c]

def quoted (s : String) : List Char := '"' :: (s.toList.flatMap escape ++ ['"'])

def Number.written : Number → List Char
  | .integer n _ => (toString n).toList
  | .binary x => if x.isFinite then numberLayout.writeBinary x else "null".toList

mutual

def compact : Json → List Char
  | null => "null".toList
  | bool b => (if b then "true" else "false").toList
  | number n => n.written
  | string s => quoted s
  | array items => '[' :: compactItems items
  | object members => '{' :: compactMembers members

/-- The items up to the end of their array. -/
def compactItems : List Json → List Char
  | [] => [']']
  | [item] => item.compact ++ [']']
  | item :: items => item.compact ++ ',' :: compactItems items

/-- The members up to the end of their object. -/
def compactMembers : List (String × Json) → List Char
  | [] => ['}']
  | [(name, value)] => quoted name ++ ':' :: (value.compact ++ ['}'])
  | (name, value) :: members => quoted name ++ ':' :: (value.compact ++ ',' :: compactMembers members)

end

def newLine (depth : Nat) : List Char := '\n' :: List.replicate (2 * depth) ' '

mutual

/-- A value over lines that are indented by two blanks for each container around them. Empty
containers stay on one line. -/
def indented (depth : Nat) : Json → List Char
  | array [] => ['[', ']']
  | object [] => ['{', '}']
  | array items => '[' :: indentedItems (depth + 1) items ++ newLine depth ++ [']']
  | object members => '{' :: indentedMembers (depth + 1) members ++ newLine depth ++ ['}']
  | other => other.compact

def indentedItems (depth : Nat) : List Json → List Char
  | [] => []
  | [item] => newLine depth ++ item.indented depth
  | item :: items => newLine depth ++ item.indented depth ++ ',' :: indentedItems depth items

def indentedMembers (depth : Nat) : List (String × Json) → List Char
  | [] => []
  | [(name, value)] => newLine depth ++ quoted name ++ ':' :: ' ' :: value.indented depth
  | (name, value) :: members =>
    newLine depth ++ quoted name ++ ':' :: ' ' :: value.indented depth ++
      ',' :: indentedMembers depth members

end

def render (value : Json) : String := String.ofList value.compact

def renderPretty (value : Json) : String := String.ofList (value.indented 0)

end CodeNav.Json
