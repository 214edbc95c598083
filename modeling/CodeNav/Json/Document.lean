import CodeNav.Json.Token

/-! # JSON documents

A document is a JSON text before its meaning: objects keep members of one name, and numerals and
strings may denote nothing. What a reader does not ask for is not looked into.
-/

namespace CodeNav.Json

inductive Document where
  | null
  | bool (b : Bool)
  | number (n : Option Number)
  | string (s : Option String)
  | array (items : List Document)
  | object (members : List (Option String × Document))

namespace Document

/-- A container whose end has not been read, with what it holds so far, last first. -/
inductive Open where
  | array (items : List Document)
  | object (members : List (Option String × Document))
  /-- An object whose last name still lacks its value. -/
  | member (members : List (Option String × Document)) (name : Option String)

inductive Expected where
  | value
  /-- A first item, or the end of an array. -/
  | itemOrEnd
  | name
  /-- A first name, or the end of an object. -/
  | nameOrEnd
  | colon
  /-- A comma, or the end of the innermost container. -/
  | separator
  | nothing (document : Document)

structure Reading where
  expected : Expected
  containers : List Open

namespace Reading

def start : Reading := ⟨.value, []⟩

def put (value : Document) : List Open → Reading
  | [] => ⟨.nothing value, []⟩
  | .array items :: outer => ⟨.separator, .array (value :: items) :: outer⟩
  | .member members name :: outer => ⟨.separator, .object ((name, value) :: members) :: outer⟩
  | .object members :: outer => ⟨.separator, .object ((none, value) :: members) :: outer⟩

/-- Reads a token at which a value starts. -/
def beginValue? (containers : List Open) : Token → Option Reading
  | .null => some (put .null containers)
  | .bool b => some (put (.bool b) containers)
  | .number n => some (put (.number n) containers)
  | .string s => some (put (.string s) containers)
  | .openBracket => some ⟨.itemOrEnd, .array [] :: containers⟩
  | .openBrace => some ⟨.nameOrEnd, .object [] :: containers⟩
  | _ => none

def close? : Token → List Open → Option Reading
  | .closeBracket, .array items :: outer => some (put (.array items.reverse) outer)
  | .closeBrace, .object members :: outer => some (put (.object members.reverse) outer)
  | _, _ => none

def beginName? : Token → List Open → Option Reading
  | .string s, .object members :: outer => some ⟨.colon, .member members s :: outer⟩
  | _, _ => none

def step? (reading : Reading) (token : Token) : Option Reading :=
  match reading.expected with
  | .value => beginValue? reading.containers token
  | .itemOrEnd =>
    if token = .closeBracket then close? token reading.containers
    else beginValue? reading.containers token
  | .name => beginName? token reading.containers
  | .nameOrEnd =>
    if token = .closeBrace then close? token reading.containers
    else beginName? token reading.containers
  | .colon => if token = .colon then some ⟨.value, reading.containers⟩ else none
  | .separator =>
    if token = .comma then
      match reading.containers with
      | .array _ :: _ => some ⟨.value, reading.containers⟩
      | _ => some ⟨.name, reading.containers⟩
    else close? token reading.containers
  | .nothing _ => none

def finish? (reading : Reading) : Option Document :=
  match reading.expected with
  | .nothing document => some document
  | _ => none

end Reading

def ofTokens? (tokens : List Token) : Option Document := do
  (← tokens.foldlM Reading.step? Reading.start).finish?

def ofText? (text : List Char) : Option Document := do
  ofTokens? (← Token.ofText? text)

/-- The number of containers that a reader may be inside of at once. -/
def maxDepth : Nat := 127

mutual

/-- The value of a document that may open the given number of containers, one in the other. Of
two members with one name the last stays. -/
def value? (depth : Nat) : Document → Option Json
  | .null => some .null
  | .bool b => some (.bool b)
  | .number n => n.map .number
  | .string s => s.map .string
  | .array items =>
    match depth with
    | 0 => none
    | depth + 1 => (values? depth items).map .array
  | .object members =>
    match depth with
    | 0 => none
    | depth + 1 => (memberValues? depth members).map fun values => .object (sortMembers values)

def values? (depth : Nat) : List Document → Option (List Json)
  | [] => some []
  | item :: items => do return (← item.value? depth) :: (← values? depth items)

def memberValues? (depth : Nat) : List (Option String × Document) → Option (List (String × Json))
  | [] => some []
  | (name, item) :: members => do
    return (← name, ← item.value? depth) :: (← memberValues? depth members)

end

mutual

def ofJson : Json → Document
  | .null => .null
  | .bool b => .bool b
  | .number n => .number (some n)
  | .string s => .string (some s)
  | .array items => .array (ofItems items)
  | .object members => .object (ofMembers members)

def ofItems : List Json → List Document
  | [] => []
  | item :: items => ofJson item :: ofItems items

def ofMembers : List (String × Json) → List (Option String × Document)
  | [] => []
  | (name, value) :: members => (some name, ofJson value) :: ofMembers members

end

end Document

/-- The value that a text spells out, of any depth up to the given one. -/
def ofText? (text : List Char) (depth : Nat) : Option Json := do
  (← Document.ofText? text).value? depth

end CodeNav.Json
