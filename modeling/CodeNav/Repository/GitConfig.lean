/-! # Git configuration files

A file assigns values to keys within sections. The full name of a key is its section, the
subsection if there is one, and the key, with points between them; section and key are read in
lower case. A value may be quoted, may go on after a backslash at the end of a line, and ends at a
comment.
-/

namespace CodeNav.GitConfig

/-- An assignment in a file, with the full name of its key. A key may stand without a value. -/
structure Setting where
  name : String
  value? : Option String
  deriving DecidableEq, Repr

/-- A line that is no section, setting or comment, counted from one. -/
structure BadLine where
  number : Nat
  deriving DecidableEq, Repr

/-- A value that is being read, last character first. -/
structure Value where
  text : List Char
  /-- Blanks that count only if something follows them. -/
  blanks : List Char
  quoted : Bool
  afterBackslash : Bool
  inComment : Bool
  deriving DecidableEq, Repr

/-- Where a reader is in a file. Names are held last character first. -/
inductive Place where
  | lineStart
  | comment
  | heading (name : List Char)
  | beforeQuote (name : List Char)
  | quoted (name : List Char)
  | afterBackslash (name : List Char)
  | afterQuote (name : List Char)
  | key (name : List Char)
  | afterKey (name : List Char)
  | value (name : List Char) (value : Value)
  deriving DecidableEq, Repr

structure Reader where
  place : Place
  /-- The full name of the section, last character first. -/
  within : List Char
  /-- The settings read so far, last one first. -/
  settings : List Setting
  line : Nat
  deriving DecidableEq, Repr

def isSpace (c : Char) : Bool := c == ' ' || c == '\t' || c == '\n' || c == '\r'

def isNameChar (c : Char) : Bool := c.isAlphanum || c == '-'

namespace Value

def empty : Value := ⟨[], [], false, false, false⟩

def push (value : Value) (c : Char) : Value :=
  { value with text := c :: (value.blanks ++ value.text), blanks := [], afterBackslash := false }

def unescape? : Char → Option Char
  | 't' => some '\t'
  | 'b' => some '\x08'
  | 'n' => some '\n'
  | '\\' => some '\\'
  | '"' => some '"'
  | _ => none

/-- Reads a character other than the line feed that ends the value. -/
def step? (value : Value) (c : Char) : Option Value :=
  if value.inComment then some value
  else if value.afterBackslash then
    if c = '\n' then some { value with afterBackslash := false }
    else (unescape? c).map value.push
  else if isSpace c && !value.quoted then
    if value.text.isEmpty then some value else some { value with blanks := c :: value.blanks }
  else if (c == ';' || c == '#') && !value.quoted then some { value with inComment := true }
  else if c = '\\' then
    some { value with text := value.blanks ++ value.text, blanks := [], afterBackslash := true }
  else if c = '"' then
    some { value with
      text := value.blanks ++ value.text, blanks := [], quoted := !value.quoted }
  else some (value.push c)

/-- Tests whether a line feed ends the value here. -/
def endsAtLine (value : Value) : Bool := value.inComment || !value.afterBackslash

end Value

namespace Reader

def start : Reader := ⟨.lineStart, [], [], 1⟩

def assign (reader : Reader) (key : List Char) (value? : Option (List Char)) : Reader :=
  { reader with
    place := .lineStart
    settings :=
      ⟨String.ofList (reader.within.reverse ++ '.' :: key.reverse),
        value?.map fun value => String.ofList value.reverse⟩ :: reader.settings }

def enter (reader : Reader) (name : List Char) : Reader :=
  { reader with place := .lineStart, within := name }

/-- Reads a character after a key. -/
def afterKey? (reader : Reader) (key : List Char) (c : Char) : Option Reader :=
  if c = '\n' then some (reader.assign key none)
  else if c = '=' then some { reader with place := .value key .empty }
  else if c = ' ' ∨ c = '\t' then some { reader with place := .afterKey key }
  else none

/-- Reads one character; there is no result where a line is bad. -/
def step? (reader : Reader) (c : Char) : Option Reader :=
  match reader.place with
  | .lineStart =>
    if isSpace c then some reader
    else if c = '#' ∨ c = ';' then some { reader with place := .comment }
    else if c = '[' then some { reader with place := .heading [] }
    else if c.isAlpha then some { reader with place := .key [c.toLower] }
    else none
  | .comment => some (if c = '\n' then { reader with place := .lineStart } else reader)
  | .heading name =>
    if c = ']' then if name.isEmpty then none else some (reader.enter name)
    else if c = '\n' then none
    else if isSpace c then some { reader with place := .beforeQuote name }
    else if isNameChar c || c == '.' then some { reader with place := .heading (c.toLower :: name) }
    else none
  | .beforeQuote name =>
    if c = '"' then some { reader with place := .quoted ('.' :: name) }
    else if isSpace c && c != '\n' then some reader
    else none
  | .quoted name =>
    if c = '\n' then none
    else if c = '"' then some { reader with place := .afterQuote name }
    else if c = '\\' then some { reader with place := .afterBackslash name }
    else some { reader with place := .quoted (c :: name) }
  | .afterBackslash name =>
    if c = '\n' then none else some { reader with place := .quoted (c :: name) }
  | .afterQuote name => if c = ']' then some (reader.enter name) else none
  | .key name =>
    if isNameChar c then some { reader with place := .key (c.toLower :: name) }
    else afterKey? reader name c
  | .afterKey name => afterKey? reader name c
  | .value name value =>
    if c = '\n' ∧ value.endsAtLine then
      if value.quoted then none else some (reader.assign name (some value.text))
    else (value.step? c).map fun value => { reader with place := .value name value }

/-- Reads one character and counts the lines. -/
def next (reader : Reader) (c : Char) : Except BadLine Reader :=
  match reader.step? c with
  | some after => .ok { after with line := if c = '\n' then reader.line + 1 else reader.line }
  | none => .error ⟨reader.line⟩

end Reader

/-- Drops every carriage return before a line feed. -/
def dropReturns : List Char → List Char
  | [] => []
  | '\r' :: '\n' :: text => '\n' :: dropReturns text
  | c :: text => c :: dropReturns text

/-- The settings of a file in their order. The end of the file ends the last line. -/
def settings (text : List Char) : Except BadLine (List Setting) := do
  let reader ← (dropReturns text ++ ['\n', '\n']).foldlM Reader.next Reader.start
  return reader.settings.reverse

/-- The value of the last setting with a name. -/
def lookup? (name : String) (settings : List Setting) : Option (Option String) :=
  (settings.reverse.find? (·.name == name)).map (·.value?)

end CodeNav.GitConfig
