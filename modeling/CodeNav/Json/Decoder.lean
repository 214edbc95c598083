import CodeNav.Json.Document

/-! # Reading records from JSON

A decoder reads a value of some type from a document that may open a bounded number of containers.
A record is given by its members, in any order and among unknown ones, or as an array of its fields
in their declared order. A field that is given twice is an error.
-/

namespace CodeNav.Json

/-- Reads a value from a document that may open the given number of containers. -/
abbrev Decoder (α : Type) := Nat → Document → Option α

namespace Decoder

def value : Decoder Json := fun depth document => document.value? depth

def string : Decoder String
  | _, .string s => s
  | _, _ => none

def bool : Decoder Bool
  | _, .bool b => some b
  | _, _ => none

/-- An integer from the given ones. -/
def integerFrom (least greatest : Int) : Decoder Int
  | _, .number (some (.integer n _)) => if least ≤ n ∧ n ≤ greatest then some n else none
  | _, _ => none

/-- An unsigned 64-bit number. -/
def natural : Decoder Nat := fun depth document =>
  (integerFrom 0 ((1 <<< 64 : Nat) - 1) depth document).map Int.toNat

/-- A signed 64-bit number. -/
def integer : Decoder Int := integerFrom (-(1 <<< 63 : Nat)) ((1 <<< 63 : Nat) - 1)

/-- A value, or `null` for none. -/
def option (decoder : Decoder α) : Decoder (Option α)
  | _, .null => some none
  | depth, document => (decoder depth document).map some

def list (decoder : Decoder α) : Decoder (List α)
  | depth + 1, .array items => items.mapM (decoder depth)
  | _, _ => none

/-- Puts an entry at the end of entries, or in place of the one with its name. -/
def insertEntry (entries : List (String × α)) (name : String) (value : α) : List (String × α) :=
  match entries with
  | [] => [(name, value)]
  | (other, held) :: rest =>
    if other = name then (name, value) :: rest else (other, held) :: insertEntry rest name value

/-- An object with any names; of two entries with one name the last stays. -/
def dictionary (decoder : Decoder α) : Decoder (List (String × α))
  | depth + 1, .object members => do
    let entries ← members.mapM fun (name, item) => do return (← name, ← decoder depth item)
    return entries.foldl (fun known (name, value) => insertEntry known name value) []
  | _, _ => none

/-- One of the given names, as a string or as the only member of an object, with the value
`null`. -/
def choice (choices : List (String × α)) : Decoder α
  | _, .string (some s) => choices.lookup s
  | _ + 1, .object [(some s, .null)] => choices.lookup s
  | _, _ => none

/-- The documents of the fields of a record, for each declared name at most one, and the depth
that is left for them. -/
def fields (names : List String) : Decoder (Nat × List (Option Document))
  | depth + 1, .array items =>
    if items.length ≤ names.length then
      some (depth, items.map some ++ List.replicate (names.length - items.length) none)
    else none
  | depth + 1, .object members => do
    let known ← members.mapM fun (name, item) => do return (← name, item)
    let found ← names.mapM fun name =>
      match known.filter (·.1 = name) with
      | [] => some none
      | [(_, item)] => some (some item)
      | _ => none
    return (depth, found)
  | _, _ => none

def required (decoder : Decoder α) (depth : Nat) (field : Option Document) : Option α :=
  field.bind (decoder depth)

def defaulted (default : α) (decoder : Decoder α) (depth : Nat) : Option Document → Option α
  | none => some default
  | some document => decoder depth document

def readText? (decoder : Decoder α) (text : List Char) : Option α := do
  decoder Document.maxDepth (← Document.ofText? text)

def readValue? (decoder : Decoder α) (value : Json) : Option α :=
  decoder Document.maxDepth (Document.ofJson value)

end Decoder

end CodeNav.Json
