import CodeNav.Decimal.Binary64

/-! # JSON values

Integers between `-2^63` and `2^64 - 1` are kept exactly; every other number is a binary
floating-point number. The members of an object are kept in the order in which they are written.
-/

namespace CodeNav

/-- The integers that a JSON number keeps exactly. -/
def Json.ExactInteger (n : Int) : Prop := -(1 <<< 63 : Nat) ≤ n ∧ n < (1 <<< 64 : Nat)

instance (n : Int) : Decidable (Json.ExactInteger n) :=
  inferInstanceAs (Decidable (_ ∧ _))

inductive Json.Number where
  | integer (n : Int) (exact : Json.ExactInteger n)
  | binary (x : Binary64)
  deriving DecidableEq

inductive Json where
  | null
  | bool (b : Bool)
  | number (n : Json.Number)
  | string (s : String)
  | array (items : List Json)
  | object (members : List (String × Json))

namespace Json

instance : Inhabited Json := ⟨null⟩

/-- An unsigned number. A count past the exact range becomes the nearest binary number. -/
def natural (n : Nat) : Json :=
  if h : ExactInteger n then number (.integer n h) else number (.binary (.ofFloat (Float.ofNat n)))

def integer (n : Int) : Json :=
  if h : ExactInteger n then number (.integer n h) else number (.binary (.ofFloat (Float.ofInt n)))

def strings (texts : List String) : Json := array (texts.map string)

/-- The value, or `null` where there is none. -/
def ofOption (value? : Option Json) : Json := value?.getD null

/-- Puts a member into members that are sorted by name, in place of one of the same name. -/
def insertMember (name : String) (value : Json) : List (String × Json) → List (String × Json)
  | [] => [(name, value)]
  | (other, held) :: rest =>
    match compare name other with
    | .lt => (name, value) :: (other, held) :: rest
    | .eq => (name, value) :: rest
    | .gt => (other, held) :: insertMember name value rest

/-- Sorts members by name; of two with one name the last stays. -/
def sortMembers (members : List (String × Json)) : List (String × Json) :=
  members.foldl (fun sorted (name, value) => insertMember name value sorted) []

mutual

def sorted : Json → Json
  | array items => array (sortedItems items)
  | object members => object (sortMembers (sortedMembers members))
  | other => other

def sortedItems : List Json → List Json
  | [] => []
  | item :: items => item.sorted :: sortedItems items

def sortedMembers : List (String × Json) → List (String × Json)
  | [] => []
  | (name, value) :: members => (name, value.sorted) :: sortedMembers members

end

def member? (value : Json) (name : String) : Option Json :=
  match value with
  | object members => members.lookup name
  | _ => none

def natural? : Json → Option Nat
  | number (.integer n _) => if 0 ≤ n then some n.toNat else none
  | _ => none

end Json

end CodeNav
