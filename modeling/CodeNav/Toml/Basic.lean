/-! # TOML values

A document is a table. The settings that are read from it are texts and integers, so numbers with a
fraction and dates keep only their kind.
-/

namespace CodeNav

inductive Toml where
  | string (s : String)
  | integer (n : Int)
  | float
  | boolean (b : Bool)
  | date
  | array (items : List Toml)
  | table (members : List (String × Toml))

namespace Toml

instance : Inhabited Toml := ⟨boolean false⟩

def minInteger : Int := -(1 <<< 63 : Nat)

def maxInteger : Int := (1 <<< 63 : Nat) - 1

end Toml

end CodeNav
