/-! # Columns in UTF-16 units

Columns, offsets and lengths count UTF-16 units, in which a character outside the basic plane
counts twice. A column is a character boundary when some prefix of whole characters ends at it.
-/

namespace CodeNav.Text

/-- The number of UTF-16 units of one character. -/
def charUnits (c : Char) : Nat := if c.toNat < 0x10000 then 1 else 2

/-- The number of UTF-16 units of a text. -/
def units (text : List Char) : Nat := text.foldr (fun c n => charUnits c + n) 0

/-- The number of bytes of a text in UTF-8. -/
def byteLength (text : List Char) : Nat := text.foldr (fun c n => c.utf8Size + n) 0

/-- Cuts a text at a column; there is no cut inside a character or past the end. -/
def cutAt? : List Char → Nat → Option (List Char × List Char)
  | text, 0 => some ([], text)
  | [], _ + 1 => none
  | c :: text, column + 1 =>
    if charUnits c ≤ column + 1 then
      (cutAt? text (column + 1 - charUnits c)).map fun (before, after) => (c :: before, after)
    else none

/-- The byte position of a column, if the column is a character boundary. -/
def byteIndex? (line : List Char) (column : Nat) : Option Nat :=
  (cutAt? line column).map fun (before, _) => byteLength before

/-- The text between two columns, both of which have to be character boundaries. -/
def slice? (line : List Char) (start stop : Nat) : Option (List Char) := do
  let (_, after) ← cutAt? line start
  let _ ← cutAt? line stop
  if start ≤ stop then
    let (inside, _) ← cutAt? after (stop - start)
    return inside
  else none

@[simp] theorem units_nil : units [] = 0 := rfl

@[simp] theorem units_cons (c : Char) (text : List Char) :
    units (c :: text) = charUnits c + units text := rfl

theorem charUnits_pos (c : Char) : 0 < charUnits c := by
  unfold charUnits; split <;> decide

end CodeNav.Text
