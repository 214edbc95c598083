import CodeNav.Word

/-! # Binary floating-point numbers

A number with a fraction is kept as the 64 bits of its binary format. A decimal numeral is scaled
by table powers of ten, which rounds at each step.
-/

namespace CodeNav

/-- A number in the 64-bit binary format, by its bits. -/
structure Binary64 where
  bits : UInt64
  deriving DecidableEq, Repr

namespace Binary64

def ofFloat (x : Float) : Binary64 := ⟨x.toBits⟩

def toFloat (x : Binary64) : Float := Float.ofBits x.bits

def isNegative (x : Binary64) : Bool := 1 <<< 63 ≤ x.bits.toNat

def exponentField (x : Binary64) : Nat := x.bits.toNat >>> 52 % 1 <<< 11

/-- The 52 bits after the leading one. -/
def fractionField (x : Binary64) : Nat := x.bits.toNat % 1 <<< 52

def isFinite (x : Binary64) : Bool := x.exponentField != 2047

/-- The integer significand and the power of two of a finite number without its sign. -/
def magnitude (x : Binary64) : Nat × Int :=
  if x.exponentField = 0 then (x.fractionField, -1074)
  else (1 <<< 52 + x.fractionField, (x.exponentField : Int) - 1075)

/-- The greatest power of ten that is a single table entry. -/
def maxTablePower : Nat := 308

def tablePower (k : Nat) : Float := Float.ofScientific 1 false k

/-- Divides by a power of ten, by the greatest table entry as long as the power is larger. -/
def scaleDown (x : Float) (k : Nat) : Float :=
  if k ≤ maxTablePower then x / tablePower k
  else if x == 0 then x
  else scaleDown (x / tablePower maxTablePower) (k - maxTablePower)
termination_by k
decreasing_by simp_all [maxTablePower]; omega

/-- The value `significand * 10 ^ exponent`, if it is finite. -/
def ofParts? (significand : Nat) (exponent : Int) : Option Float :=
  let x := (UInt64.ofNat significand).toFloat
  if exponent < 0 then some (scaleDown x exponent.natAbs)
  else if exponent.natAbs ≤ maxTablePower then
    let y := x * tablePower exponent.natAbs
    if y.isInf then none else some y
  else if x == 0 then some x
  else none

end Binary64

end CodeNav
