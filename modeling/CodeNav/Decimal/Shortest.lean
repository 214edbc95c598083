import CodeNav.Decimal.Binary64

/-! # The shortest decimal that reads back

A finite binary number stands for the interval of reals that round to it. Its text has the fewest
significant digits that any decimal in the interval has, and among those digits the nearest to
the number itself.
-/

namespace CodeNav.Decimal

/-- The reals that round to a number, as multiples of `2 ^ (exponent - 2)`. -/
structure Rounding where
  lower : Nat
  value : Nat
  upper : Nat
  exponent : Int
  /-- Whether the two ends round to the number themselves. -/
  closed : Bool
  deriving DecidableEq, Repr

/-- The interval of a finite positive number. Below a power of two the grid is twice as fine. -/
def Rounding.of (x : Binary64) : Rounding :=
  let (m, q) := x.magnitude
  let below := if x.fractionField = 0 ∧ 1 < x.exponentField then 1 else 2
  ⟨4 * m - below, 4 * m, 4 * m + 2, q - 2, m % 2 = 0⟩

/-- A decimal `digits * 10 ^ exponent`. -/
structure Scientific where
  digits : Nat
  exponent : Int
  deriving DecidableEq, Repr

/-- Two naturals whose quotient is `n * 2 ^ twos * 10 ^ tens`. -/
def ratio (n : Nat) (twos tens : Int) : Nat × Nat :=
  (n * Nat.pow 2 twos.toNat * Nat.pow 10 tens.toNat,
    Nat.pow 2 (-twos).toNat * Nat.pow 10 (-tens).toNat)

/-- The decimal on the grid of multiples of `10 ^ exponent` that is nearest to the number, if it
lies in the interval. -/
def Rounding.onGrid? (r : Rounding) (exponent : Int) : Option Scientific :=
  let (value, unit) := ratio r.value r.exponent (-exponent)
  let (lower, _) := ratio r.lower r.exponent (-exponent)
  let (upper, _) := ratio r.upper r.exponent (-exponent)
  let inside (n : Nat) : Bool :=
    if r.closed then lower ≤ n * unit && n * unit ≤ upper else lower < n * unit && n * unit < upper
  let down := value / unit
  let up := down + 1
  let remainder := value % unit
  let nearer := if 2 * remainder < unit ∨ (2 * remainder = unit ∧ down % 2 = 0) then [down, up]
    else [up, down]
  (nearer.find? inside).map fun n => ⟨n, exponent⟩

/-- The number of decimal digits before the point; it is not positive for a number below one. -/
def Rounding.pointPosition (r : Rounding) : Int :=
  let (value, unit) := ratio r.value r.exponent 0
  if unit ≤ value then (Nat.toDigits 10 (value / unit)).length
  else
    let inverse := (unit + value - 1) / value
    let guess := -((Nat.toDigits 10 inverse).length : Int) + 1
    let (n, d) := ratio r.value r.exponent (-guess)
    if d ≤ n then guess + 1 else guess

def Scientific.trim (s : Scientific) : Scientific :=
  if h : s.digits ≠ 0 ∧ s.digits % 10 = 0 then trim ⟨s.digits / 10, s.exponent + 1⟩ else s
termination_by s.digits
decreasing_by exact Nat.div_lt_self (Nat.pos_of_ne_zero h.1) (by decide)

/-- The shortest decimal of a finite positive number; seventeen digits always suffice. -/
def shortest (x : Binary64) : Scientific :=
  let r := Rounding.of x
  let position := r.pointPosition
  let found := (List.range 17).findSome? fun (n : Nat) => r.onGrid? (position - 1 - n)
  (found.getD ⟨r.value, 0⟩).trim

structure Layout where
  /-- The greatest position of the point that is written without an exponent. -/
  maxPosition : Int
  /-- The position of the point from which on leading zeros are written. -/
  minPosition : Int
  deriving DecidableEq, Repr

/-- Writes a decimal in positional notation between the bounds of a layout, with at least one
digit after the point, and in scientific notation otherwise. -/
def Layout.write (layout : Layout) (s : Scientific) : List Char :=
  let digits := Nat.toDigits 10 s.digits
  let position : Int := digits.length + s.exponent
  if 0 ≤ s.exponent ∧ position ≤ layout.maxPosition then
    digits ++ List.replicate s.exponent.toNat '0' ++ ['.', '0']
  else if 0 < position ∧ position ≤ layout.maxPosition then
    digits.take position.toNat ++ '.' :: digits.drop position.toNat
  else if layout.minPosition ≤ position ∧ position ≤ 0 then
    '0' :: '.' :: (List.replicate (-position).toNat '0' ++ digits)
  else
    let mantissa := match digits with
      | [d] => [d]
      | d :: rest => d :: '.' :: rest
      | [] => []
    mantissa ++ 'e' :: (toString (position - 1)).toList

/-- Writes a finite number with its sign; zero keeps its sign too. -/
def Layout.writeBinary (layout : Layout) (x : Binary64) : List Char :=
  let sign := if x.isNegative then ['-'] else []
  if x.magnitude.1 = 0 then sign ++ ['0', '.', '0'] else sign ++ layout.write (shortest x)

end CodeNav.Decimal
