import TypedFormula.Binary64.Rounding
import TypedFormula.Decimal.Reader
import TypedFormula.Json

/-!
# Numbers in JSON

The value of a number is computed in several roundings, and need not be the number nearest to the
decimal written. As many leading digits as fit into an unsigned word of 64 bits make an integer;
other digits only count, before the point. The integer is rounded, and multiplied or divided by
the power of ten that is left. A number beyond the largest one is refused.
-/

namespace TypedFormula

namespace NumberLiteral

/-! ### Digits that fit -/

/-- Leading digits as an integer, and the power of ten that belongs to it. -/
structure Significand where
  /-- The integer. -/
  digits : Nat
  /-- The power of ten. -/
  power : Int
deriving DecidableEq

/-- The least number that needs more than 64 bits. -/
def wordLimit : Nat := 18446744073709551616

/-- Whether one more digit fits into an unsigned word. -/
def Significand.takes (s : Significand) (c : Char) : Bool :=
  decide (10 * s.digits + Decimal.digitValue c < wordLimit)

/-- Digits before the point: taken while they fit, and counted from the first one that does not. -/
def Significand.addWhole (s : Significand) : List Char → Significand
  | [] => s
  | c :: cs =>
    if s.takes c then Significand.addWhole ⟨10 * s.digits + Decimal.digitValue c, s.power⟩ cs
    else ⟨s.digits, s.power + (cs.length + 1)⟩

/-- Digits behind the point: taken while they fit, and left out from the first one that does
not. -/
def Significand.addFraction (s : Significand) : List Char → Significand
  | [] => s
  | c :: cs =>
    if s.takes c then
      Significand.addFraction ⟨10 * s.digits + Decimal.digitValue c, s.power - 1⟩ cs
    else s

/-- The digits of a number that fit, with the power of ten. -/
def significand (l : NumberLiteral) : Significand :=
  let s := ((⟨0, 0⟩ : Significand).addWhole l.whole).addFraction l.fraction
  ⟨s.digits, s.power + l.exponent⟩

/-! ### Powers of ten -/

/-- The largest exponent of a power of ten among the numbers. -/
def maxPower : Nat := 308

/-- The number nearest to a power of ten. -/
def powerOfTen (n : Nat) : Float := Decimal.nearest false 1 n

/-- A number divided by a power of ten, in steps that are powers of ten themselves. -/
def shrink (x : Float) (n : Nat) : Float :=
  if n ≤ maxPower then x / powerOfTen n
  else if Float.beq x 0 then x
  else shrink (x / powerOfTen maxPower) (n - maxPower)
termination_by n
decreasing_by simp only [maxPower] at *; omega

/-- A number multiplied by a power of ten, unless that is too large. -/
def grow? (x : Float) (n : Nat) : Option Float :=
  if n ≤ maxPower then (some (x * powerOfTen n)).filter Float.isFinite
  else if Float.beq x 0 then some x
  else none

/-! ### Values -/

/-- The value of a number, unless it is too large. -/
def value? (l : NumberLiteral) : Option Float :=
  let s := l.significand
  let x := Binary64.ofInt s.digits
  let magnitude := if s.power < 0 then some (shrink x s.power.natAbs) else grow? x s.power.toNat
  magnitude.map fun y => if l.negative then -y else y

end NumberLiteral

end TypedFormula
