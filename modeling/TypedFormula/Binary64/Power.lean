/-!
# Integer powers of binary64 numbers

`power x n` multiplies along the binary digits of `n`, from the lowest up, rounding after every
product; the last digit does not square once more, so no overflow arises beyond the result's own.
-/

namespace TypedFormula.Binary64

/-- The product of `acc` and the powers of `base` that the binary digits of `n` select. -/
def powerLoop (base acc : Float) (n : Nat) : Float :=
  let acc := if n % 2 = 1 then acc * base else acc
  if h : n / 2 = 0 then acc else powerLoop (base * base) acc (n / 2)
termination_by n
decreasing_by omega

/-- A number raised to a natural power by repeated squaring. -/
def power (base : Float) (n : Nat) : Float := powerLoop base 1 n

end TypedFormula.Binary64
