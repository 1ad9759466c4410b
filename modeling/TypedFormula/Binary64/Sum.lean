import TypedFormula.Binary64.Order

/-!
# Sums with compensation

`compensatedSum` adds numbers so that cancellation does not spoil the result: the non-negative
numbers and the others are added apart, each by ascending magnitude, the rounding error of every
addition is carried along, and all errors are added at the end. The order of the input does not
matter.
-/

namespace TypedFormula.Binary64

/-- A sum of two numbers and the error of its rounding. -/
def twoSum (a b : Float) : Float × Float :=
  let s := a + b
  let b' := s - a
  let a' := s - b'
  (s, (a - a') + (b - b'))

/-- The running sum of numbers, left to right, and the sum of the rounding errors. -/
def accumulate (xs : List Float) : Float × Float :=
  xs.foldl (fun acc x => let step := twoSum acc.1 x; (step.1, acc.2 + step.2)) (0, 0)

/-- The sum of numbers with the rounding errors folded in. A sum that overflows is given as it
is. -/
def compensatedSum (xs : List Float) : Float :=
  let upper := accumulate (sortedByMagnitude (xs.filter fun x => decide (0 ≤ x)))
  let lower := accumulate (sortedByMagnitude (xs.filter fun x => !decide (0 ≤ x)))
  let total := twoSum upper.1 lower.1
  if total.1.isFinite then total.1 + (upper.2 + lower.2 + total.2) else total.1

end TypedFormula.Binary64
