/-!
# Orders on binary64 numbers

Three ways to compare numbers: the partial order in which NaN is comparable with nothing
(`order`), the selection of a larger or smaller number that passes over NaN (`larger`,
`smaller`), and the total order of bit patterns in which `-0` precedes `0` and NaN comes last
(`rank`). A sum sorts by the places of the magnitudes in the last (`sortedByMagnitude`).
-/

namespace TypedFormula.Binary64

/-- How two numbers compare; NaN compares with nothing, and `-0` equals `0`. -/
def order (x y : Float) : Option Ordering := x.toModel.compare y.toModel

/-- The larger of two numbers, passing over a NaN. -/
def larger (x y : Float) : Float :=
  if y.isNaN then x else if x.isNaN then y else if x < y then y else x

/-- The smaller of two numbers, passing over a NaN. -/
def smaller (x y : Float) : Float :=
  if y.isNaN then x else if x.isNaN then y else if y < x then y else x

/-- The bit of the sign: all patterns below it belong to numbers without one. -/
def signBit : Nat := 9223372036854775808

/-- The place of a number in the total order of bit patterns: negative numbers count down from
minus one, all others up from zero. -/
def rank (x : Float) : Int :=
  let bits := x.toBits.toNat
  if bits < signBit then bits else (signBit : Int) - 1 - bits

/-- The place of the magnitude of a number in the total order. -/
def magnitudeRank (x : Float) : Nat := x.toBits.toNat % signBit

/-- The numbers by ascending magnitude; equal magnitudes stay in their order. -/
def sortedByMagnitude (xs : List Float) : List Float :=
  xs.mergeSort fun x y => decide (magnitudeRank x ≤ magnitudeRank y)

end TypedFormula.Binary64
