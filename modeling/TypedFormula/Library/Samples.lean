import TypedFormula.Library.Numbers

/-!
# Library functions on samples

Every function here flattens its arguments into one sample of numbers: mean, count, extremes,
median, sample variance and its square root. Sums run through `Binary64.compensatedSum`.
-/

namespace TypedFormula.Library

/-! ### Statistics -/

/-- The sum of a sample over its size. -/
def meanOf (xs : List Float) : Float :=
  Binary64.compensatedSum xs / Binary64.ofNat xs.length

/-- The sample variance; it needs two numbers. -/
def varianceOf (xs : List Float) : Except FunctionError Float :=
  if xs.length < 2 then .error (.arithmetic .oneNumber)
  else
    let mean := meanOf xs
    let squares := xs.map fun x => (x - mean) * (x - mean)
    .ok (Binary64.compensatedSum squares / Binary64.ofNat (xs.length - 1))

/-- The middle of a sorted sample, half way between the two middle numbers of an even one. -/
def middleOf (xs : List Number) : Number :=
  let half := xs.length / 2
  let middle := xs.getD half (.plain 0)
  if xs.length % 2 = 0 then
    .combine (fun x y => (x + y) / 2) (xs.getD (half - 1) (.plain 0)) middle
  else middle

/-- The sample of all arguments, which must not be empty. -/
def sampleArguments (statistic : String) (args : List Value) :
    Except FunctionError (List Number) := do
  let xs ← numberArguments args
  if xs.isEmpty then .error (.arithmetic (.noNumbers statistic)) else return xs

/-! ### Bodies -/

/-- The mean of all numbers. -/
def average (args : List Value) : Except FunctionError Value := do
  let xs ← sampleArguments "average" args
  finiteResult "AVERAGE" (meanOf (xs.map Number.value))

/-- The number of numbers. -/
def count (args : List Value) : Except FunctionError Value := do
  let xs ← numberArguments args
  return .integer (Int64.ofNat xs.length)

/-- The largest of all numbers. -/
def max (args : List Value) : Except FunctionError Value := do
  let xs ← sampleArguments "maximum" args
  return .float (.plain ((xs.map Number.value).foldl Binary64.larger (-1 / 0)))

/-- The smallest of all numbers. -/
def min (args : List Value) : Except FunctionError Value := do
  let xs ← sampleArguments "minimum" args
  return .float (.plain ((xs.map Number.value).foldl Binary64.smaller (1 / 0)))

/-- The median of all numbers. -/
def median (args : List Value) : Except FunctionError Value := do
  let xs ← sampleArguments "median" args
  return .float (middleOf (Number.sorted xs))

/-- The sample standard deviation of all numbers. -/
def stdev (args : List Value) : Except FunctionError Value := do
  let xs ← floatArguments args
  let variance ← varianceOf xs
  finiteResult "STDEV" variance.sqrt

/-- The sample variance of all numbers. -/
def var (args : List Value) : Except FunctionError Value := do
  let xs ← floatArguments args
  let variance ← varianceOf xs
  finiteResult "VAR" variance

/-! ### Signatures -/

/-- The library functions on samples. -/
def sampleFunctions : List Function :=
  [floatFunction "AVERAGE" "Returns the arithmetic mean of numbers and numeric lists."
     [.atLeastOne "numbers" .numbers] average,
   ⟨"COUNT", "Returns how many numbers there are in numbers and numeric lists.",
     [.atLeastOne "numbers" .numbers], .known .integer, none, count⟩,
   floatFunction "MAX" "Returns the largest of numbers and numeric lists."
     [.atLeastOne "numbers" .numbers] max,
   floatFunction "MEDIAN" "Returns the median of numbers and numeric lists."
     [.atLeastOne "numbers" .numbers] median,
   floatFunction "MIN" "Returns the smallest of numbers and numeric lists."
     [.atLeastOne "numbers" .numbers] min,
   floatFunction "STDEV" "Returns the sample standard deviation."
     [.atLeastOne "numbers" .numbers] stdev,
   floatFunction "VAR" "Returns the sample variance." [.atLeastOne "numbers" .numbers] var]

end TypedFormula.Library
