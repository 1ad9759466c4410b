import TypedFormula.Binary64.Logarithm
import TypedFormula.Binary64.Power
import TypedFormula.Binary64.Sum
import TypedFormula.Function.Argument

/-!
# Library functions on numbers

Absolute value, exponential and logarithms, remainder, powers of ten in rounding, sign, square
root, sum, product and truncation. Exponentials, remainders, sums and products that overflow are
errors; the other functions give what binary64 gives. Logarithms, roots and rounding hand a NaN
through with its sign. The logarithms are those of a platform (`Binary64.Logarithms`).
-/

namespace TypedFormula.Library

open Binary64 (Logarithms)

/-! ### Bodies -/

/-- The absolute value. -/
def abs (args : List Value) : Except FunctionError Value := do
  let x ← floatArgument args 0
  return .float (.plain x.abs)

/-- The exponential. -/
def exp (args : List Value) : Except FunctionError Value := do
  let x ← floatArgument args 0
  finiteResult "EXP" x.exp

/-- The natural logarithm of a positive number. -/
def ln [Logarithms] (args : List Value) : Except FunctionError Value := do
  let x ← numberArgument args 0
  if x.value ≤ 0 then .error (.arithmetic .logarithm) else return .float (x.map Logarithms.natural)

/-- The logarithm of a positive number to a base, which is 10 when it is left out. -/
def log [Logarithms] (args : List Value) : Except FunctionError Value := do
  let x ← numberArgument args 0
  let base ← if 1 < args.length then numberArgument args 1 else .ok (.plain 10)
  if x.value ≤ 0 then .error (.arithmetic .logarithm)
  else if base.value ≤ 0 || Float.beq base.value 1 then .error (.argument 2 .logarithmBase)
  else if Float.beq base.value 10 then return .float (x.map Logarithms.decimal)
  else
    return .float
      (.combine (fun x base => Logarithms.natural x / Logarithms.natural base) x base)

/-- The remainder of a division whose quotient is rounded down, so that it has the sign of the
divisor. -/
def remainder (x y : Float) : Float := x - y * Binary64.integral .down (x / y)

/-- The remainder of a division. -/
def mod (args : List Value) : Except FunctionError Value := do
  let x ← floatArgument args 0
  let y ← floatArgument args 1
  if Float.beq y 0 then .error (.arithmetic .divisionByZero)
  else finiteResult "MOD" (remainder x y)

/-- The ratio of a circle's circumference to its diameter. -/
def pi (_ : List Value) : Except FunctionError Value := .ok (.float (.plain 3.141592653589793))

/-- The product of all numbers. -/
def product (args : List Value) : Except FunctionError Value := do
  let xs ← floatArguments args
  finiteResult "PRODUCT" (xs.foldl (· * ·) 1)

/-- A number rounded to decimal places, a half away from zero. Negative places are to the left of
the point; a number too large to have such places stays. -/
def roundToPlaces (x : Float) (places : Int) : Float :=
  let factor := Binary64.power 10 places.natAbs
  if 0 ≤ places then
    let scaled := x * factor
    if scaled.isFinite then Binary64.integral .halfAway scaled / factor else x
  else Binary64.integral .halfAway (x / factor) * factor

/-- A number rounded to decimal places, none when they are left out. -/
def round (args : List Value) : Except FunctionError Value := do
  let x ← numberArgument args 0
  let places ← if 1 < args.length then integerArgument args 1 else .ok 0
  if -308 ≤ places ∧ places ≤ 308 then return .float (x.map fun x => roundToPlaces x places)
  else .error (.argument 2 .digits)

/-- The sign of a number as 1, 0 or -1. -/
def sign (args : List Value) : Except FunctionError Value := do
  let x ← floatArgument args 0
  return .float (.plain (if 0 < x then 1 else if x < 0 then -1 else 0))

/-- The square root of a number that is not negative. -/
def sqrt (args : List Value) : Except FunctionError Value := do
  let x ← numberArgument args 0
  if x.value < 0 then .error (.arithmetic .squareRoot) else return .float (x.map Float.sqrt)

/-- The sum of all numbers. -/
def sum (args : List Value) : Except FunctionError Value := do
  let xs ← floatArguments args
  finiteResult "SUM" (Binary64.compensatedSum xs)

/-- A number without its fraction. -/
def trunc (args : List Value) : Except FunctionError Value := do
  let x ← numberArgument args 0
  return .float (x.map (Binary64.integral .towardZero))

/-! ### Signatures -/

/-- A function that gives a number. -/
def floatFunction (name summary : String) (parameters : List Parameter)
    (body : List Value → Except FunctionError Value) : Function :=
  ⟨name, summary, parameters, .known .float, none, body⟩

/-- The library functions on numbers. -/
def numberFunctions [Logarithms] : List Function :=
  [floatFunction "ABS" "Returns the absolute value of a number." [.one "number" .number] abs,
   floatFunction "EXP" "Returns e raised to the power of a number." [.one "number" .number] exp,
   floatFunction "LN" "Returns the natural logarithm of a positive number."
     [.one "number" .number] ln,
   floatFunction "LOG" "Returns the logarithm of a number to a base (default 10)."
     [.one "number" .number, .atMostOne "base" .number] log,
   floatFunction "MOD" "Returns the remainder after division; the sign follows the divisor."
     [.one "dividend" .number, .one "divisor" .number] mod,
   floatFunction "PI" "Returns the constant pi." [] pi,
   floatFunction "PRODUCT" "Returns the product of numbers and numeric lists."
     [.atLeastOne "numbers" .numbers] product,
   floatFunction "ROUND"
     "Rounds a number to a number of decimal places, halves away from zero."
     [.one "number" .number, .atMostOne "digits" .number] round,
   floatFunction "SIGN" "Returns -1, 0 or 1 depending on the sign of a number."
     [.one "number" .number] sign,
   floatFunction "SQRT" "Returns the square root of a non-negative number."
     [.one "number" .number] sqrt,
   floatFunction "SUM" "Returns the sum of numbers and numeric lists."
     [.atLeastOne "numbers" .numbers] sum,
   floatFunction "TRUNC" "Truncates a number towards zero." [.one "number" .number] trunc]

end TypedFormula.Library
