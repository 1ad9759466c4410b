import TypedFormula.Conversion
import TypedFormula.Flatten
import TypedFormula.Signature

/-!
# Functions

A function has a name, a signature, a declared kind of result and a body over the values of its
arguments. A function whose result depends on its arguments declares an unknown kind and adds a
rule that finds the kind from the kinds of the arguments, before a run and again during it.

Name, signature, kind, rule and body are all that a function brings. How it is called, how arguments
are matched with its signature and what a call of it is refused for follow from these, and a
function that does any of this in a way of its own is outside the contract.

Main statement: `Function.checkArguments_ok_iff` — a call is accepted exactly when the arguments
match the signature, and its kind is then the resolved one.
-/

namespace TypedFormula

/-! ### Failures of function bodies -/

/-- Why a computation has no result. -/
inductive ArithmeticFault where
  /-- A logarithm of zero or a negative number. -/
  | logarithm
  /-- A square root of a negative number. -/
  | squareRoot
  /-- A division by zero. -/
  | divisionByZero
  /-- A statistic of no numbers, with the name of the statistic. -/
  | noNumbers (statistic : String)
  /-- A sample variance of fewer than two numbers. -/
  | oneNumber
  /-- A result that is infinite or no number, with its name. -/
  | notFinite (result : String)
  /-- A reason of a function from outside the library. -/
  | other (text : String)
deriving DecidableEq

/-- Why an argument is refused. -/
inductive ArgumentFault where
  /-- The argument is not there. -/
  | missing
  /-- The argument is no list. -/
  | notList
  /-- The list has no element. -/
  | emptyList
  /-- A base of logarithms that is not positive, or 1. -/
  | logarithmBase
  /-- A number of digits beyond the range of the exponent. -/
  | digits
  /-- A negative count. -/
  | negativeCount
  /-- A start before the first character. -/
  | startBeforeFirst
  /-- An instance before the first one. -/
  | instanceBeforeFirst
  /-- A position before the first element. -/
  | positionBeforeFirst
  /-- A position beyond the last element of a list of some size. -/
  | positionPastEnd (position : Int) (size : Nat)
  /-- A reason of a function from outside the library. -/
  | other (text : String)
deriving DecidableEq

/-- Why a function body has no result. -/
inductive FunctionError where
  /-- The computation has no result. -/
  | arithmetic (fault : ArithmeticFault)
  /-- The argument with this number, counted from one, is refused. -/
  | argument (ordinal : Nat) (fault : ArgumentFault)
  /-- The argument with this number, counted from one, does not convert. -/
  | conversion (ordinal : Nat) (source : ConversionError)
deriving DecidableEq

/-- The text of an arithmetic fault. -/
def ArithmeticFault.message : ArithmeticFault → String
  | logarithm => "logarithm of a non-positive number"
  | squareRoot => "square root of a negative number"
  | divisionByZero => "division by zero"
  | noNumbers statistic => statistic ++ " of no numbers"
  | oneNumber => "sample variance needs at least two numbers"
  | notFinite result => result ++ " result is not a finite number"
  | other text => text

/-- The text of an argument fault. -/
def ArgumentFault.message : ArgumentFault → String
  | missing => "missing argument"
  | notList => "expected a list"
  | emptyList => "list is empty"
  | logarithmBase => "base must be positive and not 1"
  | digits => "digits out of range"
  | negativeCount => "count must not be negative"
  | startBeforeFirst => "start must be at least 1"
  | instanceBeforeFirst => "instance must be at least 1"
  | positionBeforeFirst => "position must be at least 1"
  | positionPastEnd position size =>
    "position " ++ toString position ++ " is past the end of a list of " ++ toString size
  | other text => text

namespace FunctionError

/-- The text of a function error. -/
def message : FunctionError → String
  | arithmetic fault => fault.message
  | argument ordinal fault => "argument " ++ toString ordinal ++ ": " ++ fault.message
  | conversion ordinal source => "argument " ++ toString ordinal ++ ": " ++ source.message

/-- The number of the argument that is to blame, if one is. -/
def ordinal? : FunctionError → Option Nat
  | arithmetic _ => none
  | argument ordinal _ => some ordinal
  | conversion ordinal _ => some ordinal

/-- A failed flattening as a function error. -/
def ofFlatten (e : FlattenError) : FunctionError := .conversion (e.index + 1) e.source

end FunctionError

/-! ### Functions -/

/-- A function that formulas can call. -/
structure Function where
  /-- The name, as it was given. -/
  name : String
  /-- A line that describes the function. -/
  summary : String
  /-- The parameters, in order. -/
  parameters : List Parameter
  /-- The declared kind of the result. -/
  returns : StaticKind
  /-- The rule that finds the kind of the result from the kinds of the arguments, if the declared
  kind is not the answer. -/
  resolver : Option (List StaticKind → StaticKind)
  /-- The result for the values of the arguments. -/
  body : List Value → Except FunctionError Value

namespace Function

/-- How the function is called. -/
def usage (f : Function) : String := usageText f.name f.parameters

/-- The kind of the result for arguments that match. -/
def resolve (f : Function) (kinds : List StaticKind) : StaticKind :=
  match f.resolver with
  | some rule => rule kinds
  | none => f.returns

/-- Matches arguments with the signature and gives the kind of the result. -/
def checkArguments (f : Function) (kinds : List StaticKind) :
    Except ArgumentMismatch StaticKind :=
  match matchArguments f.parameters kinds with
  | .ok _ => .ok (f.resolve kinds)
  | .error e => .error e

/-- A call is accepted exactly when the arguments match the signature, and its kind is then the
resolved one. -/
theorem checkArguments_ok_iff {f : Function} {kinds : List StaticKind} {k : StaticKind} :
    f.checkArguments kinds = .ok k ↔
      matchArguments f.parameters kinds = .ok () ∧ k = f.resolve kinds := by
  unfold checkArguments
  cases matchArguments f.parameters kinds <;> simp [eq_comm]

end Function

/-- Arguments that do not match the function they were given to. -/
structure CallMismatch where
  /-- The name of the function in upper case. -/
  name : String
  /-- How the function is called. -/
  usage : String
  /-- The mismatch. -/
  mismatch : ArgumentMismatch
deriving DecidableEq

/-- The text of a refused call, with the usage of the function. -/
def CallMismatch.message (c : CallMismatch) : String :=
  let usage := "; usage: " ++ c.usage
  match c.mismatch with
  | .wrongKind ordinal found =>
    "Argument " ++ toString ordinal ++ " of " ++ c.name ++ " has the wrong type (" ++
      found.name ++ ")" ++ usage
  | .tooFew expected actual =>
    c.name ++ " expects at least " ++ toString expected ++ " argument(s) but got " ++
      toString actual ++ usage
  | .tooMany max actual =>
    c.name ++ " expects at most " ++ toString max ++ " argument(s) but got " ++
      toString actual ++ usage

end TypedFormula
