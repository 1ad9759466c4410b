import TypedFormula.Function

/-!
# Reading arguments in function bodies

A function body finds its arguments by their index and asks for them in the kind it needs. A
failure names the argument by its number counted from one.
-/

namespace TypedFormula

/-- The argument at an index. -/
def argument (args : List Value) (index : Nat) : Except FunctionError Value :=
  match args[index]? with
  | some v => .ok v
  | none => .error (.argument (index + 1) .missing)

/-- A conversion of the argument at an index, its failure naming the argument. -/
def blame {α : Type} (index : Nat) (result : Except ConversionError α) : Except FunctionError α :=
  result.mapError fun source => .conversion (index + 1) source

/-- The argument at an index as a number. -/
def numberArgument (args : List Value) (index : Nat) : Except FunctionError Number := do
  let v ← argument args index
  blame index v.toNumber

/-- The argument at an index as a binary64 number. -/
def floatArgument (args : List Value) (index : Nat) : Except FunctionError Float := do
  let x ← numberArgument args index
  return x.value

/-- The argument at an index as a whole number. -/
def integerArgument (args : List Value) (index : Nat) : Except FunctionError Int := do
  let v ← argument args index
  let n ← blame index v.toInteger
  return n.toInt

/-- The argument at an index as a text. -/
def textArgument (args : List Value) (index : Nat) : Except FunctionError String := do
  let v ← argument args index
  blame index v.toText

/-- The argument at an index as a truth value. -/
def booleanArgument (args : List Value) (index : Nat) : Except FunctionError Bool := do
  let v ← argument args index
  blame index v.toBoolean

/-- The elements of the argument at an index, which must be a list. -/
def listArgument (args : List Value) (index : Nat) : Except FunctionError Items := do
  let v ← argument args index
  match v.asItems? with
  | some items => .ok items
  | none => .error (.argument (index + 1) .notList)

/-- The scalars of all arguments as numbers. -/
def numberArguments (args : List Value) : Except FunctionError (List Number) :=
  (flattenNumbers args).mapError .ofFlatten

/-- The scalars of all arguments as binary64 numbers. -/
def floatArguments (args : List Value) : Except FunctionError (List Float) := do
  let xs ← numberArguments args
  return xs.map Number.value

/-- The scalars of all arguments as truth values. -/
def booleanArguments (args : List Value) : Except FunctionError (List Bool) :=
  (flattenBooleans args).mapError .ofFlatten

/-- A number as a result, unless it is infinite or no number. -/
def finiteResult (name : String) (x : Float) : Except FunctionError Value :=
  if x.isFinite then .ok (.float (.plain x)) else .error (.arithmetic (.notFinite name))

/-! ### Arguments that convert -/

section

variable {args : List Value} {index : Nat} {v : Value}

theorem textArgument_of_toText {s : String} (hv : args[index]? = some v) (h : v.toText = .ok s) :
    textArgument args index = .ok s := by
  rw [textArgument, argument, hv]
  change blame index v.toText = _
  rw [blame, h]
  rfl

/-- An argument that converts to a whole number is read as this number. -/
theorem integerArgument_of_toInteger {n : Int64} (hv : args[index]? = some v)
    (h : v.toInteger = .ok n) : integerArgument args index = .ok n.toInt := by
  rw [integerArgument, argument, hv]
  change (do
    let n ← blame index v.toInteger
    return n.toInt) = _
  rw [blame, h]
  rfl

end

end TypedFormula
