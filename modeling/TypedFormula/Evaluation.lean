import TypedFormula.Binding
import TypedFormula.Flatten
import TypedFormula.Operator
import TypedFormula.Registry
import TypedFormula.Token
import TypedFormula.Value.Order

/-!
# What operators, variables and calls evaluate to

The meaning of the single steps of an evaluation: the value of a variable, the result of an
operator on values, and the result of a call, each with the errors that can arise. An error knows
the offset of the node at which it arose.

Main statements:

* `bindValue_of_kind` — a value of the declared kind is bound as it is;
* `kind_of_bindValue` — a bound value has the declared kind;
* `kind_of_applyFunction` — the result of a call has the kind that its function resolves, if that
  is known.
-/

namespace TypedFormula

/-! ### Errors -/

/-- Why a step of an evaluation has no value. -/
inductive EvalCause where
  /-- A variable has neither a value nor a default. -/
  | undefinedVariable (name : String)
  /-- A variable is bound to a value of another kind. -/
  | boundKind (name : String) (declared actual : Kind)
  /-- An operator was given a list. -/
  | listOperand (symbol : String) (kind : Kind)
  /-- The values of the arguments do not match the function. -/
  | arguments (mismatch : CallMismatch)
  /-- An operand does not convert. -/
  | conversion (source : ConversionError)
  /-- A division by zero. -/
  | divisionByZero
  /-- An operation on two values whose result is infinite or no number. -/
  | notFinite (op : Arithmetic) (left right : Value)
  /-- No function has this name. -/
  | unknownFunction (name : String)
  /-- A function failed. -/
  | function (name : String) (source : FunctionError)
  /-- A function gave a value of another kind than it should. -/
  | inconsistent (name : String) (declared actual : Kind)
deriving DecidableEq

/-- How code can be unfit for the machine. -/
inductive MachineFault where
  /-- A value is missing on the stack, at a position in the code or at its end. -/
  | underflow (position : Nat)
  /-- Arguments of a call are missing on the stack. -/
  | missingArguments (name : String) (arity : Nat)
  /-- More than one value is left on the stack. -/
  | leftover (count : Nat)
deriving DecidableEq

/-- Why an evaluation has no value. -/
inductive EvalError where
  /-- A step at an offset has no value. -/
  | atOffset (offset : Nat) (cause : EvalCause)
  /-- The code is unfit for the machine. -/
  | malformed (fault : MachineFault)
deriving DecidableEq

/-- The text of a cause. -/
def EvalCause.message : EvalCause → String
  | undefinedVariable name => "Undefined variable: " ++ referenceText name
  | boundKind name declared actual =>
    "Type error: " ++ referenceText name ++ " is declared " ++ declared.name ++
      " but is bound to a " ++ actual.name
  | listOperand symbol kind =>
    "Type error: Operator " ++ symbol ++ " cannot be applied to a " ++ kind.name
  | arguments mismatch => "Type error: " ++ mismatch.message
  | conversion source => source.message
  | divisionByZero => "Arithmetic error: division by zero"
  | notFinite op left right =>
    "Arithmetic error: " ++ left.text ++ " " ++ op.symbol ++ " " ++ right.text ++
      " is not a finite number"
  | unknownFunction name => "Unknown function: " ++ name
  | function name source => name ++ ": " ++ source.message
  | inconsistent name declared actual =>
    "Internal error: " ++ name ++ " should return " ++ declared.name ++ " but produced " ++
      actual.name

/-- The text of a machine fault. -/
def MachineFault.message : MachineFault → String
  | underflow position => "Malformed program: stack underflow at " ++ toString position
  | missingArguments name arity =>
    "Malformed program: " ++ name ++ " needs " ++ toString arity ++
      " arguments on the stack"
  | leftover count => "Malformed program: " ++ toString count ++ " values left on the stack"

namespace EvalError

/-- The text of an evaluation error. -/
def message : EvalError → String
  | atOffset _ cause => cause.message
  | malformed fault => fault.message

/-- The offset of the step that failed. -/
def offset? : EvalError → Option Nat
  | atOffset offset _ => some offset
  | malformed _ => none

/-- Whether the fault lies in a function or in the code, and not in the formula or its values. -/
def isInternal : EvalError → Bool
  | atOffset _ (.inconsistent ..) => true
  | atOffset _ _ => false
  | malformed _ => true

end EvalError

/-- A result with its errors mapped has the same values. -/
theorem mapError_eq_ok_iff {α δ ε : Type} {convert : δ → ε} {result : Except δ α} {a : α} :
    result.mapError convert = .ok a ↔ result = .ok a := by
  cases result with
  | error e => exact ⟨nofun, nofun⟩
  | ok b =>
    constructor
    · intro h
      exact congrArg Except.ok (Except.ok.inj h)
    · intro h
      exact congrArg Except.ok (Except.ok.inj h)

/-- A result with its errors mapped fails exactly when the result does, with the mapped error. -/
theorem mapError_eq_error_iff {α δ ε : Type} {convert : δ → ε} {result : Except δ α} {e : ε} :
    result.mapError convert = .error e ↔ ∃ cause, result = .error cause ∧ e = convert cause := by
  cases result with
  | error cause =>
    constructor
    · intro h
      exact ⟨cause, rfl, (Except.error.inj h).symm⟩
    · rintro ⟨cause', hcause, rfl⟩
      exact congrArg (fun c => Except.error (convert c)) (Except.error.inj hcause)
  | ok b => exact ⟨nofun, nofun⟩

/-- A result without a place, as the result of the step at an offset. -/
def located {α : Type} (offset : Nat) (result : Except EvalCause α) : Except EvalError α :=
  result.mapError (.atOffset offset)

/-- A result with a place has the value of the result without one. -/
theorem located_eq_ok_iff {α : Type} {offset : Nat} {result : Except EvalCause α} {a : α} :
    located offset result = .ok a ↔ result = .ok a := mapError_eq_ok_iff

/-- A result with a place fails exactly when the result without one does, and knows the place. -/
theorem located_eq_error_iff {α : Type} {offset : Nat} {result : Except EvalCause α}
    {err : EvalError} :
    located offset result = .error err ↔
      ∃ cause, result = .error cause ∧ err = .atOffset offset cause := mapError_eq_error_iff

/-! ### Variables -/

/-- A value as the value of a variable of a kind: as it is, or widened from whole numbers to
numbers. -/
def bindValue (name : String) (kind : Kind) (v : Value) : Except EvalCause Value :=
  if v.kind = kind then .ok v
  else
    match v, kind with
    | .integer n, .float => .ok (.float (.plain (Binary64.ofInt n.toInt)))
    | .list (.integers xs), .list .float => .ok (.list (Items.integers xs).widen)
    | _, _ => .error (.boundKind name kind v.kind)

/-- The value of a variable: the bound one if it is set, else the default. -/
def loadVariable (binding : Binding) (default? : String → Option Value) (name : String)
    (kind : Kind) : Except EvalCause Value :=
  match binding.get? name with
  | some v => bindValue name kind v
  | none =>
    match default? name with
    | some v => .ok v
    | none => .error (.undefinedVariable name)

/-! ### Operators -/

/-- Refuses a list as an operand. -/
def rejectList (symbol : String) (v : Value) : Except EvalCause Unit :=
  if v.isList then .error (.listOperand symbol v.kind) else .ok ()

/-- An operand as a number. -/
def operandNumber (v : Value) : Except EvalCause Number := v.toNumber.mapError .conversion

/-- An operand as a text. -/
def operandText (v : Value) : Except EvalCause String := v.toText.mapError .conversion

/-- The result of a unary operator. -/
def applyUnary (op : UnaryOperator) (v : Value) : Except EvalCause Value := do
  rejectList op.symbol v
  let x ← operandNumber v
  match op with
  | .plus => return .float x
  | .negate => return .float x.negate

/-- The result of an operator on two numbers, as binary64 gives it. -/
def Arithmetic.compute : Arithmetic → Float → Float → Float
  | add, x, y => x + y
  | subtract, x, y => x - y
  | multiply, x, y => x * y
  | divide, x, y => x / y
  | power, x, y => Float.pow x y

/-- The result of an arithmetic operator. A division by zero and a result that is not finite are
errors. -/
def applyArithmetic (op : Arithmetic) (left right : Value) : Except EvalCause Value := do
  let x ← operandNumber left
  let y ← operandNumber right
  if op = .divide && Float.beq y.value 0 then throw .divisionByZero
  let z := op.compute x.value y.value
  if z.isFinite then return .float (.plain z) else throw (.notFinite op left right)

/-- The result of a binary operator. -/
def applyBinary (op : BinaryOperator) (left right : Value) : Except EvalCause Value := do
  rejectList op.symbol left
  rejectList op.symbol right
  match op with
  | .arithmetic op => applyArithmetic op left right
  | .concat =>
    let s ← operandText left
    let t ← operandText right
    return .string (s ++ t)
  | .comparison op => return .boolean (op.holds (left.order right))

/-! ### Calls -/

/-- The result of a function on arguments of any kinds: they must match the signature, and the
result must have the kind that the function resolves, if that is known. -/
def applyFunction (name : String) (f : Function) (args : List Value) : Except EvalCause Value :=
  match f.checkArguments (args.map fun v => .known v.kind) with
  | .error m => .error (.arguments (f.callMismatch m))
  | .ok resolved =>
    match f.body args with
    | .error e => .error (.function name e)
    | .ok v =>
      match resolved with
      | .dynamic => .ok v
      | .known k => if v.kind = k then .ok v else .error (.inconsistent name k v.kind)

/-- The result of a call of the function that a name means. -/
def applyCall (functions : Registry) (name : String) (args : List Value) :
    Except EvalCause Value :=
  match functions.lookup? name with
  | none => .error (.unknownFunction name)
  | some f => applyFunction name f args

/-! ### Kinds of results -/

/-- A value of the declared kind is bound as it is. -/
theorem bindValue_of_kind {name : String} {kind : Kind} {v : Value} (h : v.kind = kind) :
    bindValue name kind v = .ok v := by
  simp [bindValue, h]

/-- A bound value has the declared kind. -/
theorem kind_of_bindValue {name : String} {kind : Kind} {v w : Value}
    (h : bindValue name kind v = .ok w) : w.kind = kind := by
  unfold bindValue at h
  split at h
  · rename_i hk
    rw [← Except.ok.inj h]; exact hk
  · split at h
    · rw [← Except.ok.inj h]; rfl
    · rw [← Except.ok.inj h]; rfl
    · cases h

/-- The result of a call has the kind that its function resolves, if that is known. -/
theorem kind_of_applyFunction {name : String} {f : Function} {args : List Value} {v : Value}
    {k : Kind} (h : applyFunction name f args = .ok v)
    (hk : f.checkArguments (args.map fun v => .known v.kind) = .ok (.known k)) : v.kind = k := by
  unfold applyFunction at h
  simp only [hk] at h
  split at h
  · cases h
  · split at h
    · rename_i hv
      rw [← Except.ok.inj h]; exact hv
    · cases h

end TypedFormula
