import TypedFormula.Evaluation
import TypedFormula.Formula

/-!
# The stack machine

A formula is run by taking its instructions one after the other on a stack of values, which is
written with its top first. The run ends at the first error; at the end of the code the stack
must hold one value.

Main statement: `execute_append` — running one code after another is running both.
-/

namespace TypedFormula

/-- What a run reads besides the code. -/
structure Environment where
  /-- The functions. -/
  functions : Registry
  /-- The defaults of variables. -/
  default? : String → Option Value
  /-- The values of variables. -/
  binding : Binding

/-- A result of a step on top of a stack. -/
def pushResult (offset : Nat) (stack : List Value) (result : Except EvalCause Value) :
    Except EvalError (List Value) :=
  match result with
  | .ok v => .ok (v :: stack)
  | .error cause => .error (.atOffset offset cause)

/-- The stack after an instruction at a position in the code. -/
def step (env : Environment) (position : Nat) (u : CodeUnit) (stack : List Value) :
    Except EvalError (List Value) :=
  match u.instruction with
  | .push v => .ok (v :: stack)
  | .load name kind => pushResult u.offset stack (loadVariable env.binding env.default? name kind)
  | .unary op =>
    match stack with
    | v :: stack => pushResult u.offset stack (applyUnary op v)
    | _ => .error (.malformed (.underflow position))
  | .binary op =>
    match stack with
    | right :: left :: stack => pushResult u.offset stack (applyBinary op left right)
    | _ => .error (.malformed (.underflow position))
  | .call name arity =>
    if stack.length < arity then .error (.malformed (.missingArguments name arity))
    else
      pushResult u.offset (stack.drop arity)
        (applyCall env.functions name (stack.take arity).reverse)

/-- The stack after code that starts at a position. -/
def execute (env : Environment) : Nat → List CodeUnit → List Value →
    Except EvalError (List Value)
  | _, [], stack => .ok stack
  | position, u :: us, stack =>
    match step env position u stack with
    | .error e => .error e
    | .ok stack => execute env (position + 1) us stack

/-- The value that is left alone on a stack at the end of the code, which is a position too. -/
def onlyValue (position : Nat) : List Value → Except EvalError Value
  | [] => .error (.malformed (.underflow position))
  | [v] => .ok v
  | stack => .error (.malformed (.leftover stack.length))

/-- The value of a formula with the functions of a registry and the values of a binding. -/
def Formula.run (functions : Registry) (f : Formula) (binding : Binding) :
    Except EvalError Value :=
  match execute ⟨functions, f.defaults.get?, binding⟩ 0 f.code [] with
  | .error e => .error e
  | .ok stack => onlyValue f.code.length stack

/-- Running one code after another is running both. -/
theorem execute_append (env : Environment) (position : Nat) (us vs : List CodeUnit)
    (stack : List Value) :
    execute env position (us ++ vs) stack =
      match execute env position us stack with
      | .error e => .error e
      | .ok stack => execute env (position + us.length) vs stack := by
  induction us generalizing position stack with
  | nil => rfl
  | cons u us ih =>
    simp only [List.cons_append, execute, List.length_cons, ← Nat.add_assoc,
      Nat.add_right_comm position us.length]
    cases step env position u stack with
    | error e => rfl
    | ok stack => exact ih (position + 1) stack

end TypedFormula
