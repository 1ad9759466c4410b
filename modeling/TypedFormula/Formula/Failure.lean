import TypedFormula.Formula.Machine

/-!
# Texts evaluated in one go

A text with the values of its variables either gives a value or fails, while it is compiled or
while it is run. A failure knows which of the two, and shows the offset only for the first.

Main statements: `Formula.evaluate_ok_iff`, `Formula.evaluate_evaluation_iff` — the outcome for a
text that compiles is the outcome of its formula.
-/

namespace TypedFormula

/-- Why a text has no value. -/
inductive Failure where
  /-- The text does not compile. -/
  | compile (source : CompileError)
  /-- The formula does not evaluate. -/
  | evaluation (source : EvalError)
deriving DecidableEq

namespace Failure

/-- The text of a failure. -/
def message : Failure → String
  | compile source => "Compile error: " ++ source.located
  | evaluation source => "Evaluation error: " ++ source.message

/-- The offset that a failure is about, if it is about one. -/
def offset? : Failure → Option Nat
  | compile source => some source.offset
  | evaluation source => source.offset?

end Failure

/-- The value of a compiled formula, where it did compile. -/
def runCompiled (functions : Registry) (compiled : Except CompileError Formula)
    (binding : Binding) : Except Failure Value :=
  match compiled with
  | .error e => .error (.compile e)
  | .ok f => (f.run functions binding).mapError .evaluation

/-- The value of a text: compiled within a scope, and run with its functions. -/
def Formula.evaluate (scope : Scope) (text : String) (binding : Binding) :
    Except Failure Value :=
  runCompiled scope.functions (Formula.compile scope text) binding

namespace Formula

variable {scope : Scope} {text : String} {binding : Binding}

/-- A text has a value exactly when it compiles and its formula has this value. -/
theorem evaluate_ok_iff {v : Value} :
    evaluate scope text binding = .ok v ↔
      ∃ f, compile scope text = .ok f ∧ f.run scope.functions binding = .ok v := by
  rw [evaluate]
  cases compile scope text with
  | error e => simp [runCompiled]
  | ok f => simp [runCompiled, mapError_eq_ok_iff]

/-- A text fails to evaluate exactly when it compiles and its formula fails with the same error. -/
theorem evaluate_evaluation_iff {err : EvalError} :
    evaluate scope text binding = .error (.evaluation err) ↔
      ∃ f, compile scope text = .ok f ∧ f.run scope.functions binding = .error err := by
  rw [evaluate]
  cases compile scope text with
  | error e => simp [runCompiled]
  | ok f => simp [runCompiled, mapError_eq_error_iff]

end Formula

end TypedFormula
