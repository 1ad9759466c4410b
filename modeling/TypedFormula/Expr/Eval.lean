import TypedFormula.Evaluation
import TypedFormula.Formula.Machine

/-!
# Direct evaluation of expressions

The value of an expression by recursion on the tree: operands from left to right, then the
operator; all arguments of a call, then the function. A variable has its bound value or the
default given for it anywhere in the formula, also behind the place where it is used.

Main statements:

* `eval_unary_ok_iff`, `eval_binary_ok_iff`, `eval_call_ok_iff`, `evalAll_cons_ok_iff` — a node has
  a value exactly when its parts have values and the step at the node has one;
* `eval_unary_error_iff`, `eval_binary_error_iff`, `eval_call_error_iff`, `evalAll_cons_error_iff` —
  the errors of a node are those of its parts, the first one counting, and of the step at it;
* `eval_ne_malformed` — direct evaluation knows no faults of a machine.
-/

namespace TypedFormula.Expr

mutual

/-- The value of an expression. -/
def eval (env : Environment) : Expr → Except EvalError Value
  | number _ x => .ok (.float (.plain x))
  | string _ s => .ok (.string s)
  | boolean _ b => .ok (.boolean b)
  | reference offset name kind _ =>
    located offset (loadVariable env.binding env.default? name kind)
  | unary offset op operand =>
    match eval env operand with
    | .error e => .error e
    | .ok v => located offset (applyUnary op v)
  | binary offset op left right =>
    match eval env left with
    | .error e => .error e
    | .ok v =>
      match eval env right with
      | .error e => .error e
      | .ok w => located offset (applyBinary op v w)
  | call offset name _ args =>
    match evalAll env args with
    | .error e => .error e
    | .ok vs => located offset (applyCall env.functions name vs)

/-- The values of expressions, in order. -/
def evalAll (env : Environment) : List Expr → Except EvalError (List Value)
  | [] => .ok []
  | e :: es =>
    match eval env e with
    | .error err => .error err
    | .ok v =>
      match evalAll env es with
      | .error err => .error err
      | .ok vs => .ok (v :: vs)

end

/-- The default of a variable: the first one that a reference to it gives. -/
def firstDefault? (name : String) : List Occurrence → Option Value
  | [] => none
  | o :: os => (if o.name = name then o.default else none).or (firstDefault? name os)

/-- The default of a variable in a whole formula. -/
def default? (e : Expr) (name : String) : Option Value := firstDefault? name e.occurrences

/-- The value of a whole formula with the functions of a registry and the values of a binding. -/
def value (functions : Registry) (e : Expr) (binding : Binding) : Except EvalError Value :=
  eval ⟨functions, e.default?, binding⟩ e

/-! ### Values of nodes and of their parts -/

section

variable {env : Environment} {offset : Nat} {name : String} {v : Value}

/-- A unary node has a value exactly when its operand has one that the operator takes. -/
theorem eval_unary_ok_iff {op : UnaryOperator} {operand : Expr} :
    eval env (unary offset op operand) = .ok v ↔
      ∃ u, eval env operand = .ok u ∧ applyUnary op u = .ok v := by
  rw [eval]
  cases eval env operand <;> simp [located_eq_ok_iff]

/-- A binary node has a value exactly when its operands have values that the operator takes. -/
theorem eval_binary_ok_iff {op : BinaryOperator} {left right : Expr} :
    eval env (binary offset op left right) = .ok v ↔
      ∃ u w, eval env left = .ok u ∧ eval env right = .ok w ∧ applyBinary op u w = .ok v := by
  rw [eval]
  cases eval env left <;> cases eval env right <;> simp [located_eq_ok_iff]

/-- A call has a value exactly when its arguments have values that the function takes. -/
theorem eval_call_ok_iff {kind : StaticKind} {args : List Expr} :
    eval env (call offset name kind args) = .ok v ↔
      ∃ vs, evalAll env args = .ok vs ∧ applyCall env.functions name vs = .ok v := by
  rw [eval]
  cases evalAll env args <;> simp [located_eq_ok_iff]

/-- Expressions have values exactly when the first one and the others have. -/
theorem evalAll_cons_ok_iff {e : Expr} {es : List Expr} {us : List Value} :
    evalAll env (e :: es) = .ok us ↔
      ∃ v vs, eval env e = .ok v ∧ evalAll env es = .ok vs ∧ us = v :: vs := by
  rw [evalAll]
  cases eval env e <;> cases evalAll env es <;> simp [eq_comm]

/-- A unary node fails exactly when its operand fails or its operator does. -/
theorem eval_unary_error_iff {op : UnaryOperator} {operand : Expr} {err : EvalError} :
    eval env (unary offset op operand) = .error err ↔
      eval env operand = .error err ∨
        ∃ u cause, eval env operand = .ok u ∧ applyUnary op u = .error cause ∧
          err = .atOffset offset cause := by
  rw [eval]
  cases eval env operand <;> simp [located_eq_error_iff]

/-- A binary node fails exactly when its left operand fails, or then its right one, or then its
operator. -/
theorem eval_binary_error_iff {op : BinaryOperator} {left right : Expr} {err : EvalError} :
    eval env (binary offset op left right) = .error err ↔
      eval env left = .error err ∨
        ∃ u, eval env left = .ok u ∧
          (eval env right = .error err ∨
            ∃ w cause, eval env right = .ok w ∧ applyBinary op u w = .error cause ∧
              err = .atOffset offset cause) := by
  rw [eval]
  cases eval env left <;> cases eval env right <;> simp [located_eq_error_iff]

/-- A call fails exactly when its arguments fail or its function does. -/
theorem eval_call_error_iff {kind : StaticKind} {args : List Expr} {err : EvalError} :
    eval env (call offset name kind args) = .error err ↔
      evalAll env args = .error err ∨
        ∃ vs cause, evalAll env args = .ok vs ∧ applyCall env.functions name vs = .error cause ∧
          err = .atOffset offset cause := by
  rw [eval]
  cases evalAll env args <;> simp [located_eq_error_iff]

/-- Expressions fail exactly when the first one fails, or then the others. -/
theorem evalAll_cons_error_iff {e : Expr} {es : List Expr} {err : EvalError} :
    evalAll env (e :: es) = .error err ↔
      eval env e = .error err ∨ ∃ v, eval env e = .ok v ∧ evalAll env es = .error err := by
  rw [evalAll]
  cases eval env e <;> cases evalAll env es <;> simp

theorem length_evalAll {es : List Expr} {vs : List Value} (h : evalAll env es = .ok vs) :
    vs.length = es.length := by
  induction es generalizing vs with
  | nil => cases h; rfl
  | cons e es ih =>
    obtain ⟨v, vs, -, hes, rfl⟩ := evalAll_cons_ok_iff.mp h
    rw [List.length_cons, List.length_cons, ih hes]

end

/-! ### No faults -/

mutual

/-- Direct evaluation knows no faults of a machine. -/
theorem eval_ne_malformed (env : Environment) (e : Expr) (fault : MachineFault) :
    eval env e ≠ .error (.malformed fault) := by
  intro h
  match e with
  | number _ _ => cases h
  | string _ _ => cases h
  | boolean _ _ => cases h
  | reference _ _ _ _ =>
    obtain ⟨cause, -, heq⟩ := located_eq_error_iff.mp h
    cases heq
  | unary _ _ operand =>
    obtain hu | ⟨u, cause, -, -, heq⟩ := eval_unary_error_iff.mp h
    · exact eval_ne_malformed env operand fault hu
    · cases heq
  | binary _ _ left right =>
    obtain hu | ⟨u, -, hw | ⟨w, cause, -, -, heq⟩⟩ := eval_binary_error_iff.mp h
    · exact eval_ne_malformed env left fault hu
    · exact eval_ne_malformed env right fault hw
    · cases heq
  | call _ _ _ args =>
    obtain hvs | ⟨vs, cause, -, -, heq⟩ := eval_call_error_iff.mp h
    · exact evalAll_ne_malformed env args fault hvs
    · cases heq

/-- Direct evaluation of several expressions knows no faults of a machine. -/
theorem evalAll_ne_malformed (env : Environment) (es : List Expr) (fault : MachineFault) :
    evalAll env es ≠ .error (.malformed fault) := by
  intro h
  match es with
  | [] => cases h
  | e :: es =>
    obtain he | ⟨v, -, hes⟩ := evalAll_cons_error_iff.mp h
    · exact eval_ne_malformed env e fault he
    · exact evalAll_ne_malformed env es fault hes

end

end TypedFormula.Expr
