import TypedFormula.Proofs.Kinds

/-!
# Where evaluations fail

An evaluation stops at the first step that fails, and its error is the error of this step with the
offset of its node. All other nodes that were evaluated have values. So a statement on all errors of
an evaluation is one on the steps at single nodes, whose parts have values (`Expr.FailsWith`).

Each step fails for reasons of its own. A variable is without a value or is bound to a value that it
does not take; an operator is given a list, and arithmetic moreover what is no number, or has no
result; a call is refused, or its function fails, or the value of the function is of another kind
than was resolved.

Main statements:

* `Expr.exists_failsWith_of_eval` — a failed evaluation has a node whose step failed;
* `loadVariable_error_cases`, `applyUnary_error_cases`, `applyBinary_error_cases`,
  `applyCall_error_cases`, `applyFunction_error_cases` — why single steps fail.
-/

namespace TypedFormula

/-! ### Failing nodes -/

namespace Expr

/-- The step at a node fails on the values of its parts. -/
inductive FailsWith (env : Environment) : Expr → EvalCause → Prop where
  /-- A variable without a value, or with a value that it does not take. -/
  | reference {name : String} {kind : Kind} {default : Option Value} {cause : EvalCause}
      (offset : Nat) (hload : loadVariable env.binding env.default? name kind = .error cause) :
      FailsWith env (.reference offset name kind default) cause
  /-- An operand that a unary operator does not take. -/
  | unary {op : UnaryOperator} {operand : Expr} {u : Value} {cause : EvalCause} (offset : Nat)
      (hu : operand.eval env = .ok u) (happly : applyUnary op u = .error cause) :
      FailsWith env (.unary offset op operand) cause
  /-- Operands that a binary operator does not take, or that have no result. -/
  | binary {op : BinaryOperator} {left right : Expr} {u w : Value} {cause : EvalCause}
      (offset : Nat) (hu : left.eval env = .ok u) (hw : right.eval env = .ok w)
      (happly : applyBinary op u w = .error cause) :
      FailsWith env (.binary offset op left right) cause
  /-- Arguments on which a call fails. -/
  | call {name : String} {kind : StaticKind} {args : List Expr} {vs : List Value}
      {cause : EvalCause} (offset : Nat) (hvs : evalAll env args = .ok vs)
      (happly : applyCall env.functions name vs = .error cause) :
      FailsWith env (.call offset name kind args) cause

mutual

/-- A failed evaluation has a node whose step failed, and the error is that of this step. -/
theorem exists_failsWith_of_eval {env : Environment} {e : Expr} {err : EvalError}
    (h : e.eval env = .error err) :
    ∃ n ∈ e.nodes, ∃ cause, n.FailsWith env cause ∧ err = .atOffset n.offset cause := by
  match e with
  | .number _ _ => cases h
  | .string _ _ => cases h
  | .boolean _ _ => cases h
  | .reference offset name kind default =>
    obtain ⟨cause, hload, rfl⟩ := located_eq_error_iff.mp h
    exact ⟨_, List.mem_singleton.mpr rfl, cause, .reference offset hload, rfl⟩
  | .unary offset op operand =>
    rcases eval_unary_error_iff.mp h with hu | ⟨u, cause, hu, happly, rfl⟩
    · obtain ⟨n, hn, hfails⟩ := exists_failsWith_of_eval hu
      exact ⟨n, List.mem_cons_of_mem _ hn, hfails⟩
    · exact ⟨_, List.mem_cons_self, cause, .unary offset hu happly, rfl⟩
  | .binary offset op left right =>
    rcases eval_binary_error_iff.mp h with hu | ⟨u, hu, hw | ⟨w, cause, hw, happly, rfl⟩⟩
    · obtain ⟨n, hn, hfails⟩ := exists_failsWith_of_eval hu
      exact ⟨n, List.mem_cons_of_mem _ (List.mem_append_left _ hn), hfails⟩
    · obtain ⟨n, hn, hfails⟩ := exists_failsWith_of_eval hw
      exact ⟨n, List.mem_cons_of_mem _ (List.mem_append_right _ hn), hfails⟩
    · exact ⟨_, List.mem_cons_self, cause, .binary offset hu hw happly, rfl⟩
  | .call offset name kind args =>
    rcases eval_call_error_iff.mp h with hvs | ⟨vs, cause, hvs, happly, rfl⟩
    · obtain ⟨n, hn, hfails⟩ := exists_failsWith_of_evalAll hvs
      exact ⟨n, List.mem_cons_of_mem _ hn, hfails⟩
    · exact ⟨_, List.mem_cons_self, cause, .call offset hvs happly, rfl⟩

/-- A failed evaluation of several expressions has a node whose step failed. -/
theorem exists_failsWith_of_evalAll {env : Environment} {es : List Expr} {err : EvalError}
    (h : evalAll env es = .error err) :
    ∃ n ∈ allNodes es, ∃ cause, n.FailsWith env cause ∧ err = .atOffset n.offset cause := by
  match es with
  | [] => cases h
  | e :: es =>
    rcases evalAll_cons_error_iff.mp h with he | ⟨v, -, hes⟩
    · obtain ⟨n, hn, hfails⟩ := exists_failsWith_of_eval he
      exact ⟨n, List.mem_append_left _ hn, hfails⟩
    · obtain ⟨n, hn, hfails⟩ := exists_failsWith_of_evalAll hes
      exact ⟨n, List.mem_append_right _ hn, hfails⟩

end

end Expr

/-! ### Variables -/

/-- A variable of a declared kind takes values of an actual kind: the same one, or whole numbers
for numbers. -/
def Kind.Admits (declared actual : Kind) : Prop :=
  actual = declared ∨ (declared = .float ∧ actual = .integer) ∨
    (declared = .list .float ∧ actual = .list .integer)

/-- A value of a kind that a variable takes can be bound to it. -/
private theorem exists_bindValue_of_admits {name : String} {kind : Kind} {v : Value}
    (h : kind.Admits v.kind) : ∃ w, bindValue name kind v = .ok w := by
  obtain heq | ⟨rfl, hv⟩ | ⟨rfl, hv⟩ := h
  · exact ⟨v, bindValue_of_kind heq⟩
  · cases v with
    | integer n => exact ⟨_, rfl⟩
    | list items => cases hv
    | _ => cases hv
  · cases v with
    | list items =>
      cases items with
      | integers xs => exact ⟨_, rfl⟩
      | _ => cases hv
    | _ => cases hv

/-- A variable fails if it has neither a value nor a default, or is bound to a value of a kind that
it does not take. -/
theorem loadVariable_error_cases {binding : Binding} {default? : String → Option Value}
    {name : String} {kind : Kind} {cause : EvalCause}
    (h : loadVariable binding default? name kind = .error cause) :
    cause = .undefinedVariable name ∨
      ∃ v, binding.get? name = some v ∧ ¬ kind.Admits v.kind ∧
        cause = .boundKind name kind v.kind := by
  unfold loadVariable at h
  split at h
  · rename_i v hget
    right
    have hadmits : ¬ kind.Admits v.kind := fun hadmits => by
      obtain ⟨w, hw⟩ : ∃ w, bindValue name kind v = .ok w := exists_bindValue_of_admits hadmits
      rw [hw] at h
      cases h
    refine ⟨v, hget, hadmits, ?_⟩
    unfold bindValue at h
    split at h
    · cases h
    · split at h
      · cases h
      · cases h
      · exact (Except.error.inj h).symm
  · split at h
    · cases h
    · exact .inl (Except.error.inj h).symm

/-! ### Operators -/

/-- A unary operator fails on a list, or on an operand without a number. -/
theorem applyUnary_error_cases {op : UnaryOperator} {v : Value} {cause : EvalCause}
    (h : applyUnary op v = .error cause) :
    (v.isList = true ∧ cause = .listOperand op.symbol v.kind) ∨
      ∃ source, v.toNumber = .error source ∧ cause = .conversion source := by
  unfold applyUnary rejectList operandNumber at h
  cases hlist : v.isList with
  | true =>
    rw [hlist] at h
    exact .inl ⟨rfl, (Except.error.inj h).symm⟩
  | false =>
    right
    cases hx : v.toNumber with
    | error source =>
      rw [hlist, hx] at h
      exact ⟨source, rfl, (Except.error.inj h).symm⟩
    | ok x =>
      rw [hlist, hx] at h
      cases op <;> cases h

/-- Arithmetic fails on an operand without a number, as a division by zero, or for a result that is
not finite. -/
private theorem applyArithmetic_error_cases {op : Arithmetic} {u w : Value} {cause : EvalCause}
    (h : applyArithmetic op u w = .error cause) :
    (∃ v source, (v = u ∨ v = w) ∧ v.toNumber = .error source ∧ cause = .conversion source) ∨
      cause = .divisionByZero ∨ cause = .notFinite op u w := by
  unfold applyArithmetic at h
  cases hx : operandNumber u with
  | error first =>
    obtain ⟨source, hsource, rfl⟩ := mapError_eq_error_iff.mp hx
    rw [hx] at h
    exact .inl ⟨u, source, .inl rfl, hsource, (Except.error.inj h).symm⟩
  | ok x =>
    cases hy : operandNumber w with
    | error second =>
      obtain ⟨source, hsource, rfl⟩ := mapError_eq_error_iff.mp hy
      rw [hx, hy] at h
      exact .inl ⟨w, source, .inr rfl, hsource, (Except.error.inj h).symm⟩
    | ok y =>
      right
      simp only [hx, hy, bind, Except.bind] at h
      split at h
      · exact .inl (Except.error.inj h).symm
      · split at h
        · cases h
        · exact .inr (Except.error.inj h).symm

private theorem exists_operandText {v : Value} (h : v.isList = false) :
    ∃ s, operandText v = .ok s := by
  cases v with
  | list items => cases h
  | _ => exact ⟨_, rfl⟩

/-- A binary operator fails on a list. Apart from this only arithmetic fails: on an operand without
a number, as a division by zero, or for a result that is not finite. -/
theorem applyBinary_error_cases {op : BinaryOperator} {u w : Value} {cause : EvalCause}
    (h : applyBinary op u w = .error cause) :
    (∃ v, (v = u ∨ v = w) ∧ v.isList = true ∧ cause = .listOperand op.symbol v.kind) ∨
      ∃ a, op = .arithmetic a ∧
        ((∃ v source, (v = u ∨ v = w) ∧ v.toNumber = .error source ∧
            cause = .conversion source) ∨
          cause = .divisionByZero ∨ cause = .notFinite a u w) := by
  unfold applyBinary rejectList at h
  cases hu : u.isList with
  | true =>
    rw [hu] at h
    exact .inl ⟨u, .inl rfl, hu, (Except.error.inj h).symm⟩
  | false =>
    cases hw : w.isList with
    | true =>
      rw [hu, hw] at h
      exact .inl ⟨w, .inr rfl, hw, (Except.error.inj h).symm⟩
    | false =>
      right
      rw [hu, hw] at h
      cases op with
      | arithmetic a => exact ⟨a, rfl, applyArithmetic_error_cases h⟩
      | concat =>
        obtain ⟨s, hs⟩ := exists_operandText hu
        obtain ⟨t, ht⟩ := exists_operandText hw
        simp only [hs, ht] at h
        cases h
      | comparison c => cases h

/-! ### Calls -/

/-- A call of a function fails if the arguments do not match, if the body fails, or if its value has
another kind than was resolved. -/
theorem applyFunction_error_cases {name : String} {f : Function} {args : List Value}
    {cause : EvalCause} (h : applyFunction name f args = .error cause) :
    (∃ m, f.checkArguments (args.map fun v => .known v.kind) = .error m ∧
        cause = .arguments (f.callMismatch m)) ∨
      (∃ source, f.body args = .error source ∧ cause = .function name source) ∨
      ∃ k v, f.checkArguments (args.map fun v => .known v.kind) = .ok (.known k) ∧
        f.body args = .ok v ∧ v.kind ≠ k ∧ cause = .inconsistent name k v.kind := by
  unfold applyFunction at h
  split at h
  · rename_i m hcheck
    exact .inl ⟨m, hcheck, (Except.error.inj h).symm⟩
  · rename_i resolved hcheck
    right
    split at h
    · rename_i source hbody
      exact .inl ⟨source, hbody, (Except.error.inj h).symm⟩
    · rename_i v hbody
      right
      split at h
      · cases h
      · rename_i k
        split at h
        · cases h
        · rename_i hkind
          exact ⟨k, v, hcheck, hbody, hkind, (Except.error.inj h).symm⟩

/-- A call fails if no function has the name, or as the call of the function that has it. -/
theorem applyCall_error_cases {functions : Registry} {name : String} {args : List Value}
    {cause : EvalCause} (h : applyCall functions name args = .error cause) :
    (functions.lookup? name = none ∧ cause = .unknownFunction name) ∨
      ∃ f, functions.lookup? name = some f ∧ applyFunction name f args = .error cause := by
  unfold applyCall at h
  cases hf : functions.lookup? name with
  | none =>
    rw [hf] at h
    exact .inl ⟨rfl, (Except.error.inj h).symm⟩
  | some f =>
    rw [hf] at h
    exact .inr ⟨f, rfl, h⟩

end TypedFormula
