import TypedFormula.Expr.Eval
import TypedFormula.Library.Conditions

/-!
# Running a formula is evaluating its tree

The machine knows neither operands nor nesting, only a list of instructions and a stack. Running
the code of a tree on any stack nevertheless pushes exactly the value of the tree, or stops with
the error at which its evaluation stops (`execute_code`); the statement is about any stack because
operands are run on top of what earlier operands left.

A formula keeps one default for each variable, collected over the whole tree before the run. It is
the first one that a reference gives (`get?_defaults_add`), and every later one equals it, since a
contradiction would have been refused (`exists_default_of_add`).

Main statement: `Formula.run_eq_value` — a run of a compiled formula, with any functions and any
binding, is the direct evaluation of its tree, and never finds its code malformed.
-/

namespace TypedFormula

/-! ### Code of expressions -/

mutual

/-- The code of an expression pushes its value, or stops where its evaluation stops. -/
theorem execute_code (env : Environment) (e : Expr) (position : Nat) (stack : List Value) :
    execute env position e.code stack =
      match e.eval env with
      | .error err => .error err
      | .ok v => .ok (v :: stack) := by
  match e with
  | .number offset x => rfl
  | .string offset s => rfl
  | .boolean offset b => rfl
  | .reference offset name kind default =>
    simp only [Expr.code, execute, step, Expr.eval]
    cases loadVariable env.binding env.default? name kind <;> rfl
  | .unary offset op operand =>
    rw [Expr.code, execute_append, execute_code env operand position stack, Expr.eval]
    cases operand.eval env with
    | error err => rfl
    | ok v =>
      simp only [execute, step]
      cases applyUnary op v <;> rfl
  | .binary offset op left right =>
    rw [Expr.code, execute_append, execute_append, execute_code env left position stack, Expr.eval]
    cases left.eval env with
    | error err => rfl
    | ok v =>
      simp only [execute_code env right _ (v :: stack)]
      cases right.eval env with
      | error err => rfl
      | ok w =>
        simp only [execute, step]
        cases applyBinary op v w <;> rfl
  | .call offset name kind args =>
    rw [Expr.code, execute_append, execute_codes env args position stack, Expr.eval]
    cases hargs : Expr.evalAll env args with
    | error err => rfl
    | ok vs =>
      -- the arguments lie on the stack with the last one on top
      have hlen := Expr.length_evalAll hargs
      have hcall : ∀ position, step env position ⟨.call name args.length, offset⟩
          (vs.reverse ++ stack) = pushResult offset stack (applyCall env.functions name vs) := by
        intro position
        have hfits : ¬ (vs.reverse ++ stack).length < args.length := by simp [hlen]
        refine (if_neg hfits).trans ?_
        congr 2
        · rw [List.drop_left' (by simp [hlen])]
        · rw [List.take_left' (by simp [hlen]), List.reverse_reverse]
      simp only [execute, hcall]
      cases applyCall env.functions name vs <;> rfl

/-- The code of expressions pushes their values, the last one on top. -/
theorem execute_codes (env : Environment) (es : List Expr) (position : Nat)
    (stack : List Value) :
    execute env position (Expr.codes es) stack =
      match Expr.evalAll env es with
      | .error err => .error err
      | .ok vs => .ok (vs.reverse ++ stack) := by
  match es with
  | [] => rfl
  | e :: es =>
    rw [Expr.codes, execute_append, execute_code env e position stack, Expr.evalAll]
    cases e.eval env with
    | error err => rfl
    | ok v =>
      simp only [execute_codes env es _ (v :: stack)]
      cases Expr.evalAll env es with
      | error err => rfl
      | ok vs => simp

end

/-! ### Collected defaults -/

namespace Variables

/-- One more reference gives its default to a variable that has none. -/
theorem get?_addDefault {defaults defaults' : Dict Value} {o : Expr.Occurrence}
    (h : addDefault defaults o = .ok defaults') (name : String) :
    defaults'.get? name =
      (defaults.get? name).or (if o.name = name then o.default else none) := by
  unfold addDefault at h
  split at h
  · rename_i hnone
    rw [← Except.ok.inj h, hnone]
    simp
  · rename_i v hsome
    split at h
    · rename_i hget
      rw [← Except.ok.inj h, Dict.get?_insert, hsome]
      by_cases hname : o.name = name
      · simp [← hname, hget]
      · simp [hname, Ne.symm hname]
    · rename_i first hget
      split at h
      · rw [← Except.ok.inj h]
        by_cases hname : o.name = name
        · simp [← hname, hget]
        · simp [hname]
      · cases h

/-- The defaults collected from references are those that were there, and the first ones given
to the other variables. -/
theorem get?_defaults_add {vs vs' : Variables} {os : List Expr.Occurrence}
    (h : vs.add os = .ok vs') (name : String) :
    vs'.defaults.get? name = (vs.defaults.get? name).or (Expr.firstDefault? name os) := by
  induction os generalizing vs with
  | nil =>
    rw [← Except.ok.inj h]
    simp [Expr.firstDefault?]
  | cons o os ih =>
    rw [add] at h
    split at h
    · cases h
    · rename_i defaults hadd
      rw [ih h, get?_addDefault hadd, Option.or_assoc, Expr.firstDefault?]

/-- A default that a reference gives is the one that is collected, or equals it. -/
theorem exists_default_of_add {vs vs' : Variables} {os : List Expr.Occurrence}
    (h : vs.add os = .ok vs') {o : Expr.Occurrence} (ho : o ∈ os) {v : Value}
    (hv : o.default = some v) :
    ∃ w, vs'.defaults.get? o.name = some w ∧ (w = v ∨ w.equals v = true) := by
  induction os generalizing vs with
  | nil => cases ho
  | cons p os ih =>
    rw [add] at h
    split at h
    · cases h
    · rename_i defaults hadd
      rcases List.mem_cons.mp ho with rfl | ho
      · have hafter := get?_defaults_add h o.name
        have hstep := get?_addDefault hadd o.name
        unfold addDefault at hadd
        simp only [hv] at hadd hstep
        split at hadd
        · rename_i hget
          exact ⟨v, by simp [hafter, hstep, hget], .inl rfl⟩
        · rename_i first hget
          split at hadd
          · rename_i heq
            exact ⟨first, by simp [hafter, hstep, hget], .inr heq⟩
          · cases hadd
      · exact ih h ho

end Variables

/-! ### Runs -/

namespace Formula

theorem compile_ok_iff {scope : Scope} {text : String} {f : Formula} :
    compile scope text = .ok f ↔ ∃ e, parseFormula scope text = .ok e ∧ ofExpr text e = .ok f := by
  rw [compile]
  cases parseFormula scope text <;> simp

theorem ofExpr_ok_iff {text : String} {e : Expr} {f : Formula} :
    ofExpr text e = .ok f ↔ ∃ vs, Variables.empty.add e.occurrences = .ok vs ∧
      f = ⟨text, vs.kinds, vs.defaults, e.code, e.kind⟩ := by
  rw [ofExpr]
  cases Variables.empty.add e.occurrences <;> simp [eq_comm]

theorem get?_defaults_of_ofExpr {text : String} {e : Expr} {f : Formula}
    (h : ofExpr text e = .ok f) : f.defaults.get? = e.default? := by
  obtain ⟨vs, hadd, rfl⟩ := ofExpr_ok_iff.mp h
  funext name
  rw [Variables.get?_defaults_add hadd]
  rfl

theorem run_of_ofExpr {text : String} {e : Expr} {f : Formula} (h : ofExpr text e = .ok f)
    (functions : Registry) (binding : Binding) :
    f.run functions binding = e.value functions binding := by
  have hdefaults := get?_defaults_of_ofExpr h
  obtain ⟨vs, -, rfl⟩ := ofExpr_ok_iff.mp h
  rw [run, hdefaults, execute_code, Expr.value]
  cases e.eval ⟨functions, e.default?, binding⟩ <;> rfl

end Formula

/-- A run of a compiled formula, with any functions and any binding, is the direct evaluation of
its tree. It never finds its code malformed. A variable that is not set has the default that any
of its references gives; where several do, these are equal, and the first one counts. -/
theorem Formula.run_eq_value {scope : Scope} {text : String} {f : Formula} {e : Expr}
    (hcompile : Formula.compile scope text = .ok f) (hparse : parseFormula scope text = .ok e)
    (functions : Registry) (binding : Binding) :
    f.run functions binding = e.value functions binding ∧
      (∀ fault, f.run functions binding ≠ .error (.malformed fault)) ∧
      ∀ o ∈ e.occurrences, ∀ v, o.default = some v →
        ∃ w, e.default? o.name = some w ∧ (w = v ∨ w.equals v = true) := by
  obtain ⟨e', hparse', hof⟩ := compile_ok_iff.mp hcompile
  obtain rfl := Except.ok.inj (hparse.symm.trans hparse')
  have hrun := run_of_ofExpr hof functions binding
  refine ⟨hrun, fun fault => ?_, fun o ho v hv => ?_⟩
  · rw [hrun]
    exact Expr.eval_ne_malformed _ e fault
  · have hdefaults := get?_defaults_of_ofExpr hof
    obtain ⟨vs, hadd, rfl⟩ := ofExpr_ok_iff.mp hof
    rw [← hdefaults]
    exact Variables.exists_default_of_add hadd ho hv

/-- The first reference to `x` gives no default, and takes the one behind it. -/
theorem Formula.run_eq_value_of_later_default :
    let functions := Registry.empty.registerAll Library.conditionFunctions
    let scope : Scope := ⟨Dict.ofList [("x", .float)], functions⟩
    ∃ f e, Formula.compile scope "=IF(FALSE, 1, $x) & ${x:2}" = .ok f ∧
      parseFormula scope "=IF(FALSE, 1, $x) & ${x:2}" = .ok e ∧
      f.run functions Binding.empty = e.value functions Binding.empty ∧
      e.value functions Binding.empty = .ok (.string "22") := by
  intro functions scope
  have hvalue : (Formula.compile scope "=IF(FALSE, 1, $x) & ${x:2}").toOption.bind
      (fun f => (f.run functions Binding.empty).toOption) = some (.string "22") := by
    decide +kernel
  cases hcompile : Formula.compile scope "=IF(FALSE, 1, $x) & ${x:2}" with
  | error err => simp [hcompile, Except.toOption] at hvalue
  | ok f =>
    cases hparse : parseFormula scope "=IF(FALSE, 1, $x) & ${x:2}" with
    | error err => simp [Formula.compile, hparse] at hcompile
    | ok e =>
      have hrun := (Formula.run_eq_value hcompile hparse functions Binding.empty).1
      refine ⟨f, e, rfl, rfl, hrun, ?_⟩
      rw [← hrun]
      rw [hcompile] at hvalue
      cases hf : f.run functions Binding.empty with
      | error err => simp [hf, Except.toOption] at hvalue
      | ok v => simpa [hf, Except.toOption] using hvalue

end TypedFormula
