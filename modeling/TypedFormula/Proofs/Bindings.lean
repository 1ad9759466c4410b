import TypedFormula.Proofs.Declarations

/-!
# What a run reads of a binding

A run reads a binding only where it loads a variable, and there it sees one of three things: a value
of the declared kind, an error if the bound value is of another kind, or nothing at all. These are
the effective values (`Formula.effectiveValue`). They know neither whether a number was bound as a
whole number, nor whether a default was written out in the binding, nor whether an unset variable is
in the binding at all.

Bindings with equal effective values therefore have equal runs. The load of a variable is a function
of its effective value (`Formula.loadVariable_eq`), and evaluation is a function of the loads of the
references in the tree (`Expr.eval_congr`). All references are listed with their kinds in the
formula, so it is enough to compare the effective values of the listed variables.

Main statements:

* `Formula.run_congr` — bindings with equal effective values have equal runs, with any functions;
* `Formula.run_reads_effective_values` — the same with its consequences for unset, unlisted, default
  and widened values.
-/

namespace TypedFormula

/-! ### Loads -/

mutual

/-- The value of an expression depends on the functions and on the loads of its references. -/
theorem Expr.eval_congr {env env' : Environment} (hfunctions : env.functions = env'.functions)
    (e : Expr)
    (hloads : ∀ o ∈ e.occurrences, loadVariable env.binding env.default? o.name o.kind =
      loadVariable env'.binding env'.default? o.name o.kind) : e.eval env = e.eval env' := by
  match e with
  | .number _ _ => rfl
  | .string _ _ => rfl
  | .boolean _ _ => rfl
  | .reference offset name kind default =>
    have hload := hloads ⟨name, kind, default, offset⟩ (List.mem_singleton.mpr rfl)
    rw [eval, eval, hload]
  | .unary _ _ operand =>
    rw [eval, eval, Expr.eval_congr hfunctions operand hloads]
  | .binary _ _ left right =>
    have hleft := Expr.eval_congr hfunctions left fun o ho =>
      hloads o (List.mem_append_left _ ho)
    have hright := Expr.eval_congr hfunctions right fun o ho =>
      hloads o (List.mem_append_right _ ho)
    rw [eval, eval, hleft, hright]
  | .call _ _ _ args =>
    rw [eval, eval, Expr.evalAll_congr hfunctions args hloads, hfunctions]

/-- The values of expressions depend on the functions and on the loads of their references. -/
theorem Expr.evalAll_congr {env env' : Environment} (hfunctions : env.functions = env'.functions)
    (es : List Expr)
    (hloads : ∀ o ∈ Expr.allOccurrences es, loadVariable env.binding env.default? o.name o.kind =
      loadVariable env'.binding env'.default? o.name o.kind) :
    Expr.evalAll env es = Expr.evalAll env' es := by
  match es with
  | [] => rfl
  | e :: es =>
    have hfirst := Expr.eval_congr hfunctions e fun o ho => hloads o (List.mem_append_left _ ho)
    have hothers := Expr.evalAll_congr hfunctions es fun o ho =>
      hloads o (List.mem_append_right _ ho)
    rw [evalAll, evalAll, hfirst, hothers]

end

namespace Formula

/-- What a run of a formula sees of a variable of some kind: the bound value as a value of the kind,
or the error that it is none; the default if no value is bound; or nothing. -/
def effectiveValue (f : Formula) (binding : Binding) (name : String) (kind : Kind) :
    Except EvalCause (Option Value) :=
  match binding.get? name with
  | some v => (bindValue name kind v).map some
  | none => .ok (f.defaults.get? name)

/-- Two bindings are alike for a formula if all its variables have the same effective values. -/
def Alike (f : Formula) (b b' : Binding) : Prop :=
  ∀ name kind, f.kinds.get? name = some kind →
    f.effectiveValue b name kind = f.effectiveValue b' name kind

section

variable {f : Formula} {b b' : Binding} {name : String} {kind : Kind}

/-- A load gives the effective value, and fails if there is none. -/
theorem loadVariable_eq : loadVariable b f.defaults.get? name kind =
    (f.effectiveValue b name kind).bind fun
      | some v => .ok v
      | none => .error (.undefinedVariable name) := by
  rw [loadVariable, effectiveValue]
  cases b.get? name with
  | some v =>
    simp only
    cases bindValue name kind v <;> rfl
  | none =>
    simp only
    cases f.defaults.get? name <;> rfl

private theorem effectiveValue_congr (h : b.get? name = b'.get? name) :
    f.effectiveValue b name kind = f.effectiveValue b' name kind := by
  rw [effectiveValue, effectiveValue, h]

/-- Bindings in which the variables of a formula have the same values are alike. -/
private theorem alike_of_get? (h : ∀ name ∈ f.kinds.names, b.get? name = b'.get? name) :
    f.Alike b b' :=
  fun _ _ hkind => effectiveValue_congr (h _ (Dict.mem_names_iff.mpr ⟨_, hkind⟩))

/-- Bindings that differ at one name are alike if the variable of this name, where there is one,
has the same effective value. -/
private theorem alike_of_get?_of_ne (name : String)
    (hothers : ∀ other, other ≠ name → b.get? other = b'.get? other)
    (h : ∀ kind, f.kinds.get? name = some kind →
      f.effectiveValue b name kind = f.effectiveValue b' name kind) : f.Alike b b' := by
  intro other kind hkind
  by_cases hname : other = name
  · subst hname
    exact h kind hkind
  · exact effectiveValue_congr (hothers other hname)

private theorem alike_set_set {v w : Value} (h : ∀ kind, f.kinds.get? name = some kind →
      bindValue name kind v = bindValue name kind w) :
    f.Alike (b.set name v) (b.set name w) := by
  refine alike_of_get?_of_ne name (fun other hother => ?_) fun kind hkind => ?_
  · rw [Binding.get?_set, Binding.get?_set, if_neg hother, if_neg hother]
  · simp only [effectiveValue, Binding.get?_set, if_true, h kind hkind]

/-- Marking an absent name as unset changes nothing. -/
private theorem alike_unset (h : b.values.get? name = none) : f.Alike (b.unset name) b := by
  refine alike_of_get? fun other _ => ?_
  rw [Binding.get?_unset]
  split
  · rename_i hother
    rw [hother, Binding.get?, h]
    rfl
  · rfl

/-- Names that are not listed do not matter. -/
private theorem alike_of_unlisted (h : f.kinds.get? name = none) (v : Value) :
    f.Alike (b.set name v) b ∧ f.Alike (b.unset name) b := by
  constructor
  all_goals
    refine alike_of_get?_of_ne name (fun other hother => ?_) fun kind hkind => ?_
    · simp only [Binding.get?_set, Binding.get?_unset, if_neg hother]
    · rw [h] at hkind
      cases hkind

end

section

variable {scope : Scope} {text : String} {f : Formula}

/-- A default is of the kind of its variable, which is listed. -/
private theorem get?_kinds_of_default (hcompile : compile scope text = .ok f) {name : String}
    {d : Value} (hd : f.defaults.get? name = some d) : f.kinds.get? name = some d.kind := by
  obtain ⟨e, hparse, hof⟩ := compile_ok_iff.mp hcompile
  obtain ⟨-, a, -, hty, -⟩ := exists_phrase_of_parseFormula hparse
  rw [get?_defaults_of_ofExpr hof] at hd
  obtain ⟨o, ho, rfl, hdefault⟩ := Expr.exists_occurrence_of_firstDefault? hd
  rw [get?_kinds_of_mem_occurrences hof hty ho, ← (hty.of_mem_occurrences ho).1]
  exact hty.kind_of_default ho hdefault

/-- A default is bound as it is, so it may be bound or not. -/
private theorem alike_set_default (hcompile : compile scope text = .ok f) (b : Binding)
    {name : String} {d : Value} (hd : f.defaults.get? name = some d) :
    f.Alike (b.set name d) (b.unset name) := by
  refine alike_of_get?_of_ne name (fun other hother => ?_) fun kind hkind => ?_
  · rw [Binding.get?_set, Binding.get?_unset, if_neg hother, if_neg hother]
  · rw [get?_kinds_of_default hcompile hd] at hkind
    have hbind : bindValue name kind d = .ok d := bindValue_of_kind (Option.some.inj hkind)
    simp only [effectiveValue, Binding.get?_set, Binding.get?_unset, if_true, hbind, hd]
    rfl

/-- Bindings that are alike for a formula have equal runs, with any functions. -/
theorem run_congr (hcompile : compile scope text = .ok f) (functions : Registry)
    {b b' : Binding} (halike : f.Alike b b') : f.run functions b = f.run functions b' := by
  obtain ⟨e, hparse, hof⟩ := compile_ok_iff.mp hcompile
  obtain ⟨-, a, -, hty, -⟩ := exists_phrase_of_parseFormula hparse
  have hloads : ∀ o ∈ e.occurrences, loadVariable b e.default? o.name o.kind =
      loadVariable b' e.default? o.name o.kind := by
    intro o ho
    have hkind := get?_kinds_of_mem_occurrences hof hty ho
    rw [← get?_defaults_of_ofExpr hof, loadVariable_eq, loadVariable_eq, halike o.name o.kind hkind]
  rw [run_of_ofExpr hof, run_of_ofExpr hof, Expr.value, Expr.value]
  apply Expr.eval_congr
  · rfl
  · exact hloads

/-- A run reads a binding only through the effective values of the listed variables, with any
functions, errors and their offsets included. So it makes no difference whether an unset name is in
the binding; unlisted names do not matter; a default may be bound or not; and whole numbers may be
bound in place of the numbers that they are widened to. -/
theorem run_reads_effective_values (hcompile : compile scope text = .ok f) (functions : Registry) :
    (∀ b b', (∀ name kind, f.kinds.get? name = some kind →
        f.effectiveValue b name kind = f.effectiveValue b' name kind) →
      f.run functions b = f.run functions b') ∧
    (∀ (b : Binding) name, b.values.get? name = none →
      f.run functions (b.unset name) = f.run functions b) ∧
    (∀ (b : Binding) name v, f.kinds.get? name = none →
      f.run functions (b.set name v) = f.run functions b ∧
        f.run functions (b.unset name) = f.run functions b) ∧
    (∀ (b : Binding) name d, f.defaults.get? name = some d →
      f.run functions (b.set name d) = f.run functions (b.unset name)) ∧
    (∀ (b : Binding) name n, f.kinds.get? name = some .float →
      f.run functions (b.set name (.integer n)) =
        f.run functions (b.set name (.float (.plain (Binary64.ofInt n.toInt))))) ∧
    ∀ (b : Binding) name ns, f.kinds.get? name = some (.list .float) →
      f.run functions (b.set name (.list (.integers ns))) =
        f.run functions (b.set name (.list (Items.integers ns).widen)) := by
  refine ⟨fun b b' halike => run_congr hcompile functions halike,
    fun b name hname => run_congr hcompile functions (alike_unset hname),
    fun b name v hname => ?_, fun b name d hd =>
      run_congr hcompile functions (alike_set_default hcompile b hd),
    fun b name n hname => ?_, fun b name ns hname => ?_⟩
  · obtain ⟨hset, hunset⟩ := alike_of_unlisted hname v
    exact ⟨run_congr hcompile functions hset, run_congr hcompile functions hunset⟩
  · refine run_congr hcompile functions (alike_set_set fun kind hkind => ?_)
    obtain rfl := Option.some.inj (hname.symm.trans hkind)
    rfl
  · refine run_congr hcompile functions (alike_set_set fun kind hkind => ?_)
    obtain rfl := Option.some.inj (hname.symm.trans hkind)
    rfl

/-- A mean of whole numbers times a variable with a default: the numbers may be widened before, the
default may be bound, as a number or a whole number, and a name that the formula does not know may
be bound as well. -/
theorem run_reads_effective_values_of_mean :
    let functions := Registry.empty.registerAll Library.sampleFunctions
    let scope : Scope := ⟨Dict.ofList [("v", .list .float), ("x", .float)], functions⟩
    let widened := Binding.empty.set "v" (.list (Items.integers [1, 2, 3]).widen)
    let b := Binding.empty.set "v" (.list (.integers [1, 2, 3]))
    ∃ f, compile scope "=AVERAGE($v) * ${x:2}" = .ok f ∧
      f.run functions b = f.run functions ((widened.set "x" (.float (.plain 2))).unset "y") ∧
      f.run functions (b.unset "x") = f.run functions b ∧
      f.run functions (b.set "y" (.boolean true)) = f.run functions b ∧
      f.run functions (b.set "x" (.float (.plain 2))) = f.run functions (b.unset "x") ∧
      f.run functions (b.set "x" (.integer 2)) =
        f.run functions (b.set "x" (.float (.plain (Binary64.ofInt 2)))) ∧
      f.run functions b = f.run functions widened := by
  intro functions scope widened b
  have hvariables : (compile scope "=AVERAGE($v) * ${x:2}").toOption.map
      (fun f => (f.kinds.entries, f.defaults.entries)) =
        some ([("v", .list .float), ("x", .float)], [("x", .float (.plain 2))]) := by
    decide +kernel
  cases hcompile : compile scope "=AVERAGE($v) * ${x:2}" with
  | error err => simp [hcompile, Except.toOption] at hvariables
  | ok f =>
    obtain ⟨hkinds, hdefaults⟩ : f.kinds.entries = [("v", .list .float), ("x", .float)] ∧
        f.defaults.entries = [("x", .float (.plain 2))] := by
      simpa [hcompile, Except.toOption] using hvariables
    have hx : f.kinds.get? "x" = some .float := by rw [Dict.get?, hkinds]; rfl
    have hv : f.kinds.get? "v" = some (.list .float) := by rw [Dict.get?, hkinds]; rfl
    have hy : f.kinds.get? "y" = none := by rw [Dict.get?, hkinds]; rfl
    have hd : f.defaults.get? "x" = some (.float (.plain 2)) := by rw [Dict.get?, hdefaults]; rfl
    obtain ⟨halike, hunset, hunlisted, hdefault, hnumber, hnumbers⟩ :=
      run_reads_effective_values hcompile functions
    refine ⟨f, rfl, halike _ _ fun name kind hkind => ?_, hunset b "x" rfl,
      (hunlisted b "y" (.boolean true) hy).1, hdefault b "x" _ hd, hnumber b "x" 2 hx,
      hnumbers Binding.empty "v" [1, 2, 3] hv⟩
    rw [Dict.get?_eq_some_iff, hkinds] at hkind
    rcases List.mem_cons.mp hkind with heq | hkind
    · obtain ⟨rfl, rfl⟩ := Prod.mk.inj heq
      rfl
    · obtain ⟨rfl, rfl⟩ := Prod.mk.inj (List.mem_singleton.mp hkind)
      exact congrArg Except.ok hd

end

end Formula

end TypedFormula
