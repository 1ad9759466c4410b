import Mathlib.Control.Monad.Basic
import TypedFormula.Proofs.Declarations
import TypedFormula.Proofs.Library

/-!
# Formulas of known kinds do not go wrong

Kinds are checked twice: when a text is compiled, by what is known of the operands, and when the
formula is run, by the values that the operands have. The second check is there for kinds that were
unknown before. In a formula all of whose nodes have known kinds it never refuses anything, as long
as the variables that are set have values of kinds that they take.

What is left are the errors that no kind can exclude (`EvalCause.OfValues`): a variable without a
value, arithmetic without a result, and a function that fails. The two checks agree because a value
has the kind that is known of its expression (`kind_of_eval`), so that operators are given operands
of the kinds that they took before, and a call is matched with the same kinds a second time and has
the same kind as before, which its function keeps.

Main statements:

* `Expr.ofValues_of_static` — an expression of known kinds fails for values only;
* `Formula.run_library_of_static` — a run of a compiled formula of known kinds with the library has
  a value or fails for values.
-/

namespace TypedFormula

/-- A cause that lies in values and not in their kinds. -/
inductive EvalCause.OfValues : EvalCause → Prop where
  /-- A variable without a value. -/
  | undefinedVariable (name : String) : OfValues (.undefinedVariable name)
  /-- A division by zero. -/
  | divisionByZero : OfValues .divisionByZero
  /-- A result that is not finite. -/
  | notFinite (op : Arithmetic) (left right : Value) : OfValues (.notFinite op left right)
  /-- A function that failed. -/
  | function (name : String) (source : FunctionError) : OfValues (.function name source)

/-! ### Operands -/

/-- What counts as a number is no list and has a number. -/
private theorem StaticKind.CountsAsNumber.exists_toNumber {v : Value}
    (h : CountsAsNumber (.known v.kind)) : v.isList = false ∧ ∃ x, v.toNumber = .ok x := by
  cases v with
  | float x => exact ⟨rfl, x, rfl⟩
  | integer n => exact ⟨rfl, _, rfl⟩
  | boolean b => exact ⟨rfl, _, rfl⟩
  | string s => simp [CountsAsNumber] at h
  | list items => simp [CountsAsNumber] at h

private theorem BinaryOperator.Takes.isList {op : BinaryOperator} {v : Value}
    (h : op.Takes (.known v.kind)) : v.isList = false := by
  cases op with
  | arithmetic a => exact h.exists_toNumber.1
  | _ => cases v <;> first | rfl | cases h

/-- A unary operator does not fail on what counts as a number. -/
private theorem applyUnary_ne_error {op : UnaryOperator} {v : Value}
    (h : StaticKind.CountsAsNumber (.known v.kind)) (cause : EvalCause) :
    applyUnary op v ≠ .error cause := by
  intro happly
  obtain ⟨hlist, x, hx⟩ := h.exists_toNumber
  obtain ⟨hlist', -⟩ | ⟨source, hsource, -⟩ := applyUnary_error_cases happly
  · rw [hlist] at hlist'
    cases hlist'
  · rw [hx] at hsource
    cases hsource

/-- A binary operator fails on operands that it takes for their values only. -/
private theorem ofValues_of_applyBinary {op : BinaryOperator} {u w : Value} {cause : EvalCause}
    (hu : op.Takes (.known u.kind)) (hw : op.Takes (.known w.kind))
    (happly : applyBinary op u w = .error cause) : cause.OfValues := by
  have htakes : ∀ v, v = u ∨ v = w → op.Takes (.known v.kind) := by
    rintro v (rfl | rfl)
    · exact hu
    · exact hw
  obtain ⟨v, hv, hlist, -⟩ | ⟨a, rfl, ⟨v, source, hv, hsource, -⟩ | rfl | rfl⟩ :=
    applyBinary_error_cases happly
  · rw [(htakes v hv).isList] at hlist
    cases hlist
  · obtain ⟨-, x, hx⟩ := StaticKind.CountsAsNumber.exists_toNumber (htakes v hv)
    rw [hx] at hsource
    cases hsource
  · exact .divisionByZero
  · exact .notFinite a u w

/-- A function that keeps its kind fails on arguments that match for their values only. -/
private theorem ofValues_of_applyFunction {name : String} {f : Function} {args : List Value}
    {resolved : StaticKind} {cause : EvalCause} (hkeeps : f.KeepsKind)
    (hcheck : f.checkArguments (args.map fun v => .known v.kind) = .ok resolved)
    (happly : applyFunction name f args = .error cause) : cause.OfValues := by
  obtain ⟨m, hm, -⟩ | ⟨source, -, rfl⟩ | ⟨k, v, hk, hbody, hne, -⟩ :=
    applyFunction_error_cases happly
  · rw [hcheck] at hm
    cases hm
  · exact .function name source
  · exact absurd (hkeeps args k v hk hbody) hne

/-! ### Expressions -/

private theorem Expr.exists_of_evalAll_error {env : Environment} {es : List Expr} {err : EvalError}
    (h : evalAll env es = .error err) : ∃ e ∈ es, e.eval env = .error err := by
  induction es with
  | nil => cases h
  | cons e es ih =>
    obtain he | ⟨v, -, hes⟩ := evalAll_cons_error_iff.mp h
    · exact ⟨e, List.mem_cons_self, he⟩
    · obtain ⟨e', he', herr⟩ := ih hes
      exact ⟨e', List.mem_cons_of_mem e he', herr⟩

/-- If what is known of each expression is the kind of its value, the kinds of all of them are those
of the values. -/
private theorem Expr.map_kind_of_evalAll {env : Environment} {es : List Expr} {vs : List Value}
    (h : evalAll env es = .ok vs)
    (hkind : ∀ e ∈ es, ∀ v, e.eval env = .ok v → e.kind = .known v.kind) :
    es.map Expr.kind = vs.map fun v => .known v.kind := by
  induction es generalizing vs with
  | nil =>
    obtain rfl := Except.ok.inj h
    rfl
  | cons e es ih =>
    obtain ⟨v, vs, he, hes, rfl⟩ := evalAll_cons_ok_iff.mp h
    obtain ⟨hfirst, hothers⟩ := List.forall_mem_cons.mp hkind
    rw [List.map_cons, List.map_cons, hfirst v he, ih hes hothers]

section

variable {scope : Scope} {env : Environment} (hfunctions : env.functions = scope.functions)
  (hrules : ∀ name f, scope.functions.lookup? name = some f → f.HasLibraryRule)
  (hkeeps : ∀ name f, scope.functions.lookup? name = some f → f.KeepsKind)
  (hdefaults : ∀ name v, env.default? name = some v → scope.types.get? name = some v.kind)

include hfunctions hrules hdefaults

private theorem kind_eq_of_static {a : Phrase} {e : Expr} (h : Typed scope a e)
    (hstatic : ∀ n ∈ e.nodes, n.kind ≠ .dynamic) {v : Value} (hv : e.eval env = .ok v) :
    e.kind = .known v.kind := by
  have hcovers := kind_of_eval hfunctions hrules hdefaults h hv
  cases hkind : e.kind with
  | dynamic => exact absurd hkind (hstatic e e.mem_nodes_self)
  | known k => rw [hcovers k hkind]

include hkeeps

/-- An expression of known kinds fails for values only, where functions keep their kinds and the
variables that are set have values of kinds that they take. -/
theorem Expr.ofValues_of_static {a : Phrase} {e : Expr} (h : Typed scope a e)
    (hstatic : ∀ n ∈ e.nodes, n.kind ≠ .dynamic)
    (hbinding : ∀ o ∈ e.occurrences, ∀ v, env.binding.get? o.name = some v →
      o.kind.Admits v.kind)
    {err : EvalError} (herr : e.eval env = .error err) :
    ∃ offset cause, err = .atOffset offset cause ∧ cause.OfValues := by
  induction h generalizing err with
  | number offset x => cases herr
  | string offset s => cases herr
  | boolean offset b => cases herr
  | @reference name kind text default offset hkind hdefault =>
    obtain ⟨cause, hload, rfl⟩ := located_eq_error_iff.mp herr
    obtain rfl | ⟨v, hget, hadmits, -⟩ := loadVariable_error_cases hload
    · exact ⟨offset, _, rfl, .undefinedVariable name⟩
    · exact absurd (hbinding _ (List.mem_singleton.mpr rfl) v hget) hadmits
  | parens h ih => exact ih hstatic hbinding herr
  | @call name args es f kind offset hlen h hf hkind ih =>
    have hnodes : ∀ e ∈ es, ∀ n ∈ e.nodes, n.kind ≠ .dynamic := fun e he n hn =>
      hstatic n (List.mem_cons_of_mem _ (Expr.mem_allNodes.mpr ⟨e, he, hn⟩))
    obtain hargs | ⟨vs, cause, hvs, happly, rfl⟩ := Expr.eval_call_error_iff.mp herr
    · obtain ⟨e, he, herr⟩ := Expr.exists_of_evalAll_error hargs
      obtain ⟨a, hq⟩ := exists_mem_zip hlen he
      exact ih (a, e) hq (hnodes e he)
        (fun o ho => hbinding o (Expr.mem_allOccurrences.mpr ⟨e, he, ho⟩)) herr
    · -- the call is matched with the kinds with which it was compiled
      have hkinds : es.map Expr.kind = vs.map fun v => .known v.kind :=
        Expr.map_kind_of_evalAll hvs fun e he v hv => by
          obtain ⟨a, hq⟩ := exists_mem_zip hlen he
          exact kind_eq_of_static hfunctions hrules hdefaults (h (a, e) hq) (hnodes e he) hv
      rw [hkinds] at hkind
      rw [applyCall, hfunctions, Registry.lookup?_upper, hf] at happly
      exact ⟨offset, cause, rfl, ofValues_of_applyFunction (hkeeps name f hf) hkind happly⟩
  | @sign op b operand offset h hkind ih =>
    have hnodes : ∀ n ∈ operand.nodes, n.kind ≠ .dynamic := fun n hn =>
      hstatic n (List.mem_cons_of_mem _ hn)
    obtain hu | ⟨u, cause, hu, happly, rfl⟩ := Expr.eval_unary_error_iff.mp herr
    · exact ih hnodes hbinding hu
    · rw [kind_eq_of_static hfunctions hrules hdefaults h hnodes hu] at hkind
      exact absurd happly (applyUnary_ne_error hkind cause)
  | @binary op b c left right offset hleft hright htakes htakes' ihleft ihright =>
    have hnodes : ∀ n ∈ left.nodes, n.kind ≠ .dynamic := fun n hn =>
      hstatic n (List.mem_cons_of_mem _ (List.mem_append_left _ hn))
    have hnodes' : ∀ n ∈ right.nodes, n.kind ≠ .dynamic := fun n hn =>
      hstatic n (List.mem_cons_of_mem _ (List.mem_append_right _ hn))
    obtain hu | ⟨u, hu, hw | ⟨w, cause, hw, happly, rfl⟩⟩ := Expr.eval_binary_error_iff.mp herr
    · exact ihleft hnodes (fun o ho => hbinding o (List.mem_append_left _ ho)) hu
    · exact ihright hnodes' (fun o ho => hbinding o (List.mem_append_right _ ho)) hw
    · rw [kind_eq_of_static hfunctions hrules hdefaults hleft hnodes hu] at htakes
      rw [kind_eq_of_static hfunctions hrules hdefaults hright hnodes' hw] at htakes'
      exact ⟨offset, cause, rfl, ofValues_of_applyBinary htakes htakes' happly⟩

end

/-! ### Runs -/

namespace Formula

/-- A formula of known kinds is run to a value or an error of the values, where functions keep their
kinds and resolve them by the rules of the library. -/
private theorem outcome_of_static {types : Declarations} {functions : Registry} {text : String}
    {f : Formula} {e : Expr}
    (hrules : ∀ name g, functions.lookup? name = some g → g.HasLibraryRule)
    (hkeeps : ∀ name g, functions.lookup? name = some g → g.KeepsKind)
    (hcompile : compile ⟨types, functions⟩ text = .ok f)
    (hparse : parseFormula ⟨types, functions⟩ text = .ok e)
    (hstatic : ∀ n ∈ e.nodes, n.kind ≠ .dynamic) {binding : Binding}
    (hbinding : ∀ name k v, f.kinds.get? name = some k → binding.get? name = some v →
      k.Admits v.kind) :
    (∃ v, f.run functions binding = .ok v) ∨
      ∃ offset cause, f.run functions binding = .error (.atOffset offset cause) ∧
        cause.OfValues := by
  obtain ⟨e', hparse', hof⟩ := compile_ok_iff.mp hcompile
  obtain rfl := Except.ok.inj (hparse.symm.trans hparse')
  obtain ⟨-, a, -, hty, -⟩ := exists_phrase_of_parseFormula hparse
  rw [run_of_ofExpr hof]
  cases hrun : e.value functions binding with
  | ok v => exact .inl ⟨v, rfl⟩
  | error err =>
    have hdefaults : ∀ name v, e.default? name = some v → types.get? name = some v.kind :=
      fun _ _ hv => hty.kind_of_default? hv
    have hadmits : ∀ o ∈ e.occurrences, ∀ v, binding.get? o.name = some v →
        o.kind.Admits v.kind := fun o ho v hv =>
      hbinding _ _ v (get?_kinds_of_mem_occurrences hof hty ho) hv
    obtain ⟨offset, cause, rfl, hcause⟩ :=
      Expr.ofValues_of_static rfl hrules hkeeps hdefaults hty hstatic hadmits hrun
    exact .inr ⟨offset, cause, rfl, hcause⟩

/-- A formula that is compiled with the library to a tree whose nodes all have known kinds is run
to a value or an error of the values: a variable without a value, arithmetic without a result, or a
function that failed. The variables that are set need to have values of their kinds, or whole
numbers in place of numbers. -/
theorem run_library_of_static [Binary64.Logarithms] {types : Declarations} {text : String}
    {f : Formula} {e : Expr}
    (hcompile : compile ⟨types, Registry.library⟩ text = .ok f)
    (hparse : parseFormula ⟨types, Registry.library⟩ text = .ok e)
    (hstatic : ∀ n ∈ e.nodes, n.kind ≠ .dynamic) {binding : Binding}
    (hbinding : ∀ name k v, f.kinds.get? name = some k → binding.get? name = some v →
      k.Admits v.kind) :
    (∃ v, f.run Registry.library binding = .ok v) ∨
      ∃ offset cause, f.run Registry.library binding = .error (.atOffset offset cause) ∧
        cause.OfValues :=
  outcome_of_static
    (fun _ _ hg => Library.hasLibraryRule_of_mem (Registry.mem_functions_of_lookup?_library hg))
    (fun _ _ => Library.keepsKind_of_lookup?) hcompile hparse hstatic hbinding

/-- A quotient of declared numbers has known kinds, and whole numbers are given for both; the
divisor is zero. -/
theorem run_library_of_static_of_zero_divisor :
    let types : Declarations := Dict.ofList [("xs", .list .float), ("x", .float)]
    let binding := (Binding.empty.set "xs" (.list (.integers [1, 2]))).set "x" (.integer 0)
    ∃ f e, compile ⟨types, Registry.library⟩ "=COUNT($xs) / $x" = .ok f ∧
      parseFormula ⟨types, Registry.library⟩ "=COUNT($xs) / $x" = .ok e ∧
      (∀ n ∈ e.nodes, n.kind ≠ .dynamic) ∧
      (∀ name k v, f.kinds.get? name = some k → binding.get? name = some v → k.Admits v.kind) ∧
      ∃ offset cause, f.run Registry.library binding = .error (.atOffset offset cause) ∧
        cause.OfValues := by
  intro types binding
  have hfails : evaluate ⟨types, Registry.library⟩ "=COUNT($xs) / $x" binding =
      .error (.evaluation (.atOffset 12 .divisionByZero)) := by
    rw [Registry.library_eq]
    decide +kernel
  have hnodes : ((parseFormula ⟨types, Registry.library⟩ "=COUNT($xs) / $x").toOption.map fun e =>
      e.nodes.all fun n => decide (n.kind ≠ .dynamic)) = some true := by
    rw [Registry.library_eq]
    decide +kernel
  have hkinds : ((compile ⟨types, Registry.library⟩ "=COUNT($xs) / $x").toOption.map fun f =>
      f.kinds.entries) = some [("xs", .list .float), ("x", .float)] := by
    rw [Registry.library_eq]
    decide +kernel
  obtain ⟨f, hcompile, hrun⟩ := evaluate_evaluation_iff.mp hfails
  obtain ⟨e, hparse, -⟩ := compile_ok_iff.mp hcompile
  rw [hparse] at hnodes
  rw [hcompile] at hkinds
  have hstatic : ∀ n ∈ e.nodes, n.kind ≠ .dynamic := fun n hn =>
    of_decide_eq_true (List.all_eq_true.mp (Option.some.inj hnodes) n hn)
  have hbinding : ∀ name k v, f.kinds.get? name = some k → binding.get? name = some v →
      k.Admits v.kind := by
    intro name k v hk hv
    have hentries : f.kinds.entries = [("xs", .list .float), ("x", .float)] :=
      Option.some.inj hkinds
    have hmem := Dict.get?_eq_some_iff.mp hk
    rw [hentries] at hmem
    simp only [List.mem_cons, Prod.mk.injEq, List.not_mem_nil, or_false] at hmem
    obtain ⟨rfl, rfl⟩ | ⟨rfl, rfl⟩ := hmem
    · obtain rfl : .list (.integers [1, 2]) = v := Option.some.inj hv
      exact .inr (.inr ⟨rfl, rfl⟩)
    · obtain rfl : .integer 0 = v := Option.some.inj hv
      exact .inr (.inl ⟨rfl, rfl⟩)
  refine ⟨f, e, hcompile, hparse, hstatic, hbinding, ?_⟩
  refine (run_library_of_static hcompile hparse hstatic hbinding).resolve_left ?_
  rintro ⟨v, hv⟩
  rw [hrun] at hv
  cases hv

end Formula

end TypedFormula
