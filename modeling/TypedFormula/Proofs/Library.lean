import Mathlib.Control.Monad.Basic
import TypedFormula.Formula.Failure
import TypedFormula.Proofs.Failures

/-!
# The library keeps its kinds

A function of the library says of what kind its result is in one place, and computes the result in
another, with an exit for every case. Both agree (`Function.KeepsKind`): when the arguments match
and the kind of the call is resolved, every exit that gives a value gives one of this kind.

Where the kind is declared, all exits are of the declared kind whatever the arguments are. Where a
rule finds it, the result is one of the arguments or an element of one, and the rule looks at the
same ones: a choice gives its second or third argument, and is resolved only if these are of one
kind; an element of a list has the element kind of this list.

A run with the library then never blames a function for the kind of its result, since every error
of a run is that of the step at one node.

Main statements:

* `Library.keepsKind_of_mem` — the functions of the library keep their kinds;
* `Library.results_are_consistent` — they do, and so no run of a formula has an internal error.
-/

namespace TypedFormula

open Binary64 (Logarithms)

/-! ### Results -/

/-- A property of the result, if there is one. -/
def Returns {α : Type} (P : α → Prop) (result : Except FunctionError α) : Prop :=
  ∀ a, result = .ok a → P a

section

variable {α β : Type} {P : α → Prop}

@[simp] theorem returns_ok {a : α} : Returns P (.ok a) ↔ P a := by simp [Returns]

@[simp] theorem returns_pure {a : α} : Returns P (pure a) ↔ P a := returns_ok

/-- Without a result nothing has to hold. -/
@[simp] theorem returns_error {e : FunctionError} : Returns P (.error e) := nofun

theorem returns_of_forall {result : Except FunctionError α} (h : ∀ a, P a) : Returns P result :=
  fun a _ => h a

/-- Of a result holds what is true. -/
@[simp] theorem returns_true {result : Except FunctionError α} :
    Returns (fun _ => True) result := returns_of_forall fun _ => trivial

@[simp] theorem returns_bind {first : Except FunctionError β}
    {next : β → Except FunctionError α} :
    Returns P (first >>= next) ↔ Returns (fun b => Returns P (next b)) first := by
  cases first with
  | error e => exact ⟨fun _ => returns_error, fun _ => returns_error⟩
  | ok b => exact (returns_ok (P := fun b => Returns P (next b))).symm

@[simp] theorem returns_map {result : Except FunctionError β} {g : β → α} :
    Returns P (g <$> result) ↔ Returns (fun b => P (g b)) result := by
  rw [map_eq_pure_bind, returns_bind]
  simp only [returns_pure]

@[simp] theorem returns_ite {c : Prop} [Decidable c] {x y : Except FunctionError α} :
    Returns P (if c then x else y) ↔ if c then Returns P x else Returns P y := by
  split <;> rfl

theorem Returns.mono {Q : α → Prop} {result : Except FunctionError α} (h : Returns P result)
    (hPQ : ∀ a, P a → Q a) : Returns Q result := fun a ha => hPQ a (h a ha)

end

@[simp] theorem returns_finiteResult (name : String) (x : Float) :
    Returns (fun v => v.kind = .float) (finiteResult name x) := by
  simp [finiteResult]

theorem returns_argument (args : List Value) (index : Nat) :
    Returns (fun v => args[index]? = some v) (argument args index) := by
  unfold argument
  split
  · rename_i v hv
    exact returns_ok.mpr hv
  · exact returns_error

private theorem returns_listArgument (args : List Value) (index : Nat) :
    Returns (fun items => args[index]? = some (.list items)) (listArgument args index) := by
  rw [listArgument, returns_bind]
  refine (returns_argument args index).mono fun v hv => ?_
  cases v with
  | list items => exact returns_ok.mpr hv
  | _ => exact returns_error

/-! ### Functions that keep their kinds -/

/-- A value of the body has the kind that is resolved for the kinds of the arguments. -/
def Function.KeepsKind (f : Function) : Prop :=
  ∀ (args : List Value) (k : Kind) (v : Value),
    f.checkArguments (args.map fun v => .known v.kind) = .ok (.known k) → f.body args = .ok v →
      v.kind = k

private theorem Function.keepsKind_of_returns {f : Function} {k : Kind} (hrule : f.resolver = none)
    (hreturns : f.returns = .known k)
    (hbody : ∀ args, Returns (fun v => v.kind = k) (f.body args)) : f.KeepsKind := by
  intro args j v hcheck hv
  have hresolve := (checkArguments_ok_iff.mp hcheck).2
  rw [resolve, hrule, hreturns] at hresolve
  rw [hbody args v hv, StaticKind.known.inj hresolve]

namespace Library

private theorem floatFunction_keepsKind {name summary : String} {parameters : List Parameter}
    {body : List Value → Except FunctionError Value}
    (h : ∀ args, Returns (fun v => v.kind = .float) (body args)) :
    (floatFunction name summary parameters body).KeepsKind :=
  Function.keepsKind_of_returns rfl rfl h

private theorem stringFunction_keepsKind {name summary : String} {parameters : List Parameter}
    {body : List Value → Except FunctionError Value}
    (h : ∀ args, Returns (fun v => v.kind = .string) (body args)) :
    (stringFunction name summary parameters body).KeepsKind :=
  Function.keepsKind_of_returns rfl rfl h

private theorem builder_keepsKind {name summary : String} {target : ScalarKind} :
    (builder name summary target).KeepsKind := by
  refine Function.keepsKind_of_returns rfl rfl fun args => ?_
  change Returns _ (build target args)
  unfold build
  split
  · rename_i items hitems
    exact returns_ok.mpr (congrArg Kind.list (element_of_flatten hitems))
  · exact returns_error

private theorem keepsKind_numberFunctions [Logarithms] : ∀ f ∈ numberFunctions, f.KeepsKind := by
  simp only [numberFunctions, List.forall_mem_cons, List.not_mem_nil, false_imp_iff,
    implies_true, and_true]
  refine ⟨?abs, ?exp, ?ln, ?log, ?mod, ?pi, ?product, ?round, ?sign, ?sqrt, ?sum, ?trunc⟩
  -- whatever was computed before, every exit is an error or a number
  all_goals
    refine floatFunction_keepsKind fun args => ?_
    simp [abs, exp, ln, log, mod, pi, product, round, sign, sqrt, sum, trunc]

private theorem keepsKind_sampleFunctions : ∀ f ∈ sampleFunctions, f.KeepsKind := by
  simp only [sampleFunctions, List.forall_mem_cons, List.not_mem_nil, false_imp_iff,
    implies_true, and_true]
  refine ⟨?average, ?count, ?max, ?median, ?min, ?stdev, ?var⟩
  case count =>
    refine Function.keepsKind_of_returns rfl rfl fun args => ?_
    simp [Library.count]
  all_goals
    refine floatFunction_keepsKind fun args => ?_
    simp [average, max, median, min, stdev, var]

theorem returns_substitute (args : List Value) :
    Returns (fun v => ∃ s, v = .string s) (substitute args) := by
  rw [substitute, returns_bind]
  refine returns_of_forall fun s => returns_bind.mpr <| returns_of_forall fun old => ?_
  refine returns_bind.mpr <| returns_of_forall fun new => ?_
  refine returns_bind.mpr <| returns_of_forall fun n => ?_
  cases n <;> exact returns_pure.mpr ⟨_, rfl⟩

/-- The functions on texts keep their kinds. -/
private theorem keepsKind_stringFunctions : ∀ f ∈ stringFunctions, f.KeepsKind := by
  simp only [stringFunctions, List.forall_mem_cons, List.not_mem_nil, false_imp_iff,
    implies_true, and_true]
  refine ⟨?concatenate, ?left, ?len, ?lower, ?mid, ?right, ?substitute, ?upper, ?value⟩
  case len =>
    refine Function.keepsKind_of_returns rfl rfl fun args => ?_
    simp [len]
  case value =>
    refine floatFunction_keepsKind fun args => ?_
    simp [value]
  case substitute =>
    refine stringFunction_keepsKind fun args => (returns_substitute args).mono fun v hv => ?_
    obtain ⟨s, rfl⟩ := hv
    rfl
  all_goals
    refine stringFunction_keepsKind fun args => ?_
    simp [concatenate, left, lower, mid, right, upper]

theorem returns_choose (args : List Value) :
    Returns (fun v => args[1]? = some v ∨ args[2]? = some v) (choose args) := by
  rw [choose, returns_bind]
  refine returns_of_forall fun condition => (returns_argument args _).mono fun v hv => ?_
  cases condition with
  | true => exact .inl hv
  | false => exact .inr hv

/-- The functions on conditions keep their kinds. -/
private theorem keepsKind_conditionFunctions : ∀ f ∈ conditionFunctions, f.KeepsKind := by
  simp only [conditionFunctions, List.forall_mem_cons, List.not_mem_nil, false_imp_iff,
    implies_true, and_true]
  refine ⟨?all, ?choose, ?negation, ?any⟩
  case choose =>
    intro args k v hcheck hv
    have hresolve : choiceKind (args.map fun v => .known v.kind) = .known k :=
      (Function.checkArguments_ok_iff.mp hcheck).2.symm
    -- a resolved choice is one between two values of the resolved kind
    unfold choiceKind at hresolve
    split at hresolve
    · rename_i a b ha hb
      split at hresolve
      · rename_i hab
        subst hab
        obtain rfl := StaticKind.known.inj hresolve
        rcases returns_choose args v hv with h | h
        · simpa [h] using ha
        · simpa [h] using hb
      · cases hresolve
    · cases hresolve
  all_goals
    refine Function.keepsKind_of_returns rfl rfl fun args => ?_
    simp [all, any, negation]

/-- A function that gives elements of its first argument keeps the kind that is resolved for
elements. -/
private theorem keepsKind_of_elements {f : Function} (hrule : f.resolver = some elementKind)
    (hbody : ∀ args, Returns (fun v => ∃ items, args[0]? = some (.list items) ∧
      v ∈ items.values) (f.body args)) : f.KeepsKind := by
  intro args k v hcheck hv
  obtain ⟨items, hfirst, hmem⟩ := hbody args v hv
  have hresolve := (Function.checkArguments_ok_iff.mp hcheck).2
  simp only [Function.resolve, hrule, elementKind, List.head?_eq_getElem?, List.getElem?_map,
    hfirst, Option.map_some, Value.kind_list] at hresolve
  rw [items.element_of_mem_values hmem]
  exact (StaticKind.known.inj hresolve).symm

/-- An element that is found is one of the list. -/
private theorem returns_elementOr {items : Items} {element : Option Value} (ordinal : Nat)
    (fault : ArgumentFault) (h : ∀ v, element = some v → v ∈ items.values) :
    Returns (fun v => v ∈ items.values) (elementOr element ordinal fault) := by
  cases element with
  | none => exact returns_error
  | some v => exact returns_ok.mpr (h v rfl)

private theorem returns_of_listArgument {args : List Value}
    {next : Items → Except FunctionError Value}
    (h : ∀ items, Returns (fun v => v ∈ items.values) (next items)) :
    Returns (fun v => ∃ items, args[0]? = some (.list items) ∧ v ∈ items.values)
      (listArgument args 0 >>= next) := by
  rw [returns_bind]
  refine (returns_listArgument args 0).mono fun items hitems => ?_
  exact (h items).mono fun v hv => ⟨items, hitems, hv⟩

theorem returns_first (args : List Value) :
    Returns (fun v => ∃ items, args[0]? = some (.list items) ∧ v ∈ items.values) (first args) :=
  returns_of_listArgument fun _ => returns_elementOr _ _ fun _ => List.mem_of_getElem?

theorem returns_last (args : List Value) :
    Returns (fun v => ∃ items, args[0]? = some (.list items) ∧ v ∈ items.values) (last args) :=
  returns_of_listArgument fun _ => returns_elementOr _ _ fun _ => List.mem_of_getLast?

theorem returns_nth (args : List Value) :
    Returns (fun v => ∃ items, args[0]? = some (.list items) ∧ v ∈ items.values) (nth args) := by
  refine returns_of_listArgument fun items => ?_
  refine returns_bind.mpr <| returns_of_forall fun position => ?_
  split
  · exact returns_error
  · exact returns_elementOr _ _ fun v hv => List.mem_of_getElem? hv

private theorem keepsKind_sequenceFunctions : ∀ f ∈ sequenceFunctions, f.KeepsKind := by
  simp only [sequenceFunctions, List.forall_mem_cons, List.not_mem_nil, false_imp_iff,
    implies_true, and_true]
  refine ⟨builder_keepsKind, ?first, builder_keepsKind, builder_keepsKind, ?last, ?joinElements,
    ?nth, builder_keepsKind⟩
  case first => exact keepsKind_of_elements rfl returns_first
  case last => exact keepsKind_of_elements rfl returns_last
  case nth => exact keepsKind_of_elements rfl returns_nth
  case joinElements =>
    refine Function.keepsKind_of_returns rfl rfl fun args => ?_
    simp [joinElements]

/-- The functions of the library keep their kinds. -/
theorem keepsKind_of_mem [Logarithms] {f : Function} (h : f ∈ functions) : f.KeepsKind := by
  simp only [functions, List.mem_append] at h
  rcases h with (((h | h) | h) | h) | h
  · exact keepsKind_numberFunctions f h
  · exact keepsKind_sampleFunctions f h
  · exact keepsKind_stringFunctions f h
  · exact keepsKind_conditionFunctions f h
  · exact keepsKind_sequenceFunctions f h

theorem checkParameters_of_mem [Logarithms] {f : Function} (hf : f ∈ functions) :
    checkParameters f.parameters = .ok () := by
  have hall : (functions.all fun f => (checkParameters f.parameters).isOk) = true := rfl
  cases hresult : checkParameters f.parameters with
  | error fault => simpa [hresult, Except.isOk, Except.toBool] using List.all_eq_true.mp hall f hf
  | ok u => rfl

/-- The names of the functions, which do not depend on the logarithms. -/
def names : List String :=
  ["ABS", "EXP", "LN", "LOG", "MOD", "PI", "PRODUCT", "ROUND", "SIGN", "SQRT", "SUM", "TRUNC",
   "AVERAGE", "COUNT", "MAX", "MEDIAN", "MIN", "STDEV", "VAR",
   "CONCATENATE", "LEFT", "LEN", "LOWER", "MID", "RIGHT", "SUBSTITUTE", "UPPER", "VALUE",
   "AND", "IF", "NOT", "OR",
   "BLIST", "FIRST", "FLIST", "ILIST", "LAST", "LISTTOSTRING", "NTH", "SLIST"]

private theorem map_name_functions [Logarithms] : functions.map Function.name = names := rfl

private theorem upper_of_mem_names {name : String} (h : name ∈ names) : Text.upper name = name := by
  have hletters : (names.all fun name => name.toList.all fun c => c.toNat.blt 0x61) = true := by
    decide +kernel
  have hname := List.all_eq_true.mp hletters name h
  exact Text.upper_of_lt fun c hc => Nat.blt_eq.mp (List.all_eq_true.mp hname c hc)

end Library

/-! ### The registry of the library -/

namespace Registry

/-- Functions with well-formed signatures and new names in upper case are all registered, in order
and under their names. -/
private theorem entries_registerAll {r : Registry} {functions : List Function}
    (hupper : ∀ f ∈ functions, Text.upper f.name = f.name)
    (hcheck : ∀ f ∈ functions, checkParameters f.parameters = .ok ())
    (hnodup : (r.functions.entries.map Prod.fst ++ functions.map Function.name).Nodup) :
    (r.registerAll functions).functions.entries =
      r.functions.entries ++ functions.map fun f => (f.name, f) := by
  induction functions generalizing r with
  | nil => exact (List.append_nil _).symm
  | cons f functions ih =>
    obtain ⟨hf, hothers⟩ := List.forall_mem_cons.mp hupper
    obtain ⟨hfcheck, hotherscheck⟩ := List.forall_mem_cons.mp hcheck
    have hnew : f.name ∉ r.functions.entries.map Prod.fst := fun hmem =>
      (List.nodup_append.mp hnodup).2.2 _ hmem _ List.mem_cons_self rfl
    have hentries : (r.functions.insert f.name f).entries = r.functions.entries ++ [(f.name, f)] :=
      putEntry_of_notMem f hnew
    have hregister : r.register f =
        .ok (r.functions.get? f.name, ⟨r.functions.insert f.name f⟩) := by
      simp only [register, hfcheck, hf]
    have hrest : registerAll ⟨r.functions.insert f.name f⟩ functions =
        r.registerAll (f :: functions) := by
      rw [registerAll, registerAll, List.foldl_cons, hregister]
    rw [← hrest, ih hothers hotherscheck, hentries, List.append_assoc]
    · rfl
    · rw [hentries, List.map_append, List.append_assoc]
      exact hnodup

/-- The registry of the library has all functions of the library, under their names. -/
theorem entries_library [Logarithms] :
    library.functions.entries = Library.functions.map fun f => (f.name, f) := by
  have hupper : ∀ f ∈ Library.functions, Text.upper f.name = f.name := fun f hf =>
    Library.upper_of_mem_names (Library.map_name_functions ▸ List.mem_map_of_mem hf)
  have hnodup : (empty.functions.entries.map Prod.fst ++
      Library.functions.map Function.name).Nodup := by
    rw [Library.map_name_functions]
    decide +kernel
  rw [library, entries_registerAll hupper (fun _ => Library.checkParameters_of_mem) hnodup]
  exact List.nil_append _

/-- The registry of the library, with nothing left to register. -/
theorem library_eq [Logarithms] :
    library = ⟨⟨Library.functions.map fun f => (f.name, f),
      entries_library ▸ library.functions.nodup⟩⟩ :=
  congrArg Registry.mk (Dict.ext entries_library)

theorem mem_functions_of_lookup?_library [Logarithms] {name : String} {f : Function}
    (h : library.lookup? name = some f) : f ∈ Library.functions := by
  have hmem := Dict.get?_eq_some_iff.mp h
  rw [entries_library, List.mem_map] at hmem
  obtain ⟨g, hg, heq⟩ := hmem
  rwa [← (Prod.mk.inj heq).2]

end Registry

/-! ### Runs -/

/-- No function is blamed where all functions keep their kinds. -/
private theorem Expr.FailsWith.ne_inconsistent {env : Environment}
    (hkeeps : ∀ name f, env.functions.lookup? name = some f → f.KeepsKind) {n : Expr}
    {cause : EvalCause} (h : n.FailsWith env cause) (name : String) (declared actual : Kind) :
    cause ≠ .inconsistent name declared actual := by
  rintro rfl
  cases h with
  | reference offset hload =>
    obtain heq | ⟨v, -, -, heq⟩ := loadVariable_error_cases hload <;> cases heq
  | unary offset hu happly =>
    obtain ⟨-, heq⟩ | ⟨source, -, heq⟩ := applyUnary_error_cases happly <;> cases heq
  | binary offset hu hw happly =>
    obtain ⟨v, -, -, heq⟩ | ⟨a, -, ⟨v, source, -, -, heq⟩ | heq | heq⟩ :=
      applyBinary_error_cases happly <;> cases heq
  | call offset hvs happly =>
    obtain ⟨-, heq⟩ | ⟨f, hf, happly⟩ := applyCall_error_cases happly
    · cases heq
    · obtain ⟨m, -, heq⟩ | ⟨source, -, heq⟩ | ⟨k, v, hcheck, hbody, hne, -⟩ :=
        applyFunction_error_cases happly
      · cases heq
      · cases heq
      · exact hne (hkeeps _ f hf _ k v hcheck hbody)

/-- A run with functions that keep their kinds has no internal errors. -/
private theorem Formula.isInternal_of_run {scope : Scope} {text : String} {f : Formula}
    (hcompile : Formula.compile scope text = .ok f) {functions : Registry}
    (hkeeps : ∀ name g, functions.lookup? name = some g → g.KeepsKind) {binding : Binding}
    {err : EvalError} (hrun : f.run functions binding = .error err) : err.isInternal = false := by
  obtain ⟨e, -, hof⟩ := compile_ok_iff.mp hcompile
  rw [run_of_ofExpr hof] at hrun
  obtain ⟨n, -, cause, hfails, rfl⟩ := Expr.exists_failsWith_of_eval hrun
  have hne := hfails.ne_inconsistent hkeeps
  cases cause with
  | inconsistent name declared actual => exact absurd rfl (hne name declared actual)
  | _ => rfl

theorem Library.keepsKind_of_lookup? [Logarithms] {name : String} {f : Function}
    (h : Registry.library.lookup? name = some f) : f.KeepsKind :=
  keepsKind_of_mem (Registry.mem_functions_of_lookup?_library h)

/-- The functions of the library give values of the kinds that are resolved for their arguments, and
so no run of a formula with the library has an error that is internal. -/
theorem Library.results_are_consistent [Logarithms] :
    (∀ f ∈ functions, ∀ (args : List Value) (k : Kind) (v : Value),
        f.checkArguments (args.map fun v => .known v.kind) = .ok (.known k) →
          f.body args = .ok v → v.kind = k) ∧
      ∀ (types : Declarations) (text : String) (f : Formula) (binding : Binding)
        (err : EvalError), Formula.compile ⟨types, Registry.library⟩ text = .ok f →
          f.run Registry.library binding = .error err → err.isInternal = false := by
  refine ⟨fun f hf => keepsKind_of_mem hf, fun types text f binding err hcompile hrun => ?_⟩
  exact Formula.isInternal_of_run hcompile (fun _ _ => keepsKind_of_lookup?) hrun

/-- An element of a list of whole numbers is a whole number, and asking for one beyond the end of
the list is an error, but no internal one. -/
theorem Library.results_are_consistent_of_element :
    (∃ f ∈ functions, f.name = "NTH" ∧
        let args := [.list (.integers [7]), .integer 1]
        f.checkArguments (args.map fun v => .known v.kind) = .ok (.known .integer) ∧
          ∃ v, f.body args = .ok v ∧ v.kind = .integer) ∧
      ∃ f err, Formula.compile ⟨Dict.empty, Registry.library⟩ "=NTH(ILIST(1), 2)" = .ok f ∧
        f.run Registry.library Binding.empty = .error err ∧ err.isInternal = false := by
  obtain ⟨hkinds, hruns⟩ := results_are_consistent
  constructor
  · let nth := functions.get ⟨38, by decide⟩
    have hmem : nth ∈ functions := List.get_mem _ _
    have hbody : nth.body [.list (.integers [7]), .integer 1] = .ok (.integer 7) := by
      decide +kernel
    exact ⟨_, hmem, rfl, rfl, _, hbody, hkinds _ hmem _ .integer _ rfl hbody⟩
  · have hfails : Formula.evaluate ⟨Dict.empty, Registry.library⟩ "=NTH(ILIST(1), 2)"
        Binding.empty = .error (.evaluation (.atOffset 1
          (.function "NTH" (.argument 2 (.positionPastEnd 2 1))))) := by
      rw [Registry.library_eq]
      decide +kernel
    obtain ⟨f, hcompile, hrun⟩ := Formula.evaluate_evaluation_iff.mp hfails
    exact ⟨f, _, hcompile, hrun, hruns _ _ f _ _ hcompile hrun⟩

end TypedFormula
