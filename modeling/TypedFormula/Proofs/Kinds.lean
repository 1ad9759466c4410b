import TypedFormula.Library
import TypedFormula.Proofs.Evaluation
import TypedFormula.Proofs.Grammar.Acceptance
import TypedFormula.Proofs.LetterCase

/-!
# Known kinds are kept by a run

What is known of the kind of an expression before a run is true of every value that it has in a
run. Functions need not be well behaved for this: the kind that a function declares is compared
with the kind of what its body gives, and a value of another kind is an error.

The rules that resolve the kind of a call are asked twice, before the run with what is known of the
arguments, and in the run with the kinds of their values. The two answers must agree where the
first one is a kind. A rule may not change its mind when it learns more (`resolve_of_refines`); the
rules of the library do not. A call in a tree also has its name in upper case, and is looked up a
second time under this name.

Defaults are taken as they are, without a check in the run. They have the kinds of their variables
since they were read as values of these kinds, and one name has one kind in a scope.

Main statements:

* `kind_of_eval` — the value of an expression within a scope has the kind that is known;
* `Formula.kind_of_run` — the value of a formula has its known kind, and so have the values of all
  nodes of its tree.
-/

namespace TypedFormula

/-! ### Learning kinds -/

/-- A kind is among those that are possible before a run. -/
def StaticKind.Covers (k : StaticKind) (actual : Kind) : Prop := ∀ j, k = .known j → actual = j

/-- Kinds are what is known of them, where something is known. -/
def Refines (kinds : List StaticKind) (actual : List Kind) : Prop :=
  ∀ (i : Nat) (k : Kind), kinds[i]? = some (.known k) → actual[i]? = some k

/-- The kind is resolved as declared, or by one of the rules of the library. -/
def Function.HasLibraryRule (f : Function) : Prop :=
  f.resolver ∈ [none, some Library.choiceKind, some Library.elementKind]

section

variable {kinds : List StaticKind} {actual : List Kind} {k : Kind}

private theorem refines_nil : Refines [] [] := nofun

private theorem refines_cons {first : StaticKind} {j : Kind} (h : first.Covers j)
    (hrest : Refines kinds actual) : Refines (first :: kinds) (j :: actual) := by
  rintro (_ | i) k hk
  · exact congrArg some (h k (Option.some.inj hk))
  · exact hrest i k hk

private theorem choiceKind_of_refines (h : Refines kinds actual)
    (hk : Library.choiceKind kinds = .known k) :
    Library.choiceKind (actual.map .known) = .known k := by
  unfold Library.choiceKind at hk
  split at hk
  · rename_i a b ha hb
    simpa [Library.choiceKind, h 1 a ha, h 2 b hb] using hk
  · cases hk

private theorem elementKind_of_refines (h : Refines kinds actual)
    (hk : Library.elementKind kinds = .known k) :
    Library.elementKind (actual.map .known) = .known k := by
  unfold Library.elementKind at hk
  split at hk
  · rename_i a ha
    rw [List.head?_eq_getElem?] at ha
    simpa [Library.elementKind, List.head?_eq_getElem?, h 0 _ ha] using hk
  · cases hk

/-- A known kind of a call stays when more is known of its arguments. -/
theorem Function.resolve_of_refines {f : Function} (hf : f.HasLibraryRule)
    (h : Refines kinds actual) (hk : f.resolve kinds = .known k) :
    f.resolve (actual.map .known) = .known k := by
  rw [HasLibraryRule] at hf
  unfold resolve at hk ⊢
  rcases hrule : f.resolver with _ | rule
  · simpa [hrule] using hk
  · have hcases : rule = Library.choiceKind ∨ rule = Library.elementKind := by
      simpa [hrule] using hf
    simp only [hrule] at hk ⊢
    rcases hcases with rfl | rfl
    · exact choiceKind_of_refines h hk
    · exact elementKind_of_refines h hk

end

/-- The functions of a registry that is filled with others are these and its own. -/
private theorem Registry.lookup?_registerAll {r : Registry} {functions : List Function}
    {name : String} {f : Function} (h : (r.registerAll functions).lookup? name = some f) :
    f ∈ functions ∨ r.lookup? name = some f := by
  induction functions generalizing r with
  | nil => exact .inr h
  | cons g functions ih =>
    rw [registerAll, List.foldl_cons] at h
    rcases ih h with hmem | hlookup
    · exact .inl (List.mem_cons_of_mem g hmem)
    · split at hlookup
      · rename_i replaced r' hregister
        rw [lookup?_register hregister] at hlookup
        split at hlookup
        · exact .inl (by simp [Option.some.inj hlookup])
        · exact .inr hlookup
      · exact .inr hlookup

theorem Library.hasLibraryRule_of_mem [Binary64.Logarithms] {f : Function}
    (h : f ∈ Library.functions) :
    f.HasLibraryRule := by
  revert f
  simp [Function.HasLibraryRule, Library.functions, numberFunctions, sampleFunctions,
    stringFunctions, conditionFunctions, sequenceFunctions, floatFunction, stringFunction, builder]

/-! ### Kinds of single steps -/

private theorem kind_of_applyUnary {op : UnaryOperator} {u v : Value}
    (h : applyUnary op u = .ok v) :
    v.kind = .float := by
  simp only [applyUnary, bind, Except.bind] at h
  split at h
  · cases h
  · split at h
    · cases h
    · cases op <;> obtain rfl := Except.ok.inj h <;> rfl

/-- Arithmetic gives a number. -/
private theorem kind_of_applyArithmetic {op : Arithmetic} {u w v : Value}
    (h : applyArithmetic op u w = .ok v) : v.kind = .float := by
  simp only [applyArithmetic, bind, Except.bind] at h
  split at h
  · cases h
  · split at h
    · cases h
    · split at h
      · cases h
      · split at h
        · obtain rfl := Except.ok.inj h
          rfl
        · cases h

/-- A binary operator gives a value of its kind. -/
theorem kind_of_applyBinary {op : BinaryOperator} {u w v : Value}
    (h : applyBinary op u w = .ok v) : v.kind = Expr.binaryKind op := by
  simp only [applyBinary, bind, Except.bind] at h
  split at h
  · cases h
  · split at h
    · cases h
    · cases op with
      | arithmetic op => exact kind_of_applyArithmetic h
      | concat =>
        simp only at h
        split at h
        · cases h
        · split at h
          · cases h
          · obtain rfl := Except.ok.inj h
            rfl
      | comparison op =>
        obtain rfl := Except.ok.inj h
        rfl

/-! ### Trees within a scope -/

namespace Expr

mutual

/-- The nodes of a tree. -/
def nodes : Expr → List Expr
  | number offset x => [number offset x]
  | string offset s => [string offset s]
  | boolean offset b => [boolean offset b]
  | reference offset name kind default => [reference offset name kind default]
  | unary offset op operand => unary offset op operand :: operand.nodes
  | binary offset op left right => binary offset op left right :: (left.nodes ++ right.nodes)
  | call offset name kind args => call offset name kind args :: allNodes args

/-- The nodes of some trees. -/
def allNodes : List Expr → List Expr
  | [] => []
  | e :: es => e.nodes ++ allNodes es

end

theorem mem_allNodes {n : Expr} {es : List Expr} : n ∈ allNodes es ↔ ∃ e ∈ es, n ∈ e.nodes := by
  induction es with
  | nil => simp [allNodes]
  | cons e es ih => simp [allNodes, ih]

theorem mem_nodes_self (e : Expr) : e ∈ e.nodes := by
  cases e <;> simp [nodes]

/-- Induction on expressions, with the hypothesis for each argument of a call. -/
theorem induction {P : Expr → Prop} (number : ∀ offset x, P (number offset x))
    (string : ∀ offset s, P (string offset s)) (boolean : ∀ offset b, P (boolean offset b))
    (reference : ∀ offset name kind default, P (reference offset name kind default))
    (unary : ∀ offset op operand, P operand → P (unary offset op operand))
    (binary : ∀ offset op left right, P left → P right → P (binary offset op left right))
    (call : ∀ offset name kind args, (∀ e ∈ args, P e) → P (call offset name kind args))
    (e : Expr) : P e :=
  @Expr.rec P (fun es => ∀ e ∈ es, P e) number string boolean reference unary binary call nofun
    (fun _ _ he hes => List.forall_mem_cons.mpr ⟨he, hes⟩) e

/-- What passes from a node to its parts holds of all nodes, if it holds of the tree. -/
theorem forall_mem_nodes {P : Expr → Prop}
    (hunary : ∀ offset op operand, P (unary offset op operand) → P operand)
    (hbinary : ∀ offset op left right, P (binary offset op left right) → P left ∧ P right)
    (hcall : ∀ offset name kind args, P (call offset name kind args) → ∀ e ∈ args, P e)
    {e : Expr} (he : P e) : ∀ n ∈ e.nodes, P n := by
  induction e using Expr.induction with
  | number offset x => exact List.forall_mem_singleton.mpr he
  | string offset s => exact List.forall_mem_singleton.mpr he
  | boolean offset b => exact List.forall_mem_singleton.mpr he
  | reference offset name kind default => exact List.forall_mem_singleton.mpr he
  | unary offset op operand ih =>
    exact List.forall_mem_cons.mpr ⟨he, ih (hunary offset op operand he)⟩
  | binary offset op left right ihleft ihright =>
    obtain ⟨hleft, hright⟩ := hbinary offset op left right he
    exact List.forall_mem_cons.mpr
      ⟨he, List.forall_mem_append.mpr ⟨ihleft hleft, ihright hright⟩⟩
  | call offset name kind args ih =>
    refine List.forall_mem_cons.mpr ⟨he, fun n hn => ?_⟩
    obtain ⟨a, ha, hn⟩ := mem_allNodes.mp hn
    exact ih a ha (hcall offset name kind args he a ha) n hn

/-- The nodes of a node are nodes of the tree. -/
theorem nodes_subset {e n : Expr} (h : n ∈ e.nodes) : n.nodes ⊆ e.nodes := by
  refine forall_mem_nodes (P := fun n => n.nodes ⊆ e.nodes) ?_ ?_ ?_ (List.Subset.refl _) n h
  · exact fun _ _ _ h => List.subset_of_cons_subset h
  · intro _ _ left right h
    have hparts := List.subset_of_cons_subset h
    exact ⟨fun m hm => hparts (List.mem_append_left _ hm),
      fun m hm => hparts (List.mem_append_right _ hm)⟩
  · intro _ _ _ args h a ha m hm
    exact List.subset_of_cons_subset h (mem_allNodes.mpr ⟨a, ha, hm⟩)

theorem mem_allOccurrences {o : Occurrence} {es : List Expr} :
    o ∈ allOccurrences es ↔ ∃ e ∈ es, o ∈ e.occurrences := by
  induction es with
  | nil => simp [allOccurrences]
  | cons e es ih => simp [allOccurrences, ih]

/-- The default of a variable is given by one of its references. -/
theorem exists_occurrence_of_firstDefault? {name : String} {os : List Occurrence} {v : Value}
    (h : firstDefault? name os = some v) : ∃ o ∈ os, o.name = name ∧ o.default = some v := by
  induction os with
  | nil => cases h
  | cons o os ih =>
    rw [firstDefault?, Option.or_eq_some_iff] at h
    rcases h with h | ⟨-, h⟩
    · split at h
      · rename_i hname
        exact ⟨o, List.mem_cons_self, hname, h⟩
      · cases h
    · obtain ⟨o', ho', hname, hdefault⟩ := ih h
      exact ⟨o', List.mem_cons_of_mem o ho', hname, hdefault⟩

end Expr

section

variable {scope : Scope} {a : Phrase} {e : Expr}

/-- Every node of an expression within a scope is one itself. -/
theorem Typed.exists_of_mem_nodes (h : Typed scope a e) {n : Expr} (hn : n ∈ e.nodes) :
    ∃ b, Typed scope b n := by
  induction h with
  | number offset x =>
    obtain rfl := List.mem_singleton.mp hn
    exact ⟨_, .number offset x⟩
  | string offset s =>
    obtain rfl := List.mem_singleton.mp hn
    exact ⟨_, .string offset s⟩
  | boolean offset b =>
    obtain rfl := List.mem_singleton.mp hn
    exact ⟨_, .boolean offset b⟩
  | reference offset hkind hdefault =>
    obtain rfl := List.mem_singleton.mp hn
    exact ⟨_, .reference offset hkind hdefault⟩
  | parens h ih => exact ih hn
  | call offset hlen h hf hkind ih =>
    rcases List.mem_cons.mp hn with rfl | hn
    · exact ⟨_, .call offset hlen h hf hkind⟩
    · obtain ⟨e, he, hn⟩ := Expr.mem_allNodes.mp hn
      obtain ⟨a, hq⟩ := exists_mem_zip hlen he
      exact ih (a, e) hq hn
  | sign offset h hkind ih =>
    rcases List.mem_cons.mp hn with rfl | hn
    · exact ⟨_, .sign offset h hkind⟩
    · exact ih hn
  | binary offset hleft hright htakes htakes' ihleft ihright =>
    rcases List.mem_cons.mp hn with rfl | hn
    · exact ⟨_, .binary offset hleft hright htakes htakes'⟩
    · rcases List.mem_append.mp hn with hn | hn
      · exact ihleft hn
      · exact ihright hn

/-- A reference has the kind that its variable has in the scope, and its default is written. -/
theorem Typed.of_mem_occurrences (h : Typed scope a e) {o : Expr.Occurrence}
    (ho : o ∈ e.occurrences) :
    scope.types.get? o.name = some o.kind ∧ ∃ text, WritesDefault o.kind text o.default := by
  induction h with
  | number offset x => cases ho
  | string offset s => cases ho
  | boolean offset b => cases ho
  | reference offset hkind hdefault =>
    obtain rfl := List.mem_singleton.mp ho
    exact ⟨hkind, _, hdefault⟩
  | parens h ih => exact ih ho
  | call offset hlen h hf hkind ih =>
    obtain ⟨e, he, ho⟩ := Expr.mem_allOccurrences.mp ho
    obtain ⟨a, hq⟩ := exists_mem_zip hlen he
    exact ih (a, e) hq ho
  | sign offset h hkind ih => exact ih ho
  | binary offset hleft hright htakes htakes' ihleft ihright =>
    rcases List.mem_append.mp ho with ho | ho
    · exact ihleft ho
    · exact ihright ho

/-- A default is read from a text as a value of the kind that its variable has in the scope. -/
theorem Typed.exists_readDefault? (h : Typed scope a e) {o : Expr.Occurrence}
    (ho : o ∈ e.occurrences) {v : Value} (hv : o.default = some v) :
    ∃ (kind : ScalarKind) (text : String),
      scope.types.get? o.name = some (.scalar kind) ∧ readDefault? kind text = some v := by
  obtain ⟨hkind, text, hdefault⟩ := h.of_mem_occurrences ho
  rw [hv] at hdefault
  generalize o.kind = k at hkind hdefault
  cases hdefault with
  | some hread => exact ⟨_, _, hkind, hread⟩

theorem Typed.kind_of_default (h : Typed scope a e) {o : Expr.Occurrence}
    (ho : o ∈ e.occurrences) {v : Value} (hv : o.default = some v) :
    scope.types.get? o.name = some v.kind := by
  obtain ⟨kind, text, hkind, hread⟩ := h.exists_readDefault? ho hv
  rwa [kind_of_readDefault? hread]

theorem Typed.kind_of_default? (h : Typed scope a e) {name : String} {v : Value}
    (hv : e.default? name = some v) : scope.types.get? name = some v.kind := by
  obtain ⟨o, ho, rfl, hdefault⟩ := Expr.exists_occurrence_of_firstDefault? hv
  exact h.kind_of_default ho hdefault

end

/-! ### Values of expressions -/

private theorem refines_of_evalAll {env : Environment} {es : List Expr} {vs : List Value}
    (h : Expr.evalAll env es = .ok vs)
    (hcovers : ∀ e ∈ es, ∀ v, e.eval env = .ok v → e.kind.Covers v.kind) :
    Refines (es.map Expr.kind) (vs.map Value.kind) := by
  induction es generalizing vs with
  | nil =>
    obtain rfl := Except.ok.inj h
    exact refines_nil
  | cons e es ih =>
    obtain ⟨v, vs, he, hes, rfl⟩ := Expr.evalAll_cons_ok_iff.mp h
    obtain ⟨hfirst, hothers⟩ := List.forall_mem_cons.mp hcovers
    exact refines_cons (hfirst v he) (ih hes hothers)

/-- In a run a call is resolved to the kind that is known of it. -/
private theorem checkArguments_of_refines {f : Function} (hf : f.HasLibraryRule)
    {kinds : List StaticKind} {vs : List Value} (h : Refines kinds (vs.map Value.kind)) {k : Kind}
    (hk : f.checkArguments kinds = .ok (.known k)) {resolved : StaticKind}
    (hrun : f.checkArguments (vs.map fun v => .known v.kind) = .ok resolved) :
    resolved = .known k := by
  rw [(Function.checkArguments_ok_iff.mp hrun).2]
  have hresolve := Function.resolve_of_refines hf h (Function.checkArguments_ok_iff.mp hk).2.symm
  rw [List.map_map] at hresolve
  exact hresolve

section

variable {scope : Scope} {env : Environment}

/-- The value of an expression within a scope has the kind that is known, where defaults have the
kinds of their variables and the functions are those of the scope. -/
theorem kind_of_eval (hfunctions : env.functions = scope.functions)
    (hrules : ∀ name f, scope.functions.lookup? name = some f → f.HasLibraryRule)
    (hdefaults : ∀ name v, env.default? name = some v → scope.types.get? name = some v.kind)
    {a : Phrase} {e : Expr} (h : Typed scope a e) {v : Value} (hv : e.eval env = .ok v) :
    e.kind.Covers v.kind := by
  induction h generalizing v with
  | number offset x =>
    rintro k ⟨⟩
    obtain rfl := Except.ok.inj hv
    rfl
  | string offset s =>
    rintro k ⟨⟩
    obtain rfl := Except.ok.inj hv
    rfl
  | boolean offset b =>
    rintro k ⟨⟩
    obtain rfl := Except.ok.inj hv
    rfl
  | @reference name kind text default offset hkind hdefault =>
    rintro k ⟨⟩
    rw [Expr.eval, located_eq_ok_iff, loadVariable] at hv
    -- a bound value is checked against the kind of the reference, a default is not
    split at hv
    · exact kind_of_bindValue hv
    · split at hv
      · rename_i w hw
        obtain rfl := Except.ok.inj hv
        exact Option.some.inj ((hdefaults name w hw).symm.trans hkind)
      · cases hv
  | parens h ih => exact ih hv
  | @call name args es f kind offset hlen h hf hkind ih =>
    rintro k hk
    obtain rfl : kind = .known k := hk
    obtain ⟨vs, hvs, happly⟩ := Expr.eval_call_ok_iff.mp hv
    -- the tree has the name in upper case, which finds the same function
    rw [applyCall, hfunctions, Registry.lookup?_upper, hf] at happly
    have hrefines : Refines (es.map Expr.kind) (vs.map Value.kind) := by
      refine refines_of_evalAll hvs fun e he w hw => ?_
      obtain ⟨a, hq⟩ := exists_mem_zip hlen he
      exact ih (a, e) hq hw
    -- a run only goes on when the arguments match, and then to the kind that is known
    cases hrun : f.checkArguments (vs.map fun v => .known v.kind) with
    | error m => simp [applyFunction, hrun] at happly
    | ok resolved =>
      rw [checkArguments_of_refines (hrules name f hf) hrefines hkind hrun] at hrun
      exact kind_of_applyFunction happly hrun
  | sign offset h hkind ih =>
    rintro k ⟨⟩
    obtain ⟨u, -, happly⟩ := Expr.eval_unary_ok_iff.mp hv
    exact kind_of_applyUnary happly
  | binary offset hleft hright htakes htakes' ihleft ihright =>
    rintro k ⟨⟩
    obtain ⟨u, w, -, -, happly⟩ := Expr.eval_binary_ok_iff.mp hv
    exact kind_of_applyBinary happly

/-- A body that gives a value of another kind than is known of the call is an error. -/
private theorem eval_call_of_ne_kind (hfunctions : env.functions = scope.functions)
    (hrules : ∀ name f, scope.functions.lookup? name = some f → f.HasLibraryRule)
    (hdefaults : ∀ name v, env.default? name = some v → scope.types.get? name = some v.kind)
    {a : Phrase} {offset : Nat} {name : String} {k : Kind} {args : List Expr}
    (h : Typed scope a (.call offset name (.known k) args)) {f : Function} {vs : List Value}
    {resolved : StaticKind} {v : Value} (hf : scope.functions.lookup? name = some f)
    (hvs : Expr.evalAll env args = .ok vs)
    (hmatch : f.checkArguments (vs.map fun v => .known v.kind) = .ok resolved)
    (hbody : f.body vs = .ok v) (hne : v.kind ≠ k) :
    (Expr.call offset name (.known k) args).eval env =
      .error (.atOffset offset (.inconsistent name k v.kind)) := by
  generalize he : Expr.call offset name (.known k) args = e at h
  -- only calls, and calls in parentheses, are within the scope as a call
  induction h with
  | parens h ih => exact ih he
  | @call written phrases es g kind offset' hlen htyped hg hkind ih =>
    obtain ⟨rfl, rfl, rfl, rfl⟩ := Expr.call.inj he
    rw [Registry.lookup?_upper] at hf
    obtain rfl := Option.some.inj (hg.symm.trans hf)
    have hrefines : Refines (args.map Expr.kind) (vs.map Value.kind) := by
      refine refines_of_evalAll hvs fun e he w hw => ?_
      obtain ⟨a, hq⟩ := exists_mem_zip hlen he
      exact kind_of_eval hfunctions hrules hdefaults (htyped (a, e) hq) hw
    obtain rfl := checkArguments_of_refines (hrules written g hg) hrefines hkind hmatch
    have happly : applyCall env.functions (Text.upper written) vs =
        .error (.inconsistent (Text.upper written) k v.kind) := by
      rw [applyCall, hfunctions, Registry.lookup?_upper, hg]
      simp only [applyFunction, hmatch, hbody, if_neg hne]
    rw [Expr.eval]
    simp only [hvs, happly]
    rfl
  | _ => cases he

end

/-! ### Runs of formulas -/

/-- The value of a formula in a run with the functions that it was compiled with has the kind that
is known of it. The same is true of every node of its tree, and where the body of a function gives
a value of another kind than is known of the call, the call is an error. Functions may declare any
kind and have any body. -/
theorem Formula.kind_of_run {scope : Scope} {text : String} {f : Formula}
    (hrules : ∀ name g, scope.functions.lookup? name = some g → g.HasLibraryRule)
    (hcompile : Formula.compile scope text = .ok f) (binding : Binding) :
    (∀ k v, f.resultKind = .known k → f.run scope.functions binding = .ok v → v.kind = k) ∧
      ∃ e, parseFormula scope text = .ok e ∧
        let env : Environment := ⟨scope.functions, e.default?, binding⟩
        (∀ n ∈ e.nodes, ∀ k v, n.kind = .known k → n.eval env = .ok v → v.kind = k) ∧
        ∀ offset name k args, Expr.call offset name (.known k) args ∈ e.nodes →
          ∀ g vs resolved v, scope.functions.lookup? name = some g →
            Expr.evalAll env args = .ok vs →
            g.checkArguments (vs.map fun v => .known v.kind) = .ok resolved →
            g.body vs = .ok v → v.kind ≠ k →
            (Expr.call offset name (.known k) args).eval env =
              .error (.atOffset offset (.inconsistent name k v.kind)) := by
  obtain ⟨e, hparse, hof⟩ := compile_ok_iff.mp hcompile
  obtain ⟨-, a, -, hty, -⟩ := exists_phrase_of_parseFormula hparse
  -- defaults are those of the whole tree, also where a node is evaluated by itself
  have hdefaults : ∀ name v, e.default? name = some v → scope.types.get? name = some v.kind :=
    fun _ _ hv => hty.kind_of_default? hv
  refine ⟨fun k v hk hv => ?_, e, hparse, fun n hn k v hk hv => ?_,
    fun offset name k args hn g vs resolved v hg hvs hmatch hbody hne => ?_⟩
  · rw [run_of_ofExpr hof, Expr.value] at hv
    have hkind : f.resultKind = e.kind := by
      obtain ⟨vs, -, rfl⟩ := ofExpr_ok_iff.mp hof
      rfl
    exact kind_of_eval rfl hrules hdefaults hty hv k (hkind ▸ hk)
  · obtain ⟨b, hb⟩ := hty.exists_of_mem_nodes hn
    exact kind_of_eval rfl hrules hdefaults hb hv k hk
  · obtain ⟨b, hb⟩ := hty.exists_of_mem_nodes hn
    exact eval_call_of_ne_kind rfl hrules hdefaults hb hg hvs hmatch hbody hne

/-- A function that declares a truth value and gives its argument is called as a condition, and a
choice between numbers takes a variable that is bound to a whole number. -/
theorem Formula.kind_of_run_of_misdeclared :
    let same : Function := ⟨"SAME", "", [.one "value" .any], .known .boolean, none,
      fun args => .ok (args.headD (.boolean true))⟩
    let scope : Scope := ⟨Dict.ofList [("x", .float)],
      Registry.empty.registerAll (same :: Library.conditionFunctions)⟩
    let binding := Binding.empty.set "x" (.integer 2)
    (∀ name g, scope.functions.lookup? name = some g → g.HasLibraryRule) ∧
      ∃ f v, Formula.compile scope "=IF(SAME(TRUE), $x, 1)" = .ok f ∧
        f.resultKind = .known .float ∧ f.run scope.functions binding = .ok v ∧
        v.kind = .float := by
  intro same scope binding
  have hrules : ∀ name g, scope.functions.lookup? name = some g → g.HasLibraryRule := by
    intro name g hg
    rcases Registry.lookup?_registerAll hg with hmem | hempty
    · rcases List.mem_cons.mp hmem with rfl | hmem
      · simp [Function.HasLibraryRule, same]
      · exact Library.hasLibraryRule_of_mem (by simp [Library.functions, hmem])
    · cases hempty
  have hvalue : ((Formula.compile scope "=IF(SAME(TRUE), $x, 1)").toOption.map fun f =>
      (f.resultKind, (f.run scope.functions binding).isOk)) = some (.known .float, true) := by
    decide +kernel
  cases hcompile : Formula.compile scope "=IF(SAME(TRUE), $x, 1)" with
  | error err => simp [hcompile, Except.toOption] at hvalue
  | ok f =>
    obtain ⟨hkind, hok⟩ : f.resultKind = .known .float ∧
        (f.run scope.functions binding).isOk = true := by
      simpa [hcompile, Except.toOption] using hvalue
    cases hrun : f.run scope.functions binding with
    | error err => simp [hrun, Except.isOk, Except.toBool] at hok
    | ok v =>
      have hsound := (Formula.kind_of_run hrules hcompile binding).1
      exact ⟨hrules, f, v, rfl, hkind, hrun, hsound .float v hkind hrun⟩

end TypedFormula
