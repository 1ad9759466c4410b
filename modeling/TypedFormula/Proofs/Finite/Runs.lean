import TypedFormula.Proofs.Finite
import TypedFormula.Proofs.SourceOrder

/-!
# Which runs leave the range of finite numbers

A formula without infinities has no way to get one from an operator: every sum, product, quotient
and power is tested, and signs change no magnitude. Literals and defaults are tested when they are
read. So a value that is not finite comes from a call, and if all of the values before it are finite
it comes from one that overflows (`Expr.overflows`). What is then made of it is not limited to such
values again, since an infinity may be compared, counted or divided by; a run can have a finite
value and yet an overflow on the way.

The statements are therefore on every node of a tree, and not on the result alone. A node has a
value that is not finite only if a node in it overflows, and a node that overflows has one
(`Formula.isFinite_of_run`). All nodes of a run that succeeds have values, so nothing is left out.

Main statements:

* `Expr.isFinite_or_overflows` — a value is finite unless a node overflows on the way to it;
* `Formula.isFinite_of_run` — where the runs of a formula leave the range.
-/

namespace TypedFormula

/-! ### Loads and operators -/

section

variable {name : String} {kind : Kind} {v w : Value}

/-- A finite value is bound as a finite value. -/
private theorem isFinite_of_bindValue (hv : v.isFinite = true) (h : bindValue name kind v = .ok w) :
    w.isFinite = true := by
  unfold bindValue at h
  split at h
  · obtain rfl := Except.ok.inj h
    exact hv
  · split at h
    · obtain rfl := Except.ok.inj h
      exact isFinite_ofInt_toInt _
    · obtain rfl := Except.ok.inj h
      exact (Value.isFinite_floats _).mpr
        (List.forall_mem_map.mpr fun n _ => isFinite_ofInt_toInt n)
    · cases h

/-- A variable has a finite value if the bound values and the defaults are finite. -/
private theorem isFinite_of_loadVariable {binding : Binding} {default? : String → Option Value}
    (hbinding : ∀ name v, binding.get? name = some v → v.isFinite = true)
    (hdefaults : ∀ name v, default? name = some v → v.isFinite = true)
    (h : loadVariable binding default? name kind = .ok v) : v.isFinite = true := by
  rw [loadVariable] at h
  split at h
  · rename_i u hu
    exact isFinite_of_bindValue (hbinding name u hu) h
  · split at h
    · rename_i u hu
      obtain rfl := Except.ok.inj h
      exact hdefaults name u hu
    · cases h

/-- A sign before a finite number gives a finite number. -/
private theorem isFinite_of_applyUnary {op : UnaryOperator} (hv : v.isFinite = true)
    (h : applyUnary op v = .ok w) : w.isFinite = true := by
  simp only [applyUnary, bind, Except.bind] at h
  split at h
  · cases h
  · split at h
    · cases h
    · rename_i x hx
      have hfinite : x.isFinite = true := Value.isFinite_of_toNumber hv (mapError_eq_ok_iff.mp hx)
      cases op with
      | plus =>
        obtain rfl := Except.ok.inj h
        exact hfinite
      | negate =>
        obtain rfl := Except.ok.inj h
        exact Number.isFinite_negate hfinite

/-- Arithmetic has finite results, whatever its operands are. -/
private theorem isFinite_of_applyArithmetic {op : Arithmetic} {u : Value}
    (h : applyArithmetic op u v = .ok w) : w.isFinite = true := by
  simp only [applyArithmetic, bind, Except.bind] at h
  split at h
  · cases h
  · split at h
    · cases h
    · split at h
      · cases h
      · split at h
        · rename_i hfinite
          obtain rfl := Except.ok.inj h
          exact hfinite
        · cases h

/-- An operator has finite results, whatever its operands are. -/
private theorem isFinite_of_applyBinary {op : BinaryOperator} {u : Value}
    (h : applyBinary op u v = .ok w) : w.isFinite = true := by
  have hkind := kind_of_applyBinary h
  cases op with
  | arithmetic op =>
    simp only [applyBinary, bind, Except.bind] at h
    split at h
    · cases h
    · split at h
      · cases h
      · exact isFinite_of_applyArithmetic h
  | concat =>
    obtain ⟨s, rfl⟩ : ∃ s, w = .string s := by
      cases w <;> first | exact ⟨_, rfl⟩ | cases hkind
    rfl
  | comparison op =>
    obtain ⟨b, rfl⟩ : ∃ b, w = .boolean b := by
      cases w <;> first | exact ⟨_, rfl⟩ | cases hkind
    rfl

/-- The value of a call is a result of its function. -/
private theorem exists_body_of_applyCall {functions : Registry} {args : List Value}
    (h : applyCall functions name args = .ok v) :
    ∃ f, functions.lookup? name = some f ∧ f.body args = .ok v := by
  rw [applyCall] at h
  split at h
  · cases h
  · rename_i f hf
    refine ⟨f, hf, ?_⟩
    rw [applyFunction] at h
    split at h
    · cases h
    · split at h
      · cases h
      · rename_i w hw
        split at h
        · rwa [← Except.ok.inj h]
        · split at h
          · rwa [← Except.ok.inj h]
          · cases h

end

/-! ### Nodes -/

namespace Expr

private theorem exists_eval_of_evalAll {env : Environment} {es : List Expr} {vs : List Value}
    (h : evalAll env es = .ok vs) : ∀ e ∈ es, ∃ v, e.eval env = .ok v := by
  induction es generalizing vs with
  | nil => exact nofun
  | cons e es ih =>
    obtain ⟨v, vs, he, hes, rfl⟩ := evalAll_cons_ok_iff.mp h
    exact List.forall_mem_cons.mpr ⟨⟨v, he⟩, ih hes⟩

private theorem exists_eval_of_mem_nodes {env : Environment} {e : Expr} {v : Value}
    (hv : e.eval env = .ok v) : ∀ n ∈ e.nodes, ∃ w, n.eval env = .ok w := by
  refine forall_mem_nodes ?_ ?_ ?_ ⟨v, hv⟩
  · rintro offset op operand ⟨w, hw⟩
    obtain ⟨u, hu, -⟩ := eval_unary_ok_iff.mp hw
    exact ⟨u, hu⟩
  · rintro offset op left right ⟨w, hw⟩
    obtain ⟨u, t, hu, ht, -⟩ := eval_binary_ok_iff.mp hw
    exact ⟨⟨u, hu⟩, ⟨t, ht⟩⟩
  · rintro offset name kind args ⟨w, hw⟩
    obtain ⟨vs, hvs, -⟩ := eval_call_ok_iff.mp hw
    exact exists_eval_of_evalAll hvs

/-! ### Overflow -/

/-- Whether a node is a call that overflows on finite arguments. -/
def overflows (env : Environment) : Expr → Bool
  | call _ name _ args =>
    match evalAll env args, env.functions.lookup? name with
    | .ok vs, some f => vs.all Value.isFinite && f.overflows vs
    | _, _ => false
  | _ => false

/-- Values are finite if each is, and otherwise an overflow in an expression explains it. -/
private theorem isFinite_or_overflows_of_evalAll {env : Environment} {es : List Expr}
    {vs : List Value}
    (h : evalAll env es = .ok vs)
    (hes : ∀ e ∈ es, ∀ v, e.eval env = .ok v →
      v.isFinite = true ∨ ∃ m ∈ e.nodes, m.overflows env = true) :
    (∀ v ∈ vs, v.isFinite = true) ∨ ∃ m ∈ allNodes es, m.overflows env = true := by
  induction es generalizing vs with
  | nil =>
    obtain rfl := Except.ok.inj h
    exact .inl nofun
  | cons e es ih =>
    obtain ⟨v, vs, he, hvs, rfl⟩ := evalAll_cons_ok_iff.mp h
    obtain ⟨hfirst, hothers⟩ := List.forall_mem_cons.mp hes
    rcases hfirst v he with hv | ⟨m, hm, hoverflows⟩
    · rcases ih hvs hothers with hall | ⟨m, hm, hoverflows⟩
      · exact .inl (List.forall_mem_cons.mpr ⟨hv, hall⟩)
      · exact .inr ⟨m, List.mem_append_right _ hm, hoverflows⟩
    · exact .inr ⟨m, List.mem_append_left _ hm, hoverflows⟩

section

variable {env : Environment}
  (hbounded : ∀ name f, env.functions.lookup? name = some f → f.Bounded)

include hbounded

/-- A call that overflows has a value that is not finite. -/
private theorem isFinite_of_overflows {n : Expr} (h : n.overflows env = true) {w : Value}
    (hw : n.eval env = .ok w) : w.isFinite = false := by
  cases n with
  | call offset name kind args =>
    obtain ⟨vs, hvs, happly⟩ := eval_call_ok_iff.mp hw
    obtain ⟨f, hf, hbody⟩ := exists_body_of_applyCall happly
    rw [overflows, hvs, hf] at h
    obtain ⟨hfinite, hoverflows⟩ := Bool.and_eq_true_iff.mp h
    rw [hbounded name f hf vs (List.all_eq_true.mp hfinite) w hbody, hoverflows]
    rfl
  | _ => cases h

/-- With finite literals, defaults and bound values, a value is finite unless a node overflows on
the way to it. -/
theorem isFinite_or_overflows
    (hbinding : ∀ name v, env.binding.get? name = some v → v.isFinite = true)
    (hdefaults : ∀ name v, env.default? name = some v → v.isFinite = true) {e : Expr}
    (hnumbers : ∀ offset x, number offset x ∈ e.nodes → x.isFinite = true) {v : Value}
    (hv : e.eval env = .ok v) :
    v.isFinite = true ∨ ∃ m ∈ e.nodes, m.overflows env = true := by
  induction e using Expr.induction generalizing v with
  | number offset x =>
    obtain rfl := Except.ok.inj hv
    exact .inl (hnumbers offset x (List.mem_singleton.mpr rfl))
  | string offset s =>
    obtain rfl := Except.ok.inj hv
    exact .inl rfl
  | boolean offset b =>
    obtain rfl := Except.ok.inj hv
    exact .inl rfl
  | reference offset name kind default =>
    exact .inl (isFinite_of_loadVariable hbinding hdefaults (located_eq_ok_iff.mp hv))
  | unary offset op operand ih =>
    obtain ⟨u, hu, happly⟩ := eval_unary_ok_iff.mp hv
    rcases ih (fun offset x hx => hnumbers offset x (List.mem_cons_of_mem _ hx)) hu with
      hfinite | ⟨m, hm, hoverflows⟩
    · exact .inl (isFinite_of_applyUnary hfinite happly)
    · exact .inr ⟨m, List.mem_cons_of_mem _ hm, hoverflows⟩
  | binary offset op left right =>
    obtain ⟨u, w, -, -, happly⟩ := eval_binary_ok_iff.mp hv
    exact .inl (isFinite_of_applyBinary happly)
  | call offset name kind args ih =>
    obtain ⟨vs, hvs, happly⟩ := eval_call_ok_iff.mp hv
    have hargs : ∀ a ∈ args, ∀ w, a.eval env = .ok w →
        w.isFinite = true ∨ ∃ m ∈ a.nodes, m.overflows env = true := fun a ha w hw =>
      ih a ha (fun offset x hx => hnumbers offset x
        (List.mem_cons_of_mem _ (mem_allNodes.mpr ⟨a, ha, hx⟩))) hw
    rcases isFinite_or_overflows_of_evalAll hvs hargs with hfinite | ⟨m, hm, hoverflows⟩
    · obtain ⟨f, hf, hbody⟩ := exists_body_of_applyCall happly
      have hresult := hbounded name f hf vs hfinite v hbody
      cases hoverflows : f.overflows vs with
      | false => exact .inl (by rw [hresult, hoverflows]; rfl)
      | true =>
        -- the arguments are finite, so it is this call that overflows
        refine .inr ⟨_, List.mem_cons_self, ?_⟩
        rw [overflows, hvs, hf]
        exact Bool.and_eq_true_iff.mpr ⟨List.all_eq_true.mpr hfinite, hoverflows⟩
    · exact .inr ⟨m, List.mem_cons_of_mem _ hm, hoverflows⟩

end

end Expr

/-! ### Literals and defaults -/

/-- Whether a token is no infinite number. -/
private def Token.IsFinite : Token → Prop
  | number x => x.isFinite = true
  | _ => True

/-- A reference that is scanned is no number. -/
private theorem isFinite_of_scanVariable {start : Nat} {rest : List Char} {s : Scanned Token}
    (h : scanVariable start rest = .ok s) : s.value.IsFinite := by
  unfold scanVariable at h
  split at h
  · cases hr : scanReference start (start + 2) rest.tail with
    | error e => simp [hr] at h
    | ok r =>
      simp only [hr] at h
      split at h
      · cases h
      · obtain rfl := Except.ok.inj h
        trivial
  · simp only at h
    split at h
    · cases h
    · obtain rfl := Except.ok.inj h
      trivial

/-- A number that is scanned is finite. -/
private theorem isFinite_of_scanNumber {start : Nat} {chars : List Char} {s : Scanned Token}
    (h : scanNumber start chars = .ok s) : s.value.IsFinite := by
  unfold scanNumber at h
  simp only at h
  split at h
  · rename_i x hx
    obtain rfl := Except.ok.inj h
    split at hx
    · exact isFinite_of_readFinite? hx
    · cases hx
  · cases h

/-- A token that is scanned is finite. -/
private theorem isFinite_of_scan {start : Nat} {c : Char} {rest : List Char} {s : Scanned Token}
    (h : scan start c rest = .ok s) : s.value.IsFinite := by
  unfold scan at h
  split at h
  · obtain rfl := Except.ok.inj h
    trivial
  · split at h
    · obtain rfl := Except.ok.inj h
      unfold scanAngle
      repeat' split
      all_goals trivial
    · split at h
      · obtain ⟨t, -, rfl⟩ := ok_map_iff.mp h
        trivial
      · split at h
        · exact isFinite_of_scanVariable h
        · split at h
          · exact isFinite_of_scanNumber h
          · split at h
            · obtain rfl := Except.ok.inj h
              simp only [scanIdentifier, identifierToken]
              split <;> trivial
            · cases h

private theorem isFinite_of_mem_tokenize (offset : Nat) (chars : List Char) :
    ∀ t ∈ (tokenize offset chars).tokens, t.token.IsFinite := by
  intro t ht
  obtain ⟨c, rest, s, hscan, hvalue⟩ := exists_scan_of_mem_tokenize offset chars t ht
  exact hvalue ▸ isFinite_of_scan hscan

/-- The numbers of a tree that is read from a text are finite. -/
theorem isFinite_of_parseFormula {scope : Scope} {text : String} {e : Expr}
    (h : parseFormula scope text = .ok e) {offset : Nat} {x : Float}
    (hn : .number offset x ∈ e.nodes) : x.isFinite = true := by
  obtain ⟨start, rest, tokens, stop, a, -, htokens, hder, hty, -⟩ := parseFormula_ok_iff.mp h
  have hfinite := isFinite_of_mem_tokenize (start + 1) rest
  rw [htokens] at hfinite
  obtain ⟨t, ht, hmade⟩ := hder.exists_token hty hn
  cases hmade
  exact hfinite _ ht

/-- A default that is read is finite. -/
theorem isFinite_of_readDefault? {kind : ScalarKind} {text : String} {v : Value}
    (h : readDefault? kind text = some v) : v.isFinite = true := by
  cases kind with
  | float =>
    simp only [readDefault?, Option.map_eq_some_iff] at h
    obtain ⟨x, hx, rfl⟩ := h
    exact isFinite_of_readFinite? hx
  | integer =>
    simp only [readDefault?, Option.map_eq_some_iff] at h
    obtain ⟨n, -, rfl⟩ := h
    rfl
  | string =>
    obtain rfl := Option.some.inj h
    rfl
  | boolean =>
    simp only [readDefault?, Option.map_eq_some_iff] at h
    obtain ⟨b, -, rfl⟩ := h
    rfl

/-- The defaults of a tree that is read from a text are finite. -/
private theorem isFinite_of_default? {scope : Scope} {text : String} {e : Expr}
    (h : parseFormula scope text = .ok e) {name : String} {v : Value}
    (hv : e.default? name = some v) : v.isFinite = true := by
  obtain ⟨-, a, -, hty, -⟩ := exists_phrase_of_parseFormula h
  obtain ⟨o, ho, -, hdefault⟩ := Expr.exists_occurrence_of_firstDefault? hv
  obtain ⟨kind, written, -, hread⟩ := hty.exists_readDefault? ho hdefault
  exact isFinite_of_readDefault? hread

/-! ### Runs -/

private theorem Library.bounded_of_lookup? [Binary64.Logarithms] {name : String} {f : Function}
    (h : Registry.library.lookup? name = some f) : f.Bounded :=
  bounded_of_mem (Registry.mem_functions_of_lookup?_library h)

namespace Formula

/-- A run of a tree with bounded functions on finite values has values at all nodes. A node that
overflows has a value that is not finite, and all other values that are not finite come from such
nodes. -/
private theorem exists_eval_of_bounded {scope : Scope} {text : String} {e : Expr}
    (hparse : parseFormula scope text = .ok e) {functions : Registry}
    (hbounded : ∀ name f, functions.lookup? name = some f → f.Bounded) {binding : Binding}
    (hbinding : ∀ name w, binding.get? name = some w → w.isFinite = true) {v : Value}
    (hvalue : e.eval ⟨functions, e.default?, binding⟩ = .ok v) :
    ∀ n ∈ e.nodes, ∃ w, n.eval ⟨functions, e.default?, binding⟩ = .ok w ∧
      (n.overflows ⟨functions, e.default?, binding⟩ = true → w.isFinite = false) ∧
      (w.isFinite = false →
        ∃ m ∈ n.nodes, m.overflows ⟨functions, e.default?, binding⟩ = true) := by
  intro n hn
  obtain ⟨w, hw⟩ := Expr.exists_eval_of_mem_nodes hvalue n hn
  have hnumbers : ∀ offset x, .number offset x ∈ n.nodes → x.isFinite = true :=
    fun _ _ hx => isFinite_of_parseFormula hparse (Expr.nodes_subset hn hx)
  have hdefaults : ∀ name v, e.default? name = some v → v.isFinite = true :=
    fun _ _ => isFinite_of_default? hparse
  refine ⟨w, hw, fun h => Expr.isFinite_of_overflows hbounded h hw, fun hnot => ?_⟩
  rcases Expr.isFinite_or_overflows hbounded hbinding hdefaults hnumbers hw with hfinite | hover
  · rw [hnot] at hfinite
    cases hfinite
  · exact hover

/-- A run with the library on finite values has values at all nodes. A node that overflows has a
value that is not finite, and all other values that are not finite come from such nodes; so the run
has a finite value unless a node overflows. -/
theorem isFinite_of_run [Binary64.Logarithms] {types : Declarations} {text : String} {f : Formula}
    (hcompile : compile ⟨types, Registry.library⟩ text = .ok f) {binding : Binding}
    (hbinding : ∀ name w, binding.get? name = some w → w.isFinite = true) {v : Value}
    (hrun : f.run Registry.library binding = .ok v) :
    ∃ e, parseFormula ⟨types, Registry.library⟩ text = .ok e ∧
      let env : Environment := ⟨Registry.library, e.default?, binding⟩
      (∀ n ∈ e.nodes, ∃ w, n.eval env = .ok w ∧
        (n.overflows env = true → w.isFinite = false) ∧
        (w.isFinite = false → ∃ m ∈ n.nodes, m.overflows env = true)) ∧
      e.eval env = .ok v ∧
      ((∀ n ∈ e.nodes, n.overflows env = false) → v.isFinite = true) := by
  obtain ⟨e, hparse, hof⟩ := compile_ok_iff.mp hcompile
  rw [run_of_ofExpr hof, Expr.value] at hrun
  have hnodes := exists_eval_of_bounded hparse (fun _ _ => Library.bounded_of_lookup?) hbinding hrun
  refine ⟨e, hparse, hnodes, hrun, fun hnone => ?_⟩
  obtain ⟨w, hw, -, hoverflows⟩ := hnodes e e.mem_nodes_self
  rw [hrun] at hw
  obtain rfl := Except.ok.inj hw
  by_contra hnot
  obtain ⟨m, hm, hover⟩ := hoverflows (Bool.eq_false_iff.mpr hnot)
  rw [hnone m hm] at hover
  cases hover

/-- Rounding a large finite number to the nearest multiple of `10 ^ 308` gives an infinity, and it
is a call in the tree that overflows. -/
theorem isFinite_of_run_of_large :
    let types : Declarations := Dict.ofList [("x", .float)]
    let binding := Binding.empty.set "x" (.float (.plain 1.7e308))
    ∃ f v e, compile ⟨types, Registry.library⟩ "=ROUND($x, -308)" = .ok f ∧
      f.run Registry.library binding = .ok v ∧ v.isFinite = false ∧
      parseFormula ⟨types, Registry.library⟩ "=ROUND($x, -308)" = .ok e ∧
      ∃ m ∈ e.nodes, m.overflows ⟨Registry.library, e.default?, binding⟩ = true := by
  intro types binding
  have hvalue : evaluate ⟨types, Registry.library⟩ "=ROUND($x, -308)" binding =
      .ok (.float (.plain (1 / 0))) := by
    rw [Registry.library_eq]
    decide +kernel
  obtain ⟨f, hcompile, hrun⟩ := evaluate_ok_iff.mp hvalue
  have hbinding : ∀ name w, binding.get? name = some w → w.isFinite = true := by
    intro name w hw
    rw [Binding.get?_set] at hw
    split at hw
    · obtain rfl := Option.some.inj hw
      decide +kernel
    · cases hw
  obtain ⟨e, hparse, hnodes, heval, -⟩ := isFinite_of_run hcompile hbinding hrun
  obtain ⟨w, hw, -, hoverflows⟩ := hnodes e e.mem_nodes_self
  rw [heval] at hw
  obtain rfl := Except.ok.inj hw
  exact ⟨f, _, e, hcompile, hrun, rfl, hparse, hoverflows rfl⟩

/-- A formula without variables has an infinite value: rounding to places left of the point does not
test what it gives. -/
theorem exists_not_finite :
    ∃ f v, compile ⟨Dict.empty, Registry.library⟩ "=ROUND(1.7e308, -308)" = .ok f ∧
      f.run Registry.library Binding.empty = .ok v ∧ v.isFinite = false := by
  have hvalue : evaluate ⟨Dict.empty, Registry.library⟩ "=ROUND(1.7e308, -308)" Binding.empty =
      .ok (.float (.plain (1 / 0))) := by
    rw [Registry.library_eq]
    decide +kernel
  obtain ⟨f, hcompile, hrun⟩ := evaluate_ok_iff.mp hvalue
  exact ⟨f, _, hcompile, hrun, rfl⟩

end Formula

end TypedFormula
