import Mathlib
import TypedFormula.Evaluation
import TypedFormula.Proofs.ValueOrder

/-!
# The six comparisons

A comparison asks only how its operands are ordered. On operands that have an order the six of them
therefore agree with one another, whatever the kinds of the operands are (`Agree`); operands without
an order are different, and nothing else holds of them. Lists are refused before they are compared.

Main statement: `comparison_laws` — every comparison of two values, lists and NaN among them.
-/

namespace TypedFormula

variable {v w : Value} {op : Comparison}

/-- A comparison gives the truth value true. -/
def Holds (op : Comparison) (v w : Value) : Prop :=
  applyBinary (.comparison op) v w = .ok (.boolean true)

/-- What is not a list can be compared, by the order. -/
private theorem applyBinary_comparison (hv : v.isList = false) (hw : w.isList = false) :
    applyBinary (.comparison op) v w = .ok (.boolean (op.holds (v.order w))) := by
  unfold applyBinary rejectList
  rw [hv, hw]
  rfl

/-- What is not a list is compared by the order. -/
private theorem holds_iff (hv : v.isList = false) (hw : w.isList = false) :
    Holds op v w ↔ op.holds (v.order w) = true := by
  rw [Holds, applyBinary_comparison hv hw, Except.ok.injEq, Value.boolean.injEq]

private theorem applyBinary_list_left (hv : v.isList = true) :
    applyBinary (.comparison op) v w = .error (.listOperand op.symbol v.kind) := by
  unfold applyBinary rejectList
  rw [hv]
  rfl

private theorem applyBinary_list_right (hv : v.isList = false) (hw : w.isList = true) :
    applyBinary (.comparison op) v w = .error (.listOperand op.symbol w.kind) := by
  unfold applyBinary rejectList
  rw [hv, hw]
  rfl

/-- The comparisons of two values agree with one another, in both directions. -/
structure Agree (v w : Value) : Prop where
  /-- Exactly one of three comparisons holds. -/
  trichotomy : (Holds .less v w ∧ ¬ Holds .equal v w ∧ ¬ Holds .greater v w) ∨
    (¬ Holds .less v w ∧ Holds .equal v w ∧ ¬ Holds .greater v w) ∨
    (¬ Holds .less v w ∧ ¬ Holds .equal v w ∧ Holds .greater v w)
  /-- At most is less or equal. -/
  lessEqual_iff : Holds .lessEqual v w ↔ Holds .less v w ∨ Holds .equal v w
  /-- At least is greater or equal. -/
  greaterEqual_iff : Holds .greaterEqual v w ↔ Holds .greater v w ∨ Holds .equal v w
  /-- Different is not equal. -/
  notEqual_iff : Holds .notEqual v w ↔ ¬ Holds .equal v w
  /-- Less is greater with the operands exchanged. -/
  less_iff : Holds .less v w ↔ Holds .greater w v
  /-- At most is at least with the operands exchanged. -/
  lessEqual_iff_greaterEqual : Holds .lessEqual v w ↔ Holds .greaterEqual w v
  /-- A value equals itself. -/
  equal_self : Holds .equal v v

private theorem agree (hv : v.Comparable) (hw : w.Comparable) : Agree v w := by
  obtain ⟨o, ho, hswap⟩ := Value.exists_order hv hw
  have hvw : ∀ {op}, Holds op v w ↔ op.holds (some o) = true := by
    intro op
    rw [holds_iff hv.1 hw.1, ho]
  have hwv : ∀ {op}, Holds op w v ↔ op.holds (some o.swap) = true := by
    intro op
    rw [holds_iff hw.1 hv.1, hswap]
  have hself : Holds .equal v v := by
    rw [holds_iff hv.1 hv.1, Value.order_self hv]
    rfl
  constructor <;> simp only [hvw, hwv, hself] <;> cases o <;> decide

/-- Two values that are not lists can be compared in all six ways, and the results agree if neither
value is NaN. If a value that is NaN is compared as a number, then the values are different and
nothing else. If one of the values is a list, then all six comparisons refuse the first list. -/
theorem comparison_laws (v w : Value) :
    (v.isList = false ∧ w.isList = false →
      (∀ op, ∃ b, applyBinary (.comparison op) v w = .ok (.boolean b)) ∧
        (v.isNaN = false ∧ w.isNaN = false → Agree v w) ∧
        (v.rankNumber?.isSome = true ∧ w.rankNumber?.isSome = true ∧
            (v.isNaN = true ∨ w.isNaN = true) →
          ∀ op, Holds op v w ↔ op = .notEqual)) ∧
      (v.isList = true → ∀ op : Comparison,
        applyBinary (.comparison op) v w = .error (.listOperand op.symbol v.kind)) ∧
      (v.isList = false ∧ w.isList = true → ∀ op : Comparison,
        applyBinary (.comparison op) v w = .error (.listOperand op.symbol w.kind)) := by
  refine ⟨fun ⟨hv, hw⟩ => ⟨?_, ?_, ?_⟩, fun hv op => applyBinary_list_left hv,
    fun ⟨hv, hw⟩ op => applyBinary_list_right hv hw⟩
  · exact fun op => ⟨_, applyBinary_comparison hv hw⟩
  · rintro ⟨hvnan, hwnan⟩
    exact agree ⟨hv, hvnan⟩ ⟨hw, hwnan⟩
  · rintro ⟨hvrank, hwrank, hnan⟩ op
    rw [holds_iff hv hw, Value.order_of_isNaN hvrank hwrank hnan]
    cases op <;> decide

/-- A whole number with a text, NaN with a truth value, and a list with a number. -/
theorem comparison_laws_of_mixed :
    Agree (.integer 2) (.string "a") ∧
      (∀ op, Holds op (.float .negativeNaN) (.boolean true) ↔ op = .notEqual) ∧
      (∀ op : Comparison, applyBinary (.comparison op) (.list (.integers [])) (.integer 1) =
        .error (.listOperand op.symbol (.list .integer))) ∧
      ∀ op : Comparison, applyBinary (.comparison op) (.integer 1) (.list (.integers [])) =
        .error (.listOperand op.symbol (.list .integer)) := by
  obtain ⟨-, hagree, -⟩ := (comparison_laws (.integer 2) (.string "a")).1 ⟨rfl, rfl⟩
  obtain ⟨-, -, hnan⟩ := (comparison_laws (.float .negativeNaN) (.boolean true)).1 ⟨rfl, rfl⟩
  exact ⟨hagree ⟨rfl, rfl⟩, hnan ⟨rfl, rfl, .inl (by decide +kernel)⟩,
    (comparison_laws (.list (.integers [])) (.integer 1)).2.1 rfl,
    (comparison_laws (.integer 1) (.list (.integers []))).2.2 ⟨rfl, rfl⟩⟩

end TypedFormula
