import TypedFormula.Proofs.Finite

/-!
# Equality of single values

Values are compared by the equality of binary64, which is not the equality of numbers as data: NaN
does not equal itself, and `0` equals `-0` although the two are different numbers. Without NaN it is
an equivalence all the same. Two finite numbers are equal exactly when they are the same up to the
sign of zero (`beq_iff`), and everything else that a single value can be is compared as it is.

Main statements: `Value.equals_self`, `Value.equals_symm`, `Value.equals_trans` — equality is an
equivalence on finite single values.
-/

namespace TypedFormula

namespace Binary64

open Float.Model Float.Model.UnpackedFloat

variable {x y : Float}

/-- A number, unpacked, with the sign of zero taken away. -/
def unsignedZero : UnpackedFloat → UnpackedFloat
  | .zero _ => .zero .positive
  | u => u

/-- Finite numbers are equal exactly when they are the same up to the sign of zero. -/
theorem beq_iff (hx : x.isFinite = true) (hy : y.isFinite = true) :
    Float.beq x y = true ↔
      unsignedZero x.toModel.unpack = unsignedZero y.toModel.unpack := by
  rw [isFinite_iff_fits] at hx hy
  change (x.toModel.unpack.compare y.toModel.unpack == some .eq) = true ↔ _
  cases hux : x.toModel.unpack with
  | zero s =>
    cases huy : y.toModel.unpack with
    | zero t => simp [UnpackedFloat.compare, unsignedZero]
    | finite t n f hn => cases t <;> simp [UnpackedFloat.compare, unsignedZero]
    | _ => rw [huy] at hy; exact hy.elim
  | finite s m e hm =>
    cases huy : y.toModel.unpack with
    | zero t => cases s <;> simp [UnpackedFloat.compare, unsignedZero]
    | finite t n f hn =>
      -- of two numbers of one sign, mantissas and exponents decide
      cases s <;> cases t <;>
        simp [UnpackedFloat.compare, unsignedZero, Ordering.swap_eq_eq, and_comm]
    | _ => rw [huy] at hy; exact hy.elim
  | _ => rw [hux] at hx; exact hx.elim

end Binary64

namespace Number

variable {x y z : Number}

/-- A finite number equals itself. -/
theorem equals_self (h : x.isFinite = true) : x.equals x = true := (Binary64.beq_iff h h).mpr rfl

/-- Equality of finite numbers is symmetric. -/
theorem equals_symm (hx : x.isFinite = true) (hy : y.isFinite = true) (h : x.equals y = true) :
    y.equals x = true :=
  (Binary64.beq_iff hy hx).mpr ((Binary64.beq_iff hx hy).mp h).symm

/-- Equality of finite numbers is transitive. -/
theorem equals_trans (hx : x.isFinite = true) (hy : y.isFinite = true) (hz : z.isFinite = true)
    (h : x.equals y = true) (h' : y.equals z = true) : x.equals z = true :=
  (Binary64.beq_iff hx hz).mpr
    (((Binary64.beq_iff hx hy).mp h).trans ((Binary64.beq_iff hy hz).mp h'))

end Number

namespace Value

variable {u v w : Value}

/-- A finite single value equals itself. -/
theorem equals_self (hsingle : v.isList = false) (h : v.isFinite = true) : v.equals v = true := by
  cases v with
  | float x => exact Number.equals_self h
  | list items => cases hsingle
  | _ => exact decide_eq_true rfl

/-- Equality of finite single values is symmetric. -/
theorem equals_symm (hsingle : v.isList = false) (hv : v.isFinite = true)
    (hw : w.isFinite = true) (h : v.equals w = true) : w.equals v = true := by
  cases v with
  | list items => cases hsingle
  | float x =>
    cases w with
    | float y => exact Number.equals_symm hv hw h
    | _ => cases h
  | _ =>
    cases w <;> simp only [equals, decide_eq_true_eq, Bool.false_eq_true] at h ⊢
    exact h.symm

/-- Equality of finite single values is transitive. -/
theorem equals_trans (hsingle : u.isList = false) (hu : u.isFinite = true)
    (hv : v.isFinite = true) (hw : w.isFinite = true) (h : u.equals v = true)
    (h' : v.equals w = true) : u.equals w = true := by
  cases u with
  | list items => cases hsingle
  | float x =>
    cases v with
    | float y =>
      cases w with
      | float z => exact Number.equals_trans hu hv hw h h'
      | _ => cases h'
    | _ => cases h
  | _ =>
    -- everything but numbers is equal only to itself
    cases v <;> simp only [equals, decide_eq_true_eq, Bool.false_eq_true] at h
    exact h ▸ h'

end Value

theorem isList_of_readDefault? {kind : ScalarKind} {text : String} {v : Value}
    (h : readDefault? kind text = some v) : v.isList = false := by
  have hkind := kind_of_readDefault? h
  cases v with
  | list items => cases hkind
  | _ => rfl

end TypedFormula
