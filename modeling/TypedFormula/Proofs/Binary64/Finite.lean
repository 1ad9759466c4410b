import TypedFormula.Binary64.Logarithm
import TypedFormula.Binary64.Order
import TypedFormula.Binary64.Power
import TypedFormula.Proofs.Binary64.Rounding

/-!
# Finite binary64 numbers

Which operations give finite numbers when they are given finite ones. A change of the sign, rounding
to an integer and selection always do, and so does the square root, since it halves the exponent. A
quotient does as long as the dividend is not too large for the divisor (`isFinite_div`), which
covers division by two, by powers of ten and of logarithms by each other.

Two of these are closer than they look. Division by one rounds a number that may have the largest
exponent of all, and stays finite only because no digit is lost (`isFinite_div_one`). And a power of
ten may be infinite, so that its size is not bounded from above at all; what a quotient needs is a
bound from below, which every product on the way keeps (`reaches_power`).

Main statements:

* `isFinite_iff_fits`, `below_of_isFinite` — finite numbers are those below `2 ^ 1024`;
* `isFinite_neg`, `isFinite_abs`, `isFinite_ofInt`, `isFinite_sqrt`, `isFinite_integral`,
  `isFinite_larger`, `isFinite_smaller` — operations without overflow;
* `isFinite_div`, `isFinite_div_one` — quotients without overflow;
* `reaches_power`, `bounds_of_hasSizeOfLogarithm` — the sizes of powers of ten and of logarithms.
-/

namespace TypedFormula.Binary64

open Float.Model Float.Model.UnpackedFloat

variable {x y : Float}

/-! ### Operations without overflow -/

/-- A number is finite if it fits, unpacked. -/
theorem isFinite_iff_fits : x.isFinite = true ↔ Fits x.toModel.unpack := by
  rw [Float.isFinite, Float.Model.isFinite]
  cases h : x.toModel.unpack with
  | finite s m e hm => exact iff_of_true rfl (bounds_of_unpack h).2.2.1
  | zero s => exact iff_of_true rfl trivial
  | _ => exact iff_of_false nofun id

theorem isNaN_of_isFinite (h : x.isFinite = true) : x.isNaN = false := by
  rw [isFinite_iff_fits] at h
  rw [Float.isNaN, Float.Model.isNaN]
  cases hx : x.toModel.unpack with
  | notANumber => rw [hx] at h; exact h.elim
  | _ => rfl

theorem isFinite_of_below {k : Int} (h : Below k x.toModel.unpack) : x.isFinite = true := by
  rw [Float.isFinite, Float.Model.isFinite]
  cases hx : x.toModel.unpack with
  | zero s => rfl
  | finite s m e hm => rfl
  | _ => rw [hx] at h; exact h.elim

/-- Finite numbers are those below `2 ^ 1024`. -/
theorem below_of_isFinite (h : x.isFinite = true) : Below 1024 x.toModel.unpack := by
  rw [isFinite_iff_fits] at h
  cases hx : x.toModel.unpack with
  | finite s m e hm =>
    obtain ⟨hm, -, he, -⟩ := bounds_of_unpack hx
    have hlog : m.log2 ≤ 52 := log2_le_of_lt hm
    simp only [Below, totalExponent]
    omega
  | zero s => trivial
  | _ => rw [hx] at h; exact h

theorem lt_iff : x < y ↔ x.toModel.unpack.compare y.toModel.unpack = some .lt := by
  change decide (x.toModel.unpack.lt y.toModel.unpack = true) = true ↔ _
  simp [UnpackedFloat.lt]

private theorem unpack_zero : (0 : Float).toModel.unpack = .zero .positive := by
  rfl

/-- A number with the other sign is as finite. -/
theorem isFinite_neg (h : x.isFinite = true) : (-x).isFinite = true := by
  rw [isFinite_iff_fits] at h
  refine isFinite_ofModel_pack.mpr ?_
  cases hx : x.toModel.unpack with
  | _ => rw [hx] at h; exact h

/-- The magnitude of a finite number is finite. -/
theorem isFinite_abs (h : x.isFinite = true) : x.abs.isFinite = true := by
  rw [isFinite_iff_fits] at h
  refine isFinite_ofModel_pack.mpr ?_
  cases hx : x.toModel.unpack with
  | _ => rw [hx] at h; exact h

/-- An integer of 64 bits is a finite number. -/
theorem isFinite_ofInt {n : Int} (h : n.natAbs < 2 ^ 64) : (ofInt n).isFinite = true := by
  refine isFinite_ofModel_pack.mpr ?_
  rw [UnpackedFloat.ofInt, UnpackedFloat.normalize]
  split
  · refine fits_round ?_
    have hlog : (-n).toNat.log2 ≤ 63 := log2_le_of_lt (by omega)
    rw [totalExponent]
    omega
  · trivial
  · refine fits_round ?_
    have hlog : n.toNat.log2 ≤ 63 := log2_le_of_lt (by omega)
    rw [totalExponent]
    omega

/-- The magnitude of a finite number rounded to an integer, where it has a fraction. -/
private theorem magnitude_lt {direction : Rounding} {negative : Bool} {m k : Nat}
    (hm : m < 2 ^ 53) :
    direction.magnitude negative m k < 2 ^ 64 := by
  have hle := direction.magnitude_le negative m k
  have hdiv := Nat.div_le_self m (Nat.pow 2 k)
  omega

/-- A finite number rounded to an integer is finite. -/
theorem isFinite_integral {direction : Rounding} (h : x.isFinite = true) :
    (integral direction x).isFinite = true := by
  rw [integral]
  cases hux : x.toModel.unpack with
  | finite s m e hm =>
    simp only
    split
    · exact h
    · obtain ⟨hm53, -⟩ := bounds_of_unpack hux
      have hlt : direction.magnitude (s == .negative) m (-e).toNat < 2 ^ 64 := magnitude_lt hm53
      have hfinite : (ofNat (direction.magnitude (s == .negative) m (-e).toNat)).isFinite = true :=
        isFinite_ofInt hlt
      cases s with
      | negative => exact isFinite_neg hfinite
      | positive => exact hfinite
  | _ => exact h

/-- The root of a finite number is far below `2 ^ 1023`. -/
private theorem totalExponent_sqrtCore {m : Nat} {e : Int} (hm : m < 2 ^ 53) (he : e ≤ 971) :
    totalExponent (sqrtCore .binary64 m e).1 (sqrtCore .binary64 m e).2.1 ≤ 1023 ∧
      (sqrtCore .binary64 m e).2.1 ≤ 971 := by
  have hlog : m.log2 ≤ 52 := log2_le_of_lt hm
  simp only [sqrtCore, targetExponent_eq]
  generalize hl : min (e.ediv 2) (max ((totalExponent m e + 1).ediv 2 - 53) (-1074)) = l
  have hshift := log2_shiftLeft_le m (e - 2 * l).toNat
  have hsqrt := log2_sqrt_le (m <<< (e - 2 * l).toNat)
  have hdiv : e.ediv 2 = e / 2 := rfl
  have hdiv' : (totalExponent m e + 1).ediv 2 = (totalExponent m e + 1) / 2 := rfl
  rw [hdiv, hdiv', totalExponent] at hl
  rw [totalExponent]
  omega

/-- The square root of a number that is not negative is finite. -/
theorem isFinite_sqrt (h : x.isFinite = true) (hx : ¬ x < 0) : x.sqrt.isFinite = true := by
  rw [isFinite_iff_fits] at h
  refine isFinite_ofModel_pack.mpr ?_
  cases hux : x.toModel.unpack with
  | zero s => trivial
  | finite s m e hm =>
    cases s with
    | negative =>
      rw [lt_iff, hux, unpack_zero] at hx
      exact absurd rfl hx
    | positive =>
      obtain ⟨hm53, -, he, -⟩ := bounds_of_unpack hux
      obtain ⟨htotal, hexp⟩ := totalExponent_sqrtCore hm53 he
      exact fits_roundWithAccuracy htotal hexp
  | _ => rw [hux] at h; exact h.elim

/-- The larger of two finite numbers is finite. -/
theorem isFinite_larger (hx : x.isFinite = true) (hy : y.isFinite = true) :
    (larger x y).isFinite = true := by
  rw [larger]
  repeat' split
  all_goals assumption

/-- The smaller of two finite numbers is finite. -/
theorem isFinite_smaller (hx : x.isFinite = true) (hy : y.isFinite = true) :
    (smaller x y).isFinite = true := by
  rw [smaller]
  repeat' split
  all_goals assumption

/-! ### Extremes -/

private theorem isNaN_of_infinity {s : Sign} (h : x.toModel.unpack = .infinity s) :
    x.isNaN = false := by
  rw [Float.isNaN, Float.Model.isNaN, h]
  rfl

/-- Every finite number is larger than minus infinity. -/
theorem larger_infinity (h : x.isFinite = true) : larger (-1 / 0) x = x := by
  have hinf : (-1 / 0 : Float).toModel.unpack = .infinity .negative := by
    rfl
  have hlt : (-1 / 0 : Float) < x := by
    rw [lt_iff, hinf]
    rw [isFinite_iff_fits] at h
    cases hx : x.toModel.unpack with
    | finite s m e hm => rfl
    | zero s => rfl
    | _ => rw [hx] at h; exact h.elim
  rw [larger, isNaN_of_isFinite h, isNaN_of_infinity hinf, if_pos hlt]
  rfl

/-- Every finite number is smaller than infinity. -/
theorem smaller_infinity (h : x.isFinite = true) : smaller (1 / 0) x = x := by
  have hinf : (1 / 0 : Float).toModel.unpack = .infinity .positive := by
    rfl
  have hlt : x < (1 / 0 : Float) := by
    rw [lt_iff, hinf]
    rw [isFinite_iff_fits] at h
    cases hx : x.toModel.unpack with
    | finite s m e hm => rfl
    | zero s => rfl
    | _ => rw [hx] at h; exact h.elim
  rw [smaller, isNaN_of_isFinite h, isNaN_of_infinity hinf, if_pos hlt]
  rfl

/-! ### Quotients -/

/-- A quotient is finite if the dividend is not too large for the divisor. -/
theorem isFinite_div {j k : Int} (hx : Below k x.toModel.unpack)
    (hy : Reaches j y.toModel.unpack) (h : k ≤ j + 1022) : (x / y).isFinite = true := by
  refine isFinite_ofModel_pack.mpr ?_
  cases hux : x.toModel.unpack with
  | zero s =>
    cases huy : y.toModel.unpack with
    | finite t m e hm => trivial
    | infinity t => trivial
    | _ => rw [huy] at hy; exact hy.elim
  | finite s m e hm =>
    cases huy : y.toModel.unpack with
    | finite t n f hn =>
      rw [hux] at hx
      rw [huy] at hy
      simp only [UnpackedFloat.div, divCore, targetExponent_eq]
      generalize hl : min (e - f) (max (totalExponent m e - totalExponent n f - 53) (-1074)) = l
      have hdiv := log2_div_le (a := m <<< (e - f - l).toNat) hn
      have hshift := log2_shiftLeft_le m (e - f - l).toNat
      simp only [Below, Reaches, totalExponent] at hx hy hl
      refine fits_roundWithAccuracy ?_ ?_
      · rw [totalExponent]
        omega
      · omega
    | infinity t => trivial
    | _ => rw [huy] at hy; exact hy.elim
  | _ => rw [hux] at hx; exact hx.elim

private theorem unpack_one : (1 : Float).toModel.unpack =
    .finite .positive 4503599627370496 (-52) (by decide) := by
  rfl

/-- A mantissa of full length is divided by one without a remainder. -/
private theorem divCore_one {m : Nat} {e : Int} (hm : m.log2 = 52) (he : -1073 ≤ e) :
    divCore .binary64 m e 4503599627370496 (-52) = (2 * m, e - 1, .exact) := by
  have hlog : Nat.log2 4503599627370496 = 52 := by decide
  have htarget : min (e - -52) (Format.binary64.targetExponent
      (totalExponent m e - totalExponent 4503599627370496 (-52))) = e - 1 := by
    rw [targetExponent_eq, totalExponent, totalExponent, hm, hlog]
    omega
  have hshift : (e - -52 - (e - 1)).toNat = 53 := by omega
  have hmul : m <<< 53 = 4503599627370496 * (2 * m) := by
    rw [Nat.shiftLeft_eq]
    omega
  rw [divCore, htarget, hshift, hmul, Nat.mul_div_cancel_left _ (by decide), Nat.mul_mod_right]
  rfl

/-- Division by one is finite. -/
theorem isFinite_div_one (h : x.isFinite = true) : (x / 1).isFinite = true := by
  by_cases hx : Below 1023 x.toModel.unpack
  · have hone : Reaches 1 (1 : Float).toModel.unpack := by
      rw [unpack_one, Reaches]
      decide
    exact isFinite_div hx hone (by decide)
  · -- the mantissa has full length and the exponent is the largest one
    refine isFinite_ofModel_pack.mpr ?_
    rw [isFinite_iff_fits] at h
    rw [unpack_one]
    cases hux : x.toModel.unpack with
    | finite s m e hm =>
      rw [hux] at hx
      obtain ⟨hm53, -, he, -⟩ := bounds_of_unpack hux
      have hlog : m.log2 ≤ 52 := log2_le_of_lt hm53
      simp only [Below, totalExponent] at hx
      have hfull : m.log2 = 52 := by omega
      simp only [UnpackedFloat.div, divCore_one hfull (by omega : -1073 ≤ e)]
      exact fits_roundWithAccuracy_two_mul hfull (by omega)
    | _ => rw [hux] at hx h; exact absurd h hx

/-- Half of a number is as finite as the number. -/
theorem isFinite_div_two (x : Float) : (x / 2).isFinite = x.isFinite := by
  have htwo : (2 : Float).toModel.unpack =
      .finite .positive 4503599627370496 (-51) (by decide) := by
    rfl
  rw [Bool.eq_iff_iff]
  constructor
  · intro h
    have hfits : Fits (UnpackedFloat.div .binary64 x.toModel.unpack (2 : Float).toModel.unpack) :=
      isFinite_ofModel_pack.mp h
    rw [htwo] at hfits
    rw [isFinite_iff_fits]
    cases hx : x.toModel.unpack with
    | finite s m e hm => exact (bounds_of_unpack hx).2.2.1
    | zero s => trivial
    | _ => rw [hx] at hfits; exact hfits
  · intro h
    have hreaches : Reaches 2 (2 : Float).toModel.unpack := by
      rw [htwo, Reaches]
      decide
    exact isFinite_div (below_of_isFinite h) hreaches (by decide)

/-! ### Powers and logarithms -/

/-- A factor that is not below 1 in magnitude keeps a number above the same power of two. -/
private theorem reaches_mul {j : Int} (hx : Reaches 1 x.toModel.unpack)
    (hy : Reaches j y.toModel.unpack) (hj : 1 ≤ j) : Reaches j (x * y).toModel.unpack := by
  change Reaches j (UnpackedFloat.unpack .binary64 (UnpackedFloat.pack .binary64
    (UnpackedFloat.mul .binary64 x.toModel.unpack y.toModel.unpack)))
  cases hux : x.toModel.unpack with
  | infinity s =>
    cases huy : y.toModel.unpack with
    | infinity t =>
      simp only [UnpackedFloat.mul, UnpackedFloat.pack, unpack_packedInfinity, Reaches]
    | finite t n f hn =>
      simp only [UnpackedFloat.mul, UnpackedFloat.pack, unpack_packedInfinity, Reaches]
    | _ => rw [huy] at hy; exact hy.elim
  | finite s m e hm =>
    cases huy : y.toModel.unpack with
    | infinity t =>
      simp only [UnpackedFloat.mul, UnpackedFloat.pack, unpack_packedInfinity, Reaches]
    | finite t n f hn =>
      rw [hux, Reaches] at hx
      rw [huy, Reaches] at hy
      have hm52 : m.log2 = 52 := log2_of_unpack hux (by omega)
      have hn52 : n.log2 = 52 := log2_of_unpack huy (by omega)
      have hlog : 52 + 52 ≤ (m * n).log2 := by
        rw [Nat.le_log2 (Nat.ne_of_gt (Nat.mul_pos hm hn)), Nat.pow_add]
        exact Nat.mul_le_mul (hm52 ▸ Nat.log2_self_le (Nat.ne_of_gt hm))
          (hn52 ▸ Nat.log2_self_le (Nat.ne_of_gt hn))
      rw [totalExponent] at hx hy
      have htotal : j ≤ totalExponent (m * n) (e + f) := by
        rw [totalExponent]
        omega
      obtain ⟨r, g, hr, hround, hfull, hle⟩ :=
        exists_roundWithAccuracy (s := s * t) (a := .exact) (by omega : 52 ≤ (m * n).log2)
          (Int.le_trans hj htotal)
      simp only [UnpackedFloat.mul, hround]
      exact reaches_pack hfull (by omega) (Int.le_trans htotal hle)
    | _ => rw [huy] at hy; exact hy.elim
  | _ => rw [hux] at hx; exact hx.elim

/-- A power of a number from 8 on is from 8 on: the loop keeps this of the base, and of the product
as soon as a factor was taken. -/
private theorem reaches_powerLoop {base acc : Float} {n : Nat}
    (hbase : Reaches 4 base.toModel.unpack)
    (hacc : Reaches 4 acc.toModel.unpack ∨ Reaches 1 acc.toModel.unpack ∧ n ≠ 0) :
    Reaches 4 (powerLoop base acc n).toModel.unpack := by
  have hone : Reaches 1 acc.toModel.unpack := hacc.elim (Reaches.mono · (by decide)) And.left
  have hsquare := reaches_mul (hbase.mono (by decide)) hbase (by decide)
  have hproduct := reaches_mul hone hbase (by decide)
  rw [powerLoop]
  by_cases hodd : n % 2 = 1
  · simp only [if_pos hodd]
    split
    · exact hproduct
    · exact reaches_powerLoop hsquare (.inl hproduct)
  · simp only [if_neg hodd]
    split
    · exact hacc.elim id fun h => absurd h.2 (by omega)
    · exact reaches_powerLoop hsquare (hacc.imp_right fun h => ⟨h.1, by omega⟩)
termination_by n

theorem power_zero (base : Float) : power base 0 = 1 := by
  rw [power, powerLoop]
  rfl

/-- A power of ten is at least ten. -/
theorem reaches_power {n : Nat} (h : n ≠ 0) : Reaches 4 (power 10 n).toModel.unpack := by
  have hten : (10 : Float).toModel.unpack =
      .finite .positive 5629499534213120 (-49) (by decide) := by
    rfl
  have hbase : Reaches 4 (10 : Float).toModel.unpack := by
    rw [hten, Reaches]
    decide
  have hone : Reaches 1 (1 : Float).toModel.unpack := by
    rw [unpack_one, Reaches]
    decide
  exact reaches_powerLoop hbase (.inr ⟨hone, h⟩)

private theorem bounds_of_isLogarithm (h : isLogarithm y = true) :
    Below 10 y.toModel.unpack ∧ Reaches (-60) y.toModel.unpack := by
  rw [isLogarithm] at h
  cases hy : y.toModel.unpack with
  | finite s m e hm =>
    rw [hy] at h
    obtain ⟨hlow, hhigh⟩ := of_decide_eq_true h
    exact ⟨hhigh, hlow⟩
  | _ => rw [hy] at h; cases h

/-- A number of the size of a logarithm is below `2 ^ 10`, and away from zero unless it is that
of 1. -/
theorem bounds_of_hasSizeOfLogarithm (h : HasSizeOfLogarithm x y) :
    Below 10 y.toModel.unpack ∧ (Float.beq x 1 = false → Reaches (-60) y.toModel.unpack) := by
  unfold HasSizeOfLogarithm at h
  split at h
  · rename_i hone
    rw [h]
    exact ⟨trivial, fun hx => absurd (hone.symm.trans hx) Bool.noConfusion⟩
  · have hbounds := bounds_of_isLogarithm h
    exact ⟨hbounds.1, fun _ => hbounds.2⟩

end TypedFormula.Binary64
