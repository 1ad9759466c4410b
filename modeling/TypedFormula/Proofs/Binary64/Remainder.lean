import Mathlib
import TypedFormula.Library.Numbers
import TypedFormula.Proofs.Binary64.Arithmetic

/-!
# Remainders of rounded divisions

The remainder of two numbers is what is left of the dividend when a product is taken away from it,
the divisor times the quotient rounded down. The quotient, the product and the difference are
rounded. For large quotients the product can be more than the dividend, or too small by more than
the divisor, and then the remainder has the wrong sign or the wrong size.

These are the only ways to go wrong: the last rounding does no harm (`followsDivisor_iff`). It would
be harmful if it brought a difference that is larger than the divisor down to the divisor, but such
a difference is exact, since the product is not less than half of the dividend then. And with few
digits nothing goes wrong at all (`followsDivisor_of_isMultiple`): for two multiples of a power of
two, neither more than 53 digits long, the rounded quotient has the same integer below it as the
exact one.
-/

namespace TypedFormula.Binary64

variable {d v q : ℚ} {e : ℤ}

/-- Whether a remainder follows a divisor: it is zero or has the sign of the divisor, and it is not
larger in magnitude. -/
def FollowsDivisor (r v : ℚ) : Prop :=
  (r = 0 ∨ SignType.sign r = SignType.sign v) ∧ |r| ≤ |v|

/-- What is taken away from the dividend. -/
def takenAway (d v : ℚ) : ℚ := rounded (v * ⌊rounded (d / v)⌋)

/-- The remainder with all roundings. -/
def roundedRemainder (d v : ℚ) : ℚ := rounded (d - takenAway d v)

/-! ### Opposite numbers -/

private theorem followsDivisor_neg {r : ℚ} : FollowsDivisor (-r) (-v) ↔ FollowsDivisor r v := by
  rw [FollowsDivisor, FollowsDivisor, neg_eq_zero, Left.sign_neg, Left.sign_neg, neg_inj, abs_neg,
    abs_neg]

private theorem takenAway_neg (d v : ℚ) : takenAway (-d) (-v) = -takenAway d v := by
  rw [takenAway, takenAway, neg_div_neg_eq, neg_mul, rounded_neg]

private theorem roundedRemainder_neg (d v : ℚ) :
    roundedRemainder (-d) (-v) = -roundedRemainder d v := by
  rw [roundedRemainder, roundedRemainder, takenAway_neg, ← neg_sub', rounded_neg]

theorem followsDivisor_iff_of_pos {r : ℚ} (hv : 0 < v) :
    FollowsDivisor r v ↔ 0 ≤ r ∧ r ≤ v := by
  have hsign : (r = 0 ∨ SignType.sign r = SignType.sign v) ↔ 0 ≤ r := by
    rw [sign_pos hv, sign_eq_one_iff, le_iff_eq_or_lt, eq_comm]
  rw [FollowsDivisor, hsign, abs_of_pos hv]
  exact and_congr_right fun hr => by rw [abs_of_nonneg hr]

/-! ### The last rounding -/

private theorem isMultiple_mul_intCast (hv : Representable v) (k : ℤ) :
    IsMultiple (-1074) (v * k) := by
  obtain ⟨n, hn⟩ := hv.isMultiple.mono (le_lastPlace v)
  exact ⟨n * k, by rw [hn, Int.cast_mul, mul_right_comm]⟩

private theorem rounded_nonneg_iff (hq : IsMultiple (-1074) q) : 0 ≤ rounded q ↔ 0 ≤ q := by
  refine ⟨fun h => ?_, le_rounded representable_zero⟩
  by_contra hneg
  have hstep := hq.le_sub ⟨0, by rw [Int.cast_zero, zero_mul]⟩ (not_le.mp hneg)
  have hle := rounded_le (representable_two_zpow le_rfl).neg (hstep.trans_eq (zero_sub _))
  exact absurd (h.trans hle) (not_le.mpr (neg_lt_zero.mpr (by positivity)))

/-- A rounded number on the grid is not below half of a number if it was not before. -/
private theorem le_two_mul_rounded (hd : Representable d) (hq : IsMultiple (-1074) q) (hpos : 0 ≤ d)
    (h : d ≤ 2 * q) : d ≤ 2 * rounded q := by
  by_cases heven : IsMultiple (-1073) d
  · have hhalf := le_rounded (hd.half heven) (q := q) (by linarith)
    linarith
  · -- the half is between two numbers, all of which are on one grid there
    have hleast : lastPlace d ≤ -1074 := by
      by_contra hplace
      exact heven (hd.isMultiple.mono (by omega))
    obtain hexact | hplace := (le_lastPlace q).eq_or_lt
    · rwa [rounded_of_isMultiple (hexact ▸ hq)]
    · have hdlt : |d| < 2 ^ (-1021 : ℤ) := (abs_lt_of_lastPlace d).trans_le
        (zpow_le_zpow_right₀ (by norm_num) (by omega))
      have hqle : (2 : ℚ) ^ (-1021 : ℤ) ≤ |q| :=
        (zpow_le_zpow_right₀ (by norm_num) (by omega)).trans (le_abs_of_lastPlace hplace)
      rw [abs_of_nonneg hpos] at hdlt
      rw [abs_of_nonneg (by linarith)] at hqle
      have hle := le_rounded (representable_two_zpow (by decide)) hqle
      linarith

private theorem lt_mul_of_rounded_lt {c : ℚ} (hpos : 0 < v) (hc : Representable c)
    (h : rounded (d / v) < c) : d < v * c := by
  by_contra hge
  exact absurd (le_rounded hc ((le_div_iff₀' hpos).mpr (not_lt.mp hge))) (not_le.mpr h)

/-- If the difference is larger than the divisor, then it is exact. -/
private theorem representable_sub_takenAway (hd : Representable d) (hv : Representable v)
    (hpos : 0 < v) (h : v < d - takenAway d v) : Representable (d - takenAway d v) := by
  rw [takenAway] at h ⊢
  have hk : Representable (⌊rounded (d / v)⌋ : ℚ) := (representable_rounded _).floor
  have hlast : rounded (d / v) < ⌊rounded (d / v)⌋ + 1 := Int.lt_floor_add_one _
  generalize ⌊rounded (d / v)⌋ = k at *
  have hgrid := isMultiple_mul_intCast hv k
  have ht : Representable (rounded (v * k)) := representable_rounded _
  obtain hk2 | rfl | rfl | hk1 : k ≤ -2 ∨ k = -1 ∨ k = 0 ∨ 1 ≤ k := by omega
  · -- what is taken away is negative, and at most twice the dividend
    have hk2' : (k : ℚ) ≤ -2 := by exact_mod_cast hk2
    have hhalf : Representable ((k : ℚ) / 2) :=
      hk.half (IsMultiple.mono ⟨k, by rw [zpow_zero, mul_one]⟩ (by decide : (-1073 : ℤ) ≤ 0))
    have hlt : d < v * (k / 2) := lt_mul_of_rounded_lt hpos hhalf (by linarith)
    have hle := le_rounded hd.two_mul (by linarith : 2 * d ≤ v * k)
    rw [← neg_sub_neg]
    exact hd.neg.sub ht.neg (by linarith) (by linarith) (by linarith)
  · -- the dividend and the divisor cannot have one sign
    have hneg := lt_mul_of_rounded_lt hpos representable_zero (hlast.trans_eq (by norm_num))
    have hstays : rounded (v * (-1 : ℤ)) = -v := by
      rw [Int.cast_neg, Int.cast_one, mul_neg_one, rounded_of_representable hv.neg]
    rw [hstays] at h
    linarith
  · rwa [Int.cast_zero, mul_zero, rounded_zero, sub_zero]
  · -- what is taken away is at least half of the dividend
    have hk1' : (1 : ℚ) ≤ k := by exact_mod_cast hk1
    have hlt : d < v * (2 * k) := lt_mul_of_rounded_lt hpos hk.two_mul (by linarith)
    have hnonneg : 0 ≤ rounded (v * k) :=
      le_rounded representable_zero (mul_nonneg hpos.le (by linarith))
    have hle := le_two_mul_rounded hd hgrid (by linarith) (by linarith)
    exact ht.sub hd hnonneg (by linarith) hle

/-- A remainder follows a positive divisor exactly if the difference, before it is rounded, is
between zero and the divisor. -/
private theorem followsDivisor_roundedRemainder_iff (hd : Representable d) (hv : Representable v)
    (hpos : 0 < v) :
    FollowsDivisor (roundedRemainder d v) v ↔
      0 ≤ (d - takenAway d v) / v ∧ (d - takenAway d v) / v ≤ 1 := by
  have hgrid : IsMultiple (-1074) (d - takenAway d v) :=
    (hd.isMultiple.mono (le_lastPlace d)).sub
      (isMultiple_rounded (isMultiple_mul_intCast hv _))
  rw [roundedRemainder, followsDivisor_iff_of_pos hpos, rounded_nonneg_iff hgrid,
    le_div_iff₀ hpos, zero_mul, div_le_one hpos]
  refine and_congr_right fun _ => ⟨fun h => ?_, rounded_le hv⟩
  by_contra hgt
  rw [rounded_of_representable (representable_sub_takenAway hd hv hpos (not_le.mp hgt))] at h
  exact hgt h

/-- A remainder follows its divisor exactly if the difference, before it is rounded, is between zero
and the divisor. -/
theorem followsDivisor_iff (hd : Representable d) (hv : Representable v) (hne : v ≠ 0) :
    FollowsDivisor (roundedRemainder d v) v ↔
      0 ≤ (d - takenAway d v) / v ∧ (d - takenAway d v) / v ≤ 1 := by
  obtain hneg | hpos := hne.lt_or_gt
  · have h := followsDivisor_roundedRemainder_iff hd.neg hv.neg (neg_pos.mpr hneg)
    rwa [takenAway_neg, ← neg_sub', neg_div_neg_eq, roundedRemainder_neg, followsDivisor_neg] at h
  · exact followsDivisor_roundedRemainder_iff hd hv hpos

/-! ### Few digits -/

section

variable {m n : ℤ}

/-- The integer below a quotient of integers of at most 53 digits is not above the rounded
quotient, since it is representable. -/
private theorem floor_div_le_rounded (hm : |m| ≤ 2 ^ 53) (hpos : 0 < n) :
    (⌊(m / n : ℚ)⌋ : ℚ) ≤ rounded (m / n) := by
  have hpos' : (0 : ℚ) < n := by exact_mod_cast hpos
  have hone : (1 : ℚ) ≤ n := by exact_mod_cast hpos
  have hm' : |(m : ℚ)| ≤ 2 ^ 53 := by exact_mod_cast hm
  refine le_rounded (representable_intCast ?_) (Int.floor_le _)
  have hle : |(m / n : ℚ)| ≤ 2 ^ 53 := by
    rw [abs_div, abs_of_pos hpos', div_le_iff₀ hpos']
    nlinarith
  obtain ⟨hlow, hhigh⟩ := abs_le.mp hle
  rw [abs_le]
  constructor
  · rw [Int.le_floor]
    push_cast
    linarith
  · have hfloor := (Int.floor_le (m / n : ℚ)).trans hhigh
    exact_mod_cast hfloor

private theorem div_add_one_div_le (hpos : 0 < n) : (m / n : ℚ) + 1 / n ≤ ⌊(m / n : ℚ)⌋ + 1 := by
  have hpos' : (0 : ℚ) < n := by exact_mod_cast hpos
  have hlt : (m : ℚ) < (⌊(m / n : ℚ)⌋ + 1) * n := by
    rw [← div_lt_iff₀ hpos']
    exact Int.lt_floor_add_one _
  have hstep : m + 1 ≤ (⌊(m / n : ℚ)⌋ + 1) * n := by exact_mod_cast hlt
  rw [← add_div, div_le_iff₀ hpos']
  exact_mod_cast hstep

/-- A quotient of integers of at most 53 digits is rounded by less than one part. -/
private theorem abs_div_sub_rounded_lt (hm : |m| ≤ 2 ^ 53) (hn : n ≤ 2 ^ 53) (hpos : 0 < n)
    (hne : m ≠ 0) : |(m / n : ℚ) - rounded (m / n)| < 1 / n := by
  have hpos' : (0 : ℚ) < n := by exact_mod_cast hpos
  have hm' : |(m : ℚ)| ≤ 2 ^ 53 := by exact_mod_cast hm
  have hn' : (n : ℚ) ≤ 2 ^ 53 := by exact_mod_cast hn
  have habs : |(m / n : ℚ)| = |(m : ℚ)| / n := by rw [abs_div, abs_of_pos hpos']
  have hnotTiny : (2 : ℚ) ^ (-1022 : ℤ) ≤ |(m / n : ℚ)| := by
    have hfirst : (1 : ℚ) ≤ |(m : ℚ)| := by exact_mod_cast Int.one_le_abs hne
    have hlow : (2 : ℚ) ^ (-53 : ℤ) ≤ |(m / n : ℚ)| := by
      rw [habs, le_div_iff₀ hpos', zpow_neg, inv_mul_le_iff₀ (by positivity)]
      norm_num at hn' hfirst ⊢
      linarith
    exact (zpow_le_zpow_right₀ (by norm_num) (by decide)).trans hlow
  have herror := abs_sub_rounded_mul_lt hnotTiny
  rw [habs, lt_div_iff₀ hpos'] at herror
  rw [lt_div_iff₀ hpos']
  nlinarith

/-- The quotient of two integers of at most 53 digits is rounded, but not across an integer. -/
private theorem floor_rounded_div (hm : |m| ≤ 2 ^ 53) (hn : n ≤ 2 ^ 53) (hpos : 0 < n) :
    ⌊rounded (m / n : ℚ)⌋ = ⌊(m / n : ℚ)⌋ := by
  refine Int.floor_eq_iff.mpr ⟨floor_div_le_rounded hm hpos, ?_⟩
  obtain rfl | hne := eq_or_ne m 0
  · simp
  · obtain ⟨hlow, -⟩ := abs_lt.mp (abs_div_sub_rounded_lt hm hn hpos hne)
    linarith [div_add_one_div_le (m := m) hpos]

end

private theorem exists_intCast_mul_zpow (h : IsMultiple e q) (hle : |q| ≤ 2 ^ (e + 53)) :
    ∃ n : ℤ, q = n * 2 ^ e ∧ |n| ≤ 2 ^ 53 := by
  obtain ⟨n, rfl⟩ := h
  refine ⟨n, rfl, ?_⟩
  have hpos : (0 : ℚ) < 2 ^ e := by positivity
  rw [zpow_add₀ (by norm_num), abs_mul, abs_of_pos hpos, mul_comm,
    mul_le_mul_iff_right₀ hpos] at hle
  exact_mod_cast hle

section

variable (he : -1074 ≤ e) (hd : IsMultiple e d) (hv : IsMultiple e v)
  (hdle : |d| ≤ 2 ^ (e + 53)) (hvle : |v| ≤ 2 ^ (e + 53))

include hd hv

private theorem mul_floor_mem (hpos : 0 < v) :
    IsMultiple e (v * ⌊d / v⌋) ∧ v * ⌊d / v⌋ ≤ d ∧ d - v ≤ v * ⌊d / v⌋ - 2 ^ e := by
  have hproduct : IsMultiple e (v * ⌊d / v⌋) := by
    obtain ⟨n, hn⟩ := hv
    exact ⟨n * ⌊d / v⌋, by rw [Int.cast_mul, mul_right_comm, ← hn]⟩
  have hlt : d - v < v * ⌊d / v⌋ := by
    have hfloor := (div_lt_iff₀' hpos).mp (Int.lt_floor_add_one (d / v))
    linarith
  exact ⟨hproduct, (le_div_iff₀' hpos).mp (Int.floor_le _), (hd.sub hv).le_sub hproduct hlt⟩

include hdle hvle

/-- For few digits the quotient that is rounded down is the exact one. -/
private theorem takenAway_eq (hpos : 0 < v) : takenAway d v = rounded (v * ⌊d / v⌋) := by
  have hunit : (0 : ℚ) < 2 ^ e := by positivity
  obtain ⟨m, rfl, hm⟩ := exists_intCast_mul_zpow hd hdle
  obtain ⟨n, rfl, hn⟩ := exists_intCast_mul_zpow hv hvle
  have hn' : 0 < n := by
    have : (0 : ℚ) < n := pos_of_mul_pos_left hpos hunit.le
    exact_mod_cast this
  rw [takenAway, mul_div_mul_right _ _ hunit.ne',
    floor_rounded_div hm ((le_abs_self n).trans hn) hn']

include he

/-- The remainder of two multiples of a power of two with at most 53 digits follows a positive
divisor. -/
private theorem followsDivisor_of_isMultiple_of_pos (hpos : 0 < v) :
    FollowsDivisor (roundedRemainder d v) v := by
  obtain ⟨-, hle, hlow⟩ := mul_floor_mem hd hv hpos
  have hunit : (0 : ℚ) < 2 ^ e := by positivity
  -- the product has at most one digit more, so that it is rounded by one unit at most
  have hbound : |v * ⌊d / v⌋| ≤ 2 ^ (e + 1 + 53) := by
    have hpow := two_zpow_succ_add e 53
    rw [abs_le] at hdle hvle ⊢
    constructor <;> linarith
  have herror := abs_sub_rounded_le_zpow (by omega) hbound
  rw [add_sub_cancel_right] at herror
  obtain ⟨-, hhigh⟩ := abs_le.mp herror
  have hdown : rounded (v * ⌊d / v⌋) ≤ d := rounded_le ⟨e, he, hd, hdle⟩ hle
  rw [followsDivisor_iff_of_pos hpos, roundedRemainder, takenAway_eq hd hv hdle hvle hpos]
  exact ⟨le_rounded representable_zero (by linarith),
    rounded_le ⟨e, he, hv, hvle⟩ (by linarith)⟩

/-- The remainder of two multiples of a power of two with at most 53 digits follows the divisor. -/
theorem followsDivisor_of_isMultiple (hne : v ≠ 0) :
    FollowsDivisor (roundedRemainder d v) v := by
  obtain hneg | hpos := hne.lt_or_gt
  · have h := followsDivisor_of_isMultiple_of_pos he hd.neg hv.neg (by rwa [abs_neg])
      (by rwa [abs_neg]) (neg_pos.mpr hneg)
    rwa [roundedRemainder_neg, followsDivisor_neg] at h
  · exact followsDivisor_of_isMultiple_of_pos he hd hv hdle hvle hpos

/-- For a positive divisor it is the exact one if the dividend without the divisor has at most 53
digits as well. -/
private theorem roundedRemainder_of_isMultiple_of_pos (hpos : 0 < v)
    (hsub : |d - v| ≤ 2 ^ (e + 53)) :
    roundedRemainder d v = d - v * ⌊d / v⌋ := by
  obtain ⟨hproduct, hle, hlow⟩ := mul_floor_mem hd hv hpos
  have hunit : (0 : ℚ) < 2 ^ e := by positivity
  have hbound : |v * ⌊d / v⌋| ≤ 2 ^ (e + 53) := by
    rw [abs_le] at hdle hsub ⊢
    constructor <;> linarith
  have hrest : |d - v * ⌊d / v⌋| ≤ 2 ^ (e + 53) := by
    rw [abs_of_nonneg (by linarith)]
    linarith [le_abs_self v]
  rw [roundedRemainder, takenAway_eq hd hv hdle hvle hpos,
    rounded_of_representable ⟨e, he, hproduct, hbound⟩,
    rounded_of_representable ⟨e, he, hd.sub hproduct, hrest⟩]

/-- It is the exact one if the dividend without the divisor has at most 53 digits as well. -/
theorem roundedRemainder_of_isMultiple (hne : v ≠ 0) (hsub : |d - v| ≤ 2 ^ (e + 53)) :
    roundedRemainder d v = d - v * ⌊d / v⌋ := by
  obtain hneg | hpos := hne.lt_or_gt
  · have h := roundedRemainder_of_isMultiple_of_pos he hd.neg hv.neg (by rwa [abs_neg])
      (by rwa [abs_neg]) (neg_pos.mpr hneg) (by rwa [← neg_sub', abs_neg])
    rwa [roundedRemainder_neg, neg_div_neg_eq, neg_mul, ← neg_sub', neg_inj] at h
  · exact roundedRemainder_of_isMultiple_of_pos he hd hv hdle hvle hpos hsub

end

end TypedFormula.Binary64
