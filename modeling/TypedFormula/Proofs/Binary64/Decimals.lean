import TypedFormula.Decimal.Reader
import TypedFormula.Proofs.Binary64.Arithmetic
import TypedFormula.Proofs.Binary64.Sums

/-!
# Decimals as binary64 numbers

A decimal is read as the number nearest to it: digits and a power of ten are an exact rational
number, which is rounded once (`toRat?_ofScientific`). Powers of ten with a positive exponent are
multiplied and those with a negative one divided by, both with all digits; decimals that are far too
large or too small are decided by their exponents, and this is the rounding as well.

Main statements:

* `toRat?_ofScientific`, `toRat?_nearest` — a decimal is rounded once;
* `eq_of_toRat?` — a number is known from its exact value, unless this is zero;
* `nearest_eq` — a decimal that rounds to a number is read as the number.
-/

namespace TypedFormula.Binary64

open Float.Model Float.Model.UnpackedFloat

variable {x y : Float} {q : ℚ} {e : ℤ} {n : ℕ}

/-! ### Decimals that are decided by their exponents -/

/-- What is less than half of the smallest number is rounded to zero. -/
private theorem rounded_eq_zero (h : |q| < 2 ^ (-1075 : ℤ)) : rounded q = 0 := by
  by_contra hne
  have hunit : (2 : ℚ) ^ (-1075 : ℤ) + 2 ^ (-1075 : ℤ) = 2 ^ (-1074 : ℤ) := by
    rw [← two_mul, ← zpow_one_add₀ (by norm_num)]
    norm_num
  -- the rounded number is a multiple of the smallest one, and not farther away than zero
  have hmultiple : IsMultiple (-1074) |rounded q| :=
    ((isMultiple_lastPlace_rounded q).mono (le_lastPlace q)).abs
  have hzero : IsMultiple (-1074) 0 := ⟨0, by rw [Int.cast_zero, zero_mul]⟩
  have hle := hzero.le_sub hmultiple (abs_pos.mpr hne)
  have hnear := abs_sub_rounded_le (q := q) representable_zero
  have htriangle : |rounded q| ≤ |q| + |q - rounded q| := by
    calc |rounded q| = |q - (q - rounded q)| := by rw [sub_sub_cancel]
      _ ≤ |q| + |q - rounded q| := abs_sub _ _
  rw [sub_zero] at hnear
  linarith

private theorem inRange?_rounded_eq_none (h : 2 ^ (1024 : ℤ) ≤ q) :
    inRange? (rounded q) = none := by
  have hle : (2 : ℚ) ^ (1024 : ℤ) ≤ rounded q := le_rounded (representable_two_zpow (by decide)) h
  have hlargest : largest < 2 ^ (1024 : ℤ) := by
    have hpow : (2 : ℚ) ^ (1024 : ℤ) = 2 ^ 53 * 2 ^ (971 : ℤ) := by
      rw [← zpow_natCast, ← zpow_add₀ (by norm_num)]
      norm_num
    rw [largest, hpow]
    exact mul_lt_mul_of_pos_right (by norm_num) (by positivity)
  rw [inRange?, if_neg]
  rw [not_le]
  exact hlargest.trans_le (hle.trans (le_abs_self _))

private theorem two_zpow_le_ten_zpow (h : 0 ≤ e) : (2 : ℚ) ^ e ≤ 10 ^ e := by
  obtain ⟨k, rfl⟩ := Int.eq_ofNat_of_zero_le h
  simp only [zpow_natCast]
  exact pow_le_pow_left₀ (by norm_num) (by norm_num) k

private theorem ten_zpow_le_two_zpow (h : e ≤ 0) : (10 : ℚ) ^ e ≤ 2 ^ e := by
  have hpow := two_zpow_le_ten_zpow (neg_nonneg.mpr h)
  rw [zpow_neg, zpow_neg] at hpow
  exact (inv_le_inv₀ (by positivity) (by positivity)).mp hpow

/-! ### Decimals that are rounded -/

/-- Digits that are multiplied by a power of ten are rounded once. -/
private theorem toRat?_pack_multiplied (hn : 0 < n) (he : 0 ≤ e) :
    toRat? (.ofModel (.pack (UnpackedFloat.roundWithAccuracy .binary64 .positive
      (n <<< 53 * 10 ^ e.toNat) (-53) .exact))) = inRange? (rounded (n * 10 ^ e)) := by
  have hpow : (10 : ℚ) ^ e = (10 ^ e.toNat : ℕ) := by
    rw [Nat.cast_pow, ← zpow_natCast, Int.toNat_of_nonneg he, Nat.cast_ofNat]
  have hone : (1 : ℚ) ≤ n * 10 ^ e := by
    have hn' : (1 : ℚ) ≤ n := by exact_mod_cast hn
    have hpow' : (1 : ℚ) ≤ 10 ^ e := one_le_zpow₀ (by norm_num) he
    exact one_le_mul_of_one_le_of_one_le hn' hpow'
  have hpos : (0 : ℚ) < n * 10 ^ e := lt_of_lt_of_le one_pos hone
  have hextends : Extends (.ofMantissaAndAccuracy (n <<< 53 * 10 ^ e.toNat) .exact)
      (n * 10 ^ e / 2 ^ (-53 : ℤ)) := by
    have hvalue : (n * 10 ^ e / 2 ^ (-53 : ℤ) : ℚ) = (n <<< 53 * 10 ^ e.toNat : ℕ) := by
      rw [Nat.shiftLeft_eq, hpow, zpow_neg, div_inv_eq_mul, zpow_ofNat]
      push_cast
      ring
    rw [hvalue]
    exact extends_exact _
  have hplace : -53 ≤ lastPlace (n * 10 ^ e : ℚ) := by
    have hlog : 0 ≤ Int.log 2 (n * 10 ^ e : ℚ) :=
      (Int.zpow_le_iff_le_log (by decide) hpos).mp (by rwa [zpow_zero])
    rw [lastPlace_of_pos hpos]
    omega
  exact toRat?_roundWithAccuracy hpos hextends hplace

private theorem toRat?_pack_divided (hn : 0 < n) (he : e < 0) {hn' : 0 < n}
    {hpow : 0 < 10 ^ (-e).toNat} :
    toRat? (.ofModel (.pack (UnpackedFloat.div .binary64 (.finite .positive n 0 hn')
      (.finite .positive (10 ^ (-e).toNat) 0 hpow)))) = inRange? (rounded (n * 10 ^ e)) := by
  have hvalue : (n * 10 ^ e : ℚ) = n * 2 ^ (0 : ℤ) / ((10 ^ (-e).toNat : ℕ) * 2 ^ (0 : ℤ)) := by
    rw [zpow_zero, mul_one, mul_one, Nat.cast_pow, ← zpow_natCast, Int.toNat_of_nonneg (by omega),
      zpow_neg, div_inv_eq_mul, Nat.cast_ofNat]
  rw [hvalue]
  exact toRat?_roundWithAccuracy (s := .positive)
    (div_pos (mul_zpow_pos hn 0) (mul_zpow_pos hpow 0)) (extends_divCore hpow)
    (exponent_divCore_le hn hpow)

/-- Digits and a power of ten are read as the exact decimal, rounded. -/
theorem toRat?_ofScientific (n : ℕ) (e : ℤ) :
    toRat? (.ofModel (.ofScientific n e)) = inRange? (rounded (n * 10 ^ e)) := by
  have hbits : (2 : ℤ) ^ Format.binary64.exponentBits = 2048 := rfl
  rw [Float.Model.ofScientific, UnpackedFloat.ofScientific, hbits]
  by_cases hzero : n = 0
  · rw [dif_pos hzero, hzero, Nat.cast_zero, zero_mul, rounded_zero, inRange?_zero]
    rfl
  · have hn : 0 < n := Nat.pos_of_ne_zero hzero
    have hn' : (0 : ℚ) < n := by exact_mod_cast hn
    rw [dif_neg hzero]
    by_cases hlarge : e > 2048
    · rw [if_pos hlarge, inRange?_rounded_eq_none]
      · rfl
      · calc (2 : ℚ) ^ (1024 : ℤ) ≤ 2 ^ e := zpow_le_zpow_right₀ (by norm_num) (by omega)
          _ ≤ 10 ^ e := two_zpow_le_ten_zpow (by omega)
          _ ≤ n * 10 ^ e := le_mul_of_one_le_left (by positivity) (by exact_mod_cast hn)
    · rw [if_neg hlarge]
      by_cases hsmall : e < -(2048 + n.log2)
      · rw [if_pos hsmall, rounded_eq_zero, inRange?_zero]
        · rfl
        · have hdigits : (n : ℚ) < 2 ^ (n.log2 + 1 : ℤ) := by
            have hlt : n < 2 ^ (n.log2 + 1) := Nat.lt_log2_self
            exact_mod_cast hlt
          rw [abs_of_pos (by positivity)]
          calc (n : ℚ) * 10 ^ e ≤ n * 2 ^ e :=
                mul_le_mul_of_nonneg_left (ten_zpow_le_two_zpow (by omega)) hn'.le
            _ < 2 ^ (n.log2 + 1 : ℤ) * 2 ^ e := mul_lt_mul_of_pos_right hdigits (by positivity)
            _ = 2 ^ (n.log2 + 1 + e : ℤ) := (zpow_add₀ (by norm_num) _ _).symm
            _ ≤ 2 ^ (-1075 : ℤ) := zpow_le_zpow_right₀ (by norm_num) (by omega)
      · rw [if_neg hsmall]
        by_cases he : 0 ≤ e
        · rw [if_pos he]
          exact toRat?_pack_multiplied hn he
        · rw [if_neg he]
          exact toRat?_pack_divided hn (not_le.mp he)

/-- A decimal is read as the number nearest to it. -/
theorem toRat?_nearest (negative : Bool) (n : ℕ) (e : ℤ) :
    toRat? (Decimal.nearest negative n e) =
      inRange? (rounded (if negative then -(n * 10 ^ e) else n * 10 ^ e)) := by
  rw [Decimal.nearest]
  cases negative with
  | false => exact toRat?_ofScientific n e
  | true =>
    change toRat? (-.ofModel (.ofScientific n e)) = inRange? (rounded (-(n * 10 ^ e)))
    rw [toRat?_neg, toRat?_ofScientific, rounded_neg, inRange?, inRange?, abs_neg]
    split <;> rfl

/-! ### Numbers with one value -/

/-- Numbers with one exact value that is not zero are equal. -/
theorem eq_of_toRat? (hx : toRat? x = some q) (hy : toRat? y = some q) (hq : q ≠ 0) : x = y := by
  obtain ⟨s, hux, rfl⟩ | ⟨s, m, e, hm, hux, rfl⟩ := exists_unpack_of_toRat? hx
  · exact absurd rfl hq
  obtain ⟨t, huy, heq⟩ | ⟨t, n, f, hn, huy, heq⟩ := exists_unpack_of_toRat? hy
  · exact absurd heq hq
  have hmagnitude : (m : ℚ) * 2 ^ e = n * 2 ^ f := by
    rw [← abs_signedValue s, heq, abs_signedValue]
  have hcompare := compare_magnitude (canonical_of_unpack hux) (canonical_of_unpack huy)
  rw [hmagnitude, compare_eq_iff_eq.mpr rfl, Ordering.then_eq_eq, compare_eq_iff_eq,
    compare_eq_iff_eq] at hcompare
  obtain ⟨rfl, rfl⟩ := hcompare
  have hpos := mul_zpow_pos hm e
  have hsign : s = t := by
    match s, t with
    | .positive, .positive => rfl
    | .negative, .negative => rfl
    | .positive, .negative =>
      rw [signedValue_positive, signedValue_negative] at heq
      linarith
    | .negative, .positive =>
      rw [signedValue_positive, signedValue_negative] at heq
      linarith
  exact eq_of_unpack (by rw [hux, huy, hsign])

/-- A number with the exact value zero is one of the two zeros. -/
theorem eq_zero_or_of_toRat?_eq_zero (h : toRat? x = some 0) : x = 0 ∨ x = -0 := by
  have hzero : (0 : Float).toModel.unpack = .zero .positive := rfl
  have hnegative : (-0 : Float).toModel.unpack = .zero .negative := rfl
  obtain ⟨s, hx, -⟩ | ⟨s, m, e, hm, -, heq⟩ := exists_unpack_of_toRat? h
  · cases s with
    | positive => exact .inl (eq_of_unpack (hx.trans hzero.symm))
    | negative => exact .inr (eq_of_unpack (hx.trans hnegative.symm))
  · have hpos := mul_zpow_pos hm e
    rw [← abs_signedValue s, ← heq, abs_zero] at hpos
    exact absurd hpos (lt_irrefl 0)

/-- A decimal that rounds to the exact value of a number is read as the number, unless this is
zero. -/
theorem nearest_eq (negative : Bool) (hx : toRat? x = some q) (hq : q ≠ 0)
    (h : rounded (if negative then -(n * 10 ^ e) else n * 10 ^ e) = q) :
    Decimal.nearest negative n e = x := by
  refine eq_of_toRat? ?_ hx hq
  rw [toRat?_nearest, h, inRange?_eq_some_iff]
  exact ⟨(representable_of_toRat? hx).2, rfl⟩

end TypedFormula.Binary64
