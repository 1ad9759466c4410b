import Mathlib
import TypedFormula.Binary64.Rounding
import TypedFormula.Proofs.Binary64.Rounded

/-!
# Arithmetic of exact values

Sums, differences, products and quotients of finite binary64 numbers are the exact ones, rounded
(`rounded`), unless the result is too large (`inRange?`). For sums and products the digits of the
exact result are at hand, however many; a quotient has endless digits, and is cut off where the two
bits beside the digits tell enough about the rest. Either way the number is rounded at its last
place, because there are digits enough before it.

The other direction is short but of use: a sum, a difference or a product with an exact value has
operands with exact values, so a result that is finite at the end was finite all the way.

Main statements:

* `toRat?_roundWithAccuracy` — digits and the bits beside them are rounded at the last place;
* `toRat?_add`, `toRat?_sub`, `toRat?_mul`, `toRat?_div` — the four operations;
* `toRat?_ofInt`, `toRat?_integral_down` — integers as numbers, and the integer below a number;
* `exists_toRat?_of_sub`, `exists_toRat?_of_mul` — finite results have finite operands.
-/

namespace TypedFormula.Binary64

open Float.Model Float.Model.UnpackedFloat

variable {x y : Float} {p q r : ℚ} {e f : ℤ} {m n : ℕ} {s t : Sign}

/-! ### Signs -/

/-- A magnitude with a sign. -/
def withSign (s : Sign) (q : ℚ) : ℚ :=
  match s with
  | .positive => q
  | .negative => -q

theorem signedValue_eq_withSign (s : Sign) (m : ℕ) (e : ℤ) :
    signedValue s m e = withSign s (m * 2 ^ e) := by
  cases s with
  | positive => exact signedValue_positive m e
  | negative => exact signedValue_negative m e

private theorem withSign_mul (s t : Sign) (p q : ℚ) :
    withSign s p * withSign t q = withSign (s * t) (p * q) := by
  match s, t with
  | .positive, .positive => rfl
  | .positive, .negative => exact mul_neg p q
  | .negative, .positive => exact neg_mul p q
  | .negative, .negative => exact neg_mul_neg p q

private theorem withSign_div (s t : Sign) (p q : ℚ) :
    withSign s p / withSign t q = withSign (s / t) (p / q) := by
  match s, t with
  | .positive, .positive => rfl
  | .positive, .negative => exact div_neg p
  | .negative, .positive => exact neg_div q p
  | .negative, .negative => exact neg_div_neg_eq p q

theorem withSign_add (s : Sign) (p q : ℚ) : withSign s p + withSign s q = withSign s (p + q) := by
  cases s with
  | positive => rfl
  | negative => exact (neg_add p q).symm

theorem withSign_sub (s : Sign) (p q : ℚ) : withSign s p - withSign s q = withSign s (p - q) := by
  cases s with
  | positive => rfl
  | negative => exact (neg_sub' p q).symm

theorem abs_withSign (s : Sign) (q : ℚ) : |withSign s q| = |q| := by
  cases s with
  | positive => rfl
  | negative => exact abs_neg q

/-- The sign has no influence on rounding. -/
theorem rounded_withSign (s : Sign) (q : ℚ) :
    rounded (withSign s q) = withSign s (rounded q) := by
  cases s with
  | positive => rfl
  | negative => exact rounded_neg q

/-- The exact value of a finite number is representable, and in range. -/
theorem representable_of_toRat? (h : toRat? x = some q) : Representable q ∧ |q| ≤ largest := by
  obtain ⟨s, hx, rfl⟩ | ⟨s, m, e, hm, hx, rfl⟩ := exists_unpack_of_toRat? h
  · refine ⟨representable_zero, ?_⟩
    rw [abs_zero]
    exact largest_pos.le
  · have hcanonical := canonical_of_unpack hx
    refine ⟨⟨e, hcanonical.exponent, ⟨s.apply m, rfl⟩, ?_⟩, ?_⟩
    · have hdigits : (m : ℚ) ≤ 2 ^ 53 := by exact_mod_cast hcanonical.digits.le
      rw [abs_signedValue, zpow_add₀ (by norm_num), mul_comm]
      exact mul_le_mul_of_nonneg_left hdigits (by positivity)
    · exact (hcanonical.abs_signedValue_le_iff s).mpr (bounds_of_unpack hx).2.2.1

/-- The exact value of a finite number is not rounded any more. -/
private theorem rounded_of_toRat? (h : toRat? x = some q) : inRange? (rounded q) = some q := by
  obtain ⟨hrepresentable, hrange⟩ := representable_of_toRat? h
  rw [rounded_of_representable hrepresentable, inRange?_eq_some_iff]
  exact ⟨hrange, rfl⟩

/-! ### Rounding at the last place -/

/-- The first digit of a number is known from its digits before some place. -/
private theorem log_eq_of_digits (hm : m ≠ 0) (hlow : m * 2 ^ e ≤ q) (hhigh : q < (m + 1) * 2 ^ e) :
    Int.log 2 q = m.log2 + e := by
  have hpow : ∀ k : ℕ, (2 : ℚ) ^ ((k : ℤ) + e) = (2 ^ k : ℕ) * 2 ^ e := by
    intro k
    rw [zpow_add₀ (by norm_num), zpow_natCast]
    push_cast
    rfl
  have hfirst : (2 : ℚ) ^ (m.log2 + e) ≤ q := by
    have hdigit : ((2 ^ m.log2 : ℕ) : ℚ) ≤ m := by exact_mod_cast Nat.log2_self_le hm
    rw [hpow]
    exact (mul_le_mul_of_nonneg_right hdigit (by positivity)).trans hlow
  have hlast : q < 2 ^ ((m.log2 + 1 : ℕ) + e) := by
    have hdigit : (m : ℚ) + 1 ≤ (2 ^ (m.log2 + 1) : ℕ) := by exact_mod_cast Nat.lt_log2_self
    rw [hpow]
    exact hhigh.trans_le (mul_le_mul_of_nonneg_right hdigit (by positivity))
  have hq : 0 < q := lt_of_lt_of_le (by positivity) hfirst
  have hge : m.log2 + e ≤ Int.log 2 q := (Int.zpow_le_iff_le_log (by decide) hq).mp hfirst
  have hlt : Int.log 2 q < (m.log2 + 1 : ℕ) + e := (Int.lt_zpow_iff_log_lt (by decide) hq).mp hlast
  omega

theorem lastPlace_of_pos (hq : 0 < q) : lastPlace q = max (Int.log 2 q - 52) (-1074) := by
  rw [lastPlace, if_neg hq.ne', abs_of_pos hq]

/-- Digits before the last place are enough to know the place. -/
private theorem roundingExponent_eq_lastPlace (hq : 0 < q) (hlow : m * 2 ^ e ≤ q)
    (hhigh : q < (m + 1) * 2 ^ e) (he : m ≠ 0 ∨ e ≤ lastPlace q) :
    roundingExponent m e = lastPlace q := by
  rw [lastPlace_of_pos hq] at he ⊢
  rw [roundingExponent, totalExponent]
  by_cases hm : m = 0
  · -- no digit is left, which happens at the smallest exponent only
    have hless : q < 2 ^ e := by rwa [hm, Nat.cast_zero, zero_add, one_mul] at hhigh
    have hlog : Int.log 2 q < e := (Int.lt_zpow_iff_log_lt (by decide) hq).mp hless
    have hzero : Nat.log2 0 = 0 := rfl
    rw [hm, hzero]
    omega
  · rw [log_eq_of_digits hm hlow hhigh]
    omega

theorem mul_zpow_pos (hm : 0 < m) (e : ℤ) : (0 : ℚ) < m * 2 ^ e := by
  have : (0 : ℚ) < m := by exact_mod_cast hm
  positivity

private theorem lastPlace_eq_roundingExponent (hm : 0 < m) (e : ℤ) :
    lastPlace (m * 2 ^ e : ℚ) = roundingExponent m e := by
  refine (roundingExponent_eq_lastPlace (mul_zpow_pos hm e) le_rfl ?_ (.inl hm.ne')).symm
  exact mul_lt_mul_of_pos_right (lt_add_one _) (by positivity)

/-- Digits and the bits beside them are rounded at the last place, unless the number is too
large. -/
theorem toRat?_roundWithAccuracy {a : Accuracy} (hq : 0 < q)
    (h : Extends (.ofMantissaAndAccuracy m a) (q / 2 ^ e)) (he : e ≤ lastPlace q) :
    toRat? (.ofModel (.pack (roundWithAccuracy .binary64 s m e a))) =
      inRange? (rounded (withSign s q)) := by
  have hpos : (0 : ℚ) < 2 ^ e := by positivity
  have hlow : m * 2 ^ e ≤ q := by
    rw [← le_div_iff₀ hpos, ← sub_nonneg]
    exact mantissa_ofMantissaAndAccuracy m a ▸ h.nonneg
  have hhigh : q < (m + 1) * 2 ^ e := by
    rw [← div_lt_iff₀ hpos, ← sub_lt_iff_lt_add']
    exact mantissa_ofMantissaAndAccuracy m a ▸ h.lt_one
  obtain ⟨r, -, hnearest, hvalue⟩ := exists_toRat?_roundWithAccuracy (s := s) h
    (roundingExponent_eq_lastPlace hq hlow hhigh (.inr he)) he
  rw [hvalue, signedValue_eq_withSign, rounded_withSign, rounded,
    (nearestEven_nearestInt _).unique hnearest, Int.cast_natCast]

private theorem toRat?_round (hm : 0 < m) :
    toRat? (.ofModel (.pack (UnpackedFloat.round .binary64 s m e))) =
      inRange? (rounded (withSign s (m * 2 ^ e))) := by
  obtain ⟨r, -, hnearest, hvalue⟩ := exists_toRat?_round (s := s) (e := e) hm.ne' rfl
  rw [hvalue, signedValue_eq_withSign, rounded_withSign, rounded, lastPlace_eq_roundingExponent hm,
    (nearestEven_nearestInt _).unique hnearest, Int.cast_natCast]

private theorem toRat?_ofModel_pack_zero (s : Sign) :
    toRat? (.ofModel (.pack (.zero s))) = some 0 := by
  cases s <;> rfl

/-- An integer times a power of two is rounded at the last place. -/
private theorem toRat?_normalize {n : ℤ} :
    toRat? (.ofModel (.pack (UnpackedFloat.normalize .binary64 n e s))) =
      inRange? (rounded (n * 2 ^ e)) := by
  rw [UnpackedFloat.normalize]
  obtain hneg | rfl | hpos := lt_trichotomy n 0
  · rw [compare_lt_iff_lt.mpr hneg]
    simp only
    rw [toRat?_round (by omega)]
    congr 2
    have hcast : ((-n).toNat : ℚ) = -n := by
      have : (((-n).toNat : ℤ) : ℚ) = ((-n : ℤ) : ℚ) := by rw [Int.toNat_of_nonneg (by omega)]
      exact_mod_cast this
    rw [withSign, hcast, neg_mul, neg_neg]
  · rw [compare_eq_iff_eq.mpr rfl, Int.cast_zero, zero_mul, rounded_zero, inRange?_zero]
    simp only
    exact toRat?_ofModel_pack_zero s
  · rw [compare_gt_iff_gt.mpr hpos]
    simp only
    rw [toRat?_round (by omega)]
    congr 2
    have hcast : (n.toNat : ℚ) = n := by
      have : ((n.toNat : ℤ) : ℚ) = (n : ℚ) := by rw [Int.toNat_of_nonneg hpos.le]
      exact_mod_cast this
    rw [withSign, hcast]

/-! ### Operations -/

/-- Digits are the same number at a smaller exponent. -/
private theorem decreaseExponent_mul_zpow (s : Sign) (h : f ≤ e) :
    (s.apply (decreaseExponent m e f).1 : ℤ) * (2 : ℚ) ^ f = signedValue s m e := by
  have hpow : ((m <<< (e - f).toNat : ℕ) : ℚ) * 2 ^ f = m * 2 ^ e := by
    rw [Nat.shiftLeft_eq]
    push_cast
    rw [mul_assoc, ← zpow_natCast, ← zpow_add₀ (by norm_num)]
    congr 2
    omega
  cases s with
  | positive => exact hpow
  | negative =>
    rw [signedValue_negative, ← hpow, ← neg_mul]
    exact congrArg (· * (2 : ℚ) ^ f) (Int.cast_neg _)

/-- A finite number with a sign that is packed again keeps its value. -/
private theorem toRat?_ofModel_pack_of_unpack {hm : 0 < m} (s : Sign)
    (h : x.toModel.unpack = .finite t m e hm) :
    toRat? (.ofModel (.pack (.finite s m e hm))) = some (signedValue s m e) := by
  rw [toRat?_ofModel_pack (canonical_of_unpack h), inRange?_eq_some_iff, and_iff_left rfl]
  exact ((canonical_of_unpack h).abs_signedValue_le_iff s).mpr (bounds_of_unpack h).2.2.1

/-- A sum is the exact sum, rounded. -/
theorem toRat?_add (hx : toRat? x = some p) (hy : toRat? y = some q) :
    toRat? (x + y) = inRange? (rounded (p + q)) := by
  have hx' := rounded_of_toRat? hx
  have hy' := rounded_of_toRat? hy
  change toRat? (.ofModel (.pack (UnpackedFloat.add .binary64 x.toModel.unpack
    y.toModel.unpack))) = _
  obtain ⟨s, hux, rfl⟩ | ⟨s, m, e, hm, hux, rfl⟩ := exists_unpack_of_toRat? hx
  · obtain ⟨t, huy, rfl⟩ | ⟨t, n, f, hn, huy, rfl⟩ := exists_unpack_of_toRat? hy
    · rw [hux, huy, add_zero, hx']
      cases s <;> cases t <;> exact toRat?_ofModel_pack_zero _
    · rw [hux, huy, zero_add, hy']
      exact toRat?_ofModel_pack_of_unpack t huy
  · obtain ⟨t, huy, rfl⟩ | ⟨t, n, f, hn, huy, rfl⟩ := exists_unpack_of_toRat? hy
    · rw [hux, huy, add_zero, hx']
      exact toRat?_ofModel_pack_of_unpack s hux
    · rw [hux, huy, UnpackedFloat.add]
      simp only
      rw [toRat?_normalize, Int.cast_add, add_mul, decreaseExponent_mul_zpow s (min_le_left e f),
        decreaseExponent_mul_zpow t (min_le_right e f)]

/-- A difference is the exact difference, rounded. -/
theorem toRat?_sub (hx : toRat? x = some p) (hy : toRat? y = some q) :
    toRat? (x - y) = inRange? (rounded (p - q)) := by
  have hx' := rounded_of_toRat? hx
  change toRat? (.ofModel (.pack (UnpackedFloat.sub .binary64 x.toModel.unpack
    y.toModel.unpack))) = _
  obtain ⟨s, hux, rfl⟩ | ⟨s, m, e, hm, hux, rfl⟩ := exists_unpack_of_toRat? hx
  · obtain ⟨t, huy, rfl⟩ | ⟨t, n, f, hn, huy, rfl⟩ := exists_unpack_of_toRat? hy
    · rw [hux, huy, sub_zero, hx']
      cases s <;> cases t <;> exact toRat?_ofModel_pack_zero _
    · have hopposite := rounded_of_toRat? ((toRat?_neg y).trans (congrArg _ hy))
      rw [hux, huy, zero_sub, hopposite]
      exact (toRat?_ofModel_pack_of_unpack (-t) huy).trans (congrArg some (signedValue_neg t n f))
  · obtain ⟨t, huy, rfl⟩ | ⟨t, n, f, hn, huy, rfl⟩ := exists_unpack_of_toRat? hy
    · rw [hux, huy, sub_zero, hx']
      exact toRat?_ofModel_pack_of_unpack s hux
    · rw [hux, huy, UnpackedFloat.sub]
      simp only
      rw [toRat?_normalize, Int.cast_sub, sub_mul, decreaseExponent_mul_zpow s (min_le_left e f),
        decreaseExponent_mul_zpow t (min_le_right e f)]

/-- A product has digits up to its last place, since a number uses all digits unless its exponent is
the smallest one. -/
private theorem add_le_lastPlace_mul {hm : 0 < m} {hn : 0 < n}
    (hx : x.toModel.unpack = .finite s m e hm) (hy : y.toModel.unpack = .finite t n f hn) :
    e + f ≤ lastPlace ((m * n : ℕ) * 2 ^ (e + f) : ℚ) := by
  have hmn : 0 < m * n := Nat.mul_pos hm hn
  have hlog : 52 ≤ (m * n).log2 ∨ e = -1074 ∧ f = -1074 := by
    rw [Nat.le_log2 hmn.ne']
    have hleft : m ≤ m * n := Nat.le_mul_of_pos_right m hn
    have hright : n ≤ m * n := Nat.le_mul_of_pos_left n hm
    have hmfull := (canonical_of_unpack hx).full
    have hnfull := (canonical_of_unpack hy).full
    omega
  rw [lastPlace_eq_roundingExponent hmn, roundingExponent, totalExponent]
  omega

/-- A product is the exact product, rounded. -/
theorem toRat?_mul (hx : toRat? x = some p) (hy : toRat? y = some q) :
    toRat? (x * y) = inRange? (rounded (p * q)) := by
  change toRat? (.ofModel (.pack (UnpackedFloat.mul .binary64 x.toModel.unpack
    y.toModel.unpack))) = _
  obtain ⟨s, hux, rfl⟩ | ⟨s, m, e, hm, hux, rfl⟩ := exists_unpack_of_toRat? hx
  · rw [zero_mul, rounded_zero, inRange?_zero]
    obtain ⟨t, huy, rfl⟩ | ⟨t, n, f, hn, huy, rfl⟩ := exists_unpack_of_toRat? hy
    all_goals
      rw [hux, huy]
      exact toRat?_ofModel_pack_zero (s * t)
  · obtain ⟨t, huy, rfl⟩ | ⟨t, n, f, hn, huy, rfl⟩ := exists_unpack_of_toRat? hy
    · rw [mul_zero, rounded_zero, inRange?_zero, hux, huy]
      exact toRat?_ofModel_pack_zero (s * t)
    · have hproduct : (m * 2 ^ e * (n * 2 ^ f) : ℚ) = (m * n : ℕ) * 2 ^ (e + f) := by
        rw [zpow_add₀ (by norm_num)]
        push_cast
        ring
      have hpos : (0 : ℚ) < (m * n : ℕ) * 2 ^ (e + f) :=
        mul_zpow_pos (Nat.mul_pos hm hn) (e + f)
      have hextends : Extends (.ofMantissaAndAccuracy (m * n) .exact)
          ((m * n : ℕ) * 2 ^ (e + f) / 2 ^ (e + f)) := by
        rw [mul_div_assoc, div_self (by positivity), mul_one]
        exact extends_exact _
      rw [hux, huy, signedValue_eq_withSign, signedValue_eq_withSign, withSign_mul, hproduct]
      exact toRat?_roundWithAccuracy hpos hextends (add_le_lastPlace_mul hux huy)

private theorem extends_inexact {part : ℚ} (hpart : q - m = part) (hpos : 0 < part)
    (hlt : part < 1) :
    Extends (.ofMantissaAndAccuracy m (.inexact (compare part (1 / 2)))) q := by
  obtain hless | htie | hmore := lt_trichotomy part (1 / 2)
  · rw [compare_lt_iff_lt.mpr hless]
    constructor <;> simp only [ExtendedMantissa.ofMantissaAndAccuracy, hpart] <;> grind
  · rw [compare_eq_iff_eq.mpr htie]
    constructor <;> simp only [ExtendedMantissa.ofMantissaAndAccuracy, hpart] <;> grind
  · rw [compare_gt_iff_gt.mpr hmore]
    constructor <;> simp only [ExtendedMantissa.ofMantissaAndAccuracy, hpart] <;> grind

/-- A quotient of digits with its accuracy stands for the exact quotient. -/
private theorem extends_accuracyOfFraction (m : ℕ) (hn : 0 < n) :
    Extends (.ofMantissaAndAccuracy (m / n) (accuracyOfFraction (m % n) n)) (m / n : ℚ) := by
  have hn' : (0 : ℚ) < n := by exact_mod_cast hn
  have hpart : (m / n : ℚ) - (m / n : ℕ) = (m % n : ℕ) / n := by
    rw [sub_eq_iff_eq_add', natCast_div_eq m hn]
  have hlt : ((m % n : ℕ) : ℚ) / n < 1 := by
    rw [div_lt_one hn']
    exact_mod_cast Nat.mod_lt m hn
  rw [accuracyOfFraction]
  split
  · rename_i hzero
    rw [hzero, Nat.cast_zero, zero_div, sub_eq_zero] at hpart
    rw [hpart]
    exact extends_exact _
  · rename_i hne
    have hpos : 0 < ((m % n : ℕ) : ℚ) / n :=
      div_pos (by exact_mod_cast Nat.pos_of_ne_zero hne) hn'
    have hcompare : compare (2 * (m % n)) n = compare (((m % n : ℕ) : ℚ) / n) (1 / 2) := by
      obtain hless | htie | hmore := lt_trichotomy (2 * (m % n)) n
      · have hless' : (2 : ℚ) * (m % n : ℕ) < n := by exact_mod_cast hless
        rw [compare_lt_iff_lt.mpr hless, eq_comm, compare_lt_iff_lt, div_lt_iff₀ hn']
        linarith
      · have htie' : (2 : ℚ) * (m % n : ℕ) = n := by exact_mod_cast htie
        rw [compare_eq_iff_eq.mpr htie, eq_comm, compare_eq_iff_eq, div_eq_iff hn'.ne']
        linarith
      · have hmore' : (n : ℚ) < 2 * (m % n : ℕ) := by exact_mod_cast hmore
        rw [compare_gt_iff_gt.mpr hmore, eq_comm, compare_gt_iff_gt, lt_div_iff₀ hn']
        linarith
    rw [hcompare]
    exact extends_inexact hpart hpos hlt

/-- The digits of a quotient and the bits beside them stand for the exact quotient. -/
theorem extends_divCore (hn : 0 < n) :
    Extends (.ofMantissaAndAccuracy (divCore .binary64 m e n f).1 (divCore .binary64 m e n f).2.2)
      (m * 2 ^ e / (n * 2 ^ f) / 2 ^ (divCore .binary64 m e n f).2.1) := by
  simp only [divCore]
  generalize hl : min (e - f) _ = l
  have hle : l ≤ e - f := hl ▸ min_le_left _ _
  have hvalue : (m * 2 ^ e / (n * 2 ^ f) / 2 ^ l : ℚ) = (m <<< (e - f - l).toNat : ℕ) / n := by
    have hpow : (2 : ℚ) ^ e = 2 ^ (e - f - l).toNat * (2 ^ f * 2 ^ l) := by
      rw [← zpow_natCast, ← zpow_add₀ (by norm_num), ← zpow_add₀ (by norm_num)]
      congr 1
      omega
    rw [Nat.shiftLeft_eq, hpow]
    push_cast
    field_simp
  rw [hvalue]
  exact extends_accuracyOfFraction _ hn

/-- A quotient has digits up to its last place. -/
theorem exponent_divCore_le (hm : 0 < m) (hn : 0 < n) :
    (divCore .binary64 m e n f).2.1 ≤ lastPlace (m * 2 ^ e / (n * 2 ^ f) : ℚ) := by
  have hq : (0 : ℚ) < m * 2 ^ e / (n * 2 ^ f) := div_pos (mul_zpow_pos hm e) (mul_zpow_pos hn f)
  have hlow : (2 : ℚ) ^ (m.log2 + e - (n.log2 + 1 + f)) ≤ m * 2 ^ e / (n * 2 ^ f) := by
    have hfirst : (2 : ℚ) ^ m.log2 ≤ m := by exact_mod_cast Nat.log2_self_le hm.ne'
    have hlast : (n : ℚ) ≤ 2 ^ (n.log2 + 1) := by exact_mod_cast Nat.lt_log2_self.le
    rw [zpow_sub₀ (by norm_num), zpow_add₀ (by norm_num), zpow_add₀ (by norm_num)]
    exact div_le_div₀ (by positivity) (mul_le_mul_of_nonneg_right hfirst (by positivity))
      (mul_zpow_pos hn f) (mul_le_mul_of_nonneg_right hlast (by positivity))
  have hlog : m.log2 + e - (n.log2 + 1 + f) ≤ Int.log 2 (m * 2 ^ e / (n * 2 ^ f) : ℚ) :=
    (Int.zpow_le_iff_le_log (by decide) hq).mp hlow
  simp only [divCore, targetExponent_eq, totalExponent]
  rw [lastPlace_of_pos hq]
  omega

/-- A quotient is the exact quotient, rounded. -/
theorem toRat?_div (hx : toRat? x = some p) (hy : toRat? y = some q) (hq : q ≠ 0) :
    toRat? (x / y) = inRange? (rounded (p / q)) := by
  change toRat? (.ofModel (.pack (UnpackedFloat.div .binary64 x.toModel.unpack
    y.toModel.unpack))) = _
  obtain ⟨t, huy, rfl⟩ | ⟨t, n, f, hn, huy, rfl⟩ := exists_unpack_of_toRat? hy
  · exact absurd rfl hq
  · obtain ⟨s, hux, rfl⟩ | ⟨s, m, e, hm, hux, rfl⟩ := exists_unpack_of_toRat? hx
    · rw [zero_div, rounded_zero, inRange?_zero, hux, huy]
      exact toRat?_ofModel_pack_zero (s / t)
    · rw [hux, huy, signedValue_eq_withSign, signedValue_eq_withSign, withSign_div]
      exact toRat?_roundWithAccuracy (div_pos (mul_zpow_pos hm e) (mul_zpow_pos hn f))
        (extends_divCore hn) (exponent_divCore_le hm hn)

theorem toRat?_add_of_abs_le (hx : toRat? x = some p) (hy : toRat? y = some q)
    (h : |rounded (p + q)| ≤ largest) : toRat? (x + y) = some (rounded (p + q)) :=
  (toRat?_add hx hy).trans (inRange?_eq_some_iff.mpr ⟨h, rfl⟩)

theorem toRat?_sub_of_abs_le (hx : toRat? x = some p) (hy : toRat? y = some q)
    (h : |rounded (p - q)| ≤ largest) : toRat? (x - y) = some (rounded (p - q)) :=
  (toRat?_sub hx hy).trans (inRange?_eq_some_iff.mpr ⟨h, rfl⟩)

/-- A difference that is representable and not too large is exact. -/
theorem toRat?_sub_of_representable (hx : toRat? x = some p) (hy : toRat? y = some q)
    (hpq : Representable (p - q)) (h : |p - q| ≤ largest) : toRat? (x - y) = some (p - q) := by
  rw [toRat?_sub hx hy, rounded_of_representable hpq, inRange?_eq_some_iff]
  exact ⟨h, rfl⟩

/-! ### Integers -/

/-- An integer is rounded where it has too many digits. -/
theorem toRat?_ofInt (n : ℤ) : toRat? (ofInt n) = inRange? (rounded n) := by
  have hnormalize := toRat?_normalize (n := n) (e := 0) (s := .positive)
  rwa [zpow_zero, mul_one] at hnormalize

/-- The magnitude rounded down is the integer below the number. -/
private theorem apply_magnitude_down (s : Sign) (m k : ℕ) :
    s.apply (Rounding.down.magnitude (s == .negative) m k) = ⌊withSign s (m / 2 ^ k)⌋ := by
  have hfloor : ⌊withSign s (m / 2 ^ k)⌋ = s.apply m / (2 ^ k : ℕ) := by
    rw [← Rat.floor_intCast_div_natCast]
    congr 1
    cases s with
    | positive => simp [withSign, Sign.apply]
    | negative => simp [withSign, Sign.apply, neg_div]
  rw [hfloor]
  cases s with
  | positive => exact Int.natCast_ediv m (2 ^ k)
  | negative =>
    have hdvd : ((2 ^ k : ℕ) : ℤ) ∣ m ↔ m % 2 ^ k = 0 :=
      Int.natCast_dvd_natCast.trans (Nat.dvd_iff_mod_eq_zero)
    have hsign : ((2 ^ k : ℕ) : ℤ).sign = 1 :=
      Int.sign_eq_one_of_pos (by exact_mod_cast Nat.two_pow_pos k)
    rw [Sign.apply, Sign.apply, Int.neg_ediv, hsign]
    by_cases hzero : m % 2 ^ k = 0
    · rw [Rounding.down.magnitude_of_dvd _ (Nat.dvd_of_mod_eq_zero hzero), if_pos (hdvd.mpr hzero),
        sub_zero]
      rfl
    · have hpart : (m % Nat.pow 2 k != 0) = true := bne_iff_ne.mpr hzero
      rw [if_neg (hdvd.not.mpr hzero)]
      simp only [Rounding.magnitude, hpart]
      exact neg_add (m / 2 ^ k : ℤ) 1

/-- A number rounded down is the integer below it. -/
theorem toRat?_integral_down (h : toRat? x = some q) :
    toRat? (integral .down x) = some (⌊q⌋ : ℚ) := by
  obtain ⟨s, hx, rfl⟩ | ⟨s, m, e, hm, hx, rfl⟩ := exists_unpack_of_toRat? h
  · have hsame : integral .down x = x := by rw [integral, hx]
    rw [hsame, h, Int.floor_zero, Int.cast_zero]
  · rw [toRat?_integral_of_unpack .down hx, roundedMagnitude]
    split
    · rename_i he
      rw [signedValue_of_nonneg s m he, Int.floor_intCast]
    · rename_i he
      rw [apply_magnitude_down, signedValue_eq_withSign, mul_zpow_of_nonpos m (by omega)]

/-! ### Operands of finite results -/

/-- A difference that fits has finite operands. -/
private theorem isFinite_of_fits_sub {u v : UnpackedFloat}
    (h : Fits (UnpackedFloat.sub .binary64 u v)) :
    u.isFinite = true ∧ v.isFinite = true := by
  cases u with
  | notANumber => exact h.elim
  | infinity s =>
    cases v with
    | infinity t =>
      rw [UnpackedFloat.sub] at h
      split at h <;> exact h.elim
    | _ => exact h.elim
  | zero s =>
    cases v with
    | infinity t => exact h.elim
    | notANumber => exact h.elim
    | _ => exact ⟨rfl, rfl⟩
  | finite s m e hm =>
    cases v with
    | infinity t => exact h.elim
    | notANumber => exact h.elim
    | _ => exact ⟨rfl, rfl⟩

/-- A product that fits has finite factors. -/
private theorem isFinite_of_fits_mul {u v : UnpackedFloat}
    (h : Fits (UnpackedFloat.mul .binary64 u v)) :
    u.isFinite = true ∧ v.isFinite = true := by
  cases u with
  | notANumber => exact h.elim
  | infinity s => cases v <;> exact h.elim
  | zero s =>
    cases v with
    | infinity t => exact h.elim
    | notANumber => exact h.elim
    | _ => exact ⟨rfl, rfl⟩
  | finite s m e hm =>
    cases v with
    | infinity t => exact h.elim
    | notANumber => exact h.elim
    | _ => exact ⟨rfl, rfl⟩

theorem exists_toRat?_of_isFinite (h : x.isFinite = true) : ∃ q, toRat? x = some q :=
  Option.isSome_iff_exists.mp ((isFinite_eq_isSome_toRat? x).symm.trans h)

theorem fits_of_toRat? {u : UnpackedFloat} (h : toRat? (.ofModel (.pack u)) = some r) : Fits u :=
  isFinite_ofModel_pack.mp ((isFinite_eq_isSome_toRat? _).trans (Option.isSome_of_eq_some h))

/-- The operands of a finite difference are finite. -/
theorem exists_toRat?_of_sub (h : toRat? (x - y) = some r) :
    ∃ p q, toRat? x = some p ∧ toRat? y = some q := by
  obtain ⟨hx, hy⟩ := isFinite_of_fits_sub (fits_of_toRat? h)
  obtain ⟨p, hp⟩ := exists_toRat?_of_isFinite hx
  obtain ⟨q, hq⟩ := exists_toRat?_of_isFinite hy
  exact ⟨p, q, hp, hq⟩

/-- The factors of a finite product are finite. -/
theorem exists_toRat?_of_mul (h : toRat? (x * y) = some r) :
    ∃ p q, toRat? x = some p ∧ toRat? y = some q := by
  obtain ⟨hx, hy⟩ := isFinite_of_fits_mul (fits_of_toRat? h)
  obtain ⟨p, hp⟩ := exists_toRat?_of_isFinite hx
  obtain ⟨q, hq⟩ := exists_toRat?_of_isFinite hy
  exact ⟨p, q, hp, hq⟩

/-- A number is finite if it is finite after it has been rounded to an integral one. -/
theorem exists_toRat?_of_integral {direction : Rounding}
    (h : toRat? (integral direction x) = some r) : ∃ q, toRat? x = some q := by
  rw [toRat?]
  cases hx : x.toModel.unpack with
  | zero s => exact ⟨_, rfl⟩
  | finite s m e hm => exact ⟨_, rfl⟩
  | _ =>
    rw [integral, hx, toRat?, hx] at h
    cases h

end TypedFormula.Binary64
