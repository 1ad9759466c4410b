import Mathlib
import TypedFormula.Proofs.Binary64.Exact

/-!
# Rounding to the nearest

Rounding occurs twice in binary64. A number is rounded to an integer, a tie going to the even one,
and every calculation rounds its exact result to 53 digits, a tie going to even digits. Both are the
same operation on integers (`Rounding.halfEven`): what is dropped from a mantissa decides, whether
the digits are dropped at once or one by one with two bits that remember them.

The nearest integer is said without the operation (`NearestEven`): no integer is nearer, and if
another one is as near, then it is even. There is exactly one (`NearestEven.unique`).

Main statements:

* `nearestEven_magnitude` — a half goes to the even neighbour;
* `Extends.nearestEven` — two bits beside the digits are enough to know the nearest integer;
* `exists_toRat?_roundWithAccuracy` — a number of many digits is rounded to 53 of them;
* `toRat?_ofModel_pack_round` — a number of at most 53 digits is kept;
* `exists_toRat?_integral` — rounding a number to an integral one gives the nearest integer.
-/

namespace TypedFormula.Binary64

open Float.Model Float.Model.UnpackedFloat

variable {x : Float} {q : ℚ}

/-! ### The nearest integer -/

/-- The integer nearest to a rational number, and the even one if two are as near. -/
structure NearestEven (q : ℚ) (n : ℤ) : Prop where
  /-- No integer is nearer. -/
  nearest : ∀ k : ℤ, |q - n| ≤ |q - k|
  /-- If another integer is as near, then it is even. -/
  even : ∀ k : ℤ, k ≠ n → |q - k| = |q - n| → Even n

private theorem one_le_abs_sub {k n : ℤ} (h : k ≠ n) : (1 : ℚ) ≤ |(k : ℚ) - n| := by
  have hint : 1 ≤ |k - n| := Int.one_le_abs (sub_ne_zero.mpr h)
  exact_mod_cast hint

/-- The nearest integer is at most one half away, and even if it is exactly one half away. -/
theorem nearestEven_iff {n : ℤ} :
    NearestEven q n ↔ |q - n| ≤ 1 / 2 ∧ (|q - n| = 1 / 2 → Even n) := by
  constructor
  · rintro ⟨hnearest, heven⟩
    have hup := hnearest (n + 1)
    have hdown := hnearest (n - 1)
    push_cast at hup hdown
    -- otherwise one of the neighbours would be nearer
    have hclose : |q - n| ≤ 1 / 2 := by
      rw [abs_le]
      constructor
      · by_contra hlow
        rw [abs_of_nonpos (by linarith)] at hdown
        cases abs_cases (q - (n - 1)) <;> linarith
      · by_contra hhigh
        rw [abs_of_nonneg (by linarith)] at hup
        cases abs_cases (q - (n + 1)) <;> linarith
    refine ⟨hclose, fun htie => ?_⟩
    obtain ⟨hpos, -⟩ | ⟨hneg, -⟩ := abs_cases (q - n)
    · refine heven (n + 1) (by omega) ?_
      push_cast
      rw [abs_of_nonpos (by linarith)]
      linarith
    · refine heven (n - 1) (by omega) ?_
      push_cast
      rw [abs_of_nonneg (by linarith)]
      linarith
  · rintro ⟨hclose, heven⟩
    have hfar : ∀ k : ℤ, k ≠ n → 1 ≤ |q - k| + |q - n| := by
      intro k hk
      calc (1 : ℚ) ≤ |(k : ℚ) - n| := one_le_abs_sub hk
        _ = |(q - n) - (q - k)| := by
            congr 1
            ring
        _ ≤ |q - n| + |q - k| := abs_sub _ _
        _ = |q - k| + |q - n| := add_comm _ _
    refine ⟨fun k => ?_, fun k hk heq => heven ?_⟩
    · by_cases hk : k = n
      · rw [hk]
      · have := hfar k hk
        linarith
    · have := hfar k hk
      linarith

/-- There is one nearest integer. -/
theorem NearestEven.unique {m n : ℤ} (hm : NearestEven q m) (hn : NearestEven q n) : m = n := by
  by_contra hne
  have hsame : |q - m| = |q - n| := le_antisymm (hm.nearest n) (hn.nearest m)
  obtain ⟨hm', -⟩ := nearestEven_iff.mp hm
  obtain ⟨a, ha⟩ := hn.even m hne hsame
  obtain ⟨b, hb⟩ := hm.even n (Ne.symm hne) hsame.symm
  have hapart : |(m : ℚ) - n| ≤ 1 := by
    have htriangle : |(m : ℚ) - n| ≤ |q - n| + |q - m| := by
      calc |(m : ℚ) - n| = |(q - n) - (q - m)| := by
            congr 1
            ring
        _ ≤ |q - n| + |q - m| := abs_sub _ _
    linarith
  have hint : |m - n| ≤ 1 := by exact_mod_cast hapart
  rw [abs_le] at hint
  omega

theorem nearestEven_intCast {k n : ℤ} : NearestEven k n ↔ n = k := by
  have hself : NearestEven (k : ℚ) k := by
    rw [nearestEven_iff, sub_self, abs_zero]
    exact ⟨by norm_num, fun h => by norm_num at h⟩
  exact ⟨fun h => h.unique hself, fun h => h ▸ hself⟩

/-- The opposite integer is nearest to the opposite number. -/
theorem NearestEven.neg {n : ℤ} (h : NearestEven q n) : NearestEven (-q) (-n) := by
  have hdist : |-q - ((-n : ℤ) : ℚ)| = |q - n| := by
    push_cast
    rw [← abs_neg]
    congr 1
    ring
  rw [nearestEven_iff] at h ⊢
  rw [hdist]
  exact ⟨h.1, fun htie => (h.2 htie).neg⟩

/-- An integer is nearest to what is less than a half above it. -/
theorem nearestEven_of_lt_half {n : ℤ} {part : ℚ} (hpart : 0 ≤ part) (hhalf : part < 1 / 2) :
    NearestEven (n + part) n := by
  rw [nearestEven_iff, add_sub_cancel_left, abs_of_nonneg hpart]
  exact ⟨hhalf.le, fun htie => absurd htie hhalf.ne⟩

/-- An integer is nearest to what is less than a half below it. -/
theorem nearestEven_of_half_lt {n : ℤ} {part : ℚ} (hhalf : 1 / 2 < part) (hone : part < 1) :
    NearestEven (n + part) (n + 1) := by
  have hdist : (n + part : ℚ) - (n + 1 : ℤ) = -(1 - part) := by
    push_cast
    ring
  rw [nearestEven_iff, hdist, abs_neg, abs_of_pos (by linarith)]
  exact ⟨by linarith, fun htie => absurd htie (by linarith)⟩

/-- Between two integers the even one is nearest. -/
theorem nearestEven_of_tie (n : ℤ) : NearestEven (n + 1 / 2) (n + n % 2) := by
  rw [nearestEven_iff]
  obtain heven | hodd := Int.even_or_odd n
  · rw [Int.even_iff.mp heven, add_zero, add_sub_cancel_left]
    exact ⟨by norm_num, fun _ => heven⟩
  · have hdist : (n + 1 / 2 : ℚ) - (n + 1 : ℤ) = -(1 / 2) := by
      push_cast
      ring
    rw [Int.odd_iff.mp hodd, hdist]
    exact ⟨by norm_num, fun _ => hodd.add_one⟩

theorem natCast_div_eq (m : ℕ) {n : ℕ} (hn : 0 < n) :
    (m / n : ℚ) = (m / n : ℕ) + (m % n : ℕ) / n := by
  have hn' : (n : ℚ) ≠ 0 := by exact_mod_cast hn.ne'
  rw [div_eq_iff hn', add_mul, div_mul_cancel₀ _ hn', mul_comm]
  exact_mod_cast (Nat.div_add_mod m n).symm

/-- A half goes to the even neighbour, and everything else to the nearer one. -/
theorem nearestEven_magnitude (negative : Bool) (m k : ℕ) :
    NearestEven ((m : ℚ) / 2 ^ k) (Rounding.halfEven.magnitude negative m k : ℕ) := by
  have hpos : (0 : ℚ) < 2 ^ k := by positivity
  have hvalue : (m : ℚ) / 2 ^ k = (m / 2 ^ k : ℕ) + (m % 2 ^ k : ℕ) / 2 ^ k := by
    exact_mod_cast natCast_div_eq m (Nat.two_pow_pos k)
  have hpart : (0 : ℚ) ≤ (m % 2 ^ k : ℕ) / 2 ^ k := by positivity
  simp only [hvalue, Rounding.magnitude, Nat.pow_eq]
  split
  · rename_i hless
    have hless' : (2 : ℚ) * (m % 2 ^ k : ℕ) < 2 ^ k := by exact_mod_cast hless
    refine nearestEven_of_lt_half hpart ?_
    rw [div_lt_iff₀ hpos]
    linarith
  · split
    · rename_i hmore
      have hmore' : (2 : ℚ) ^ k < 2 * (m % 2 ^ k : ℕ) := by exact_mod_cast hmore
      have hrest : ((m % 2 ^ k : ℕ) : ℚ) < 2 ^ k := by
        exact_mod_cast Nat.mod_lt m (Nat.two_pow_pos k)
      refine nearestEven_of_half_lt ?_ ?_
      · rw [lt_div_iff₀ hpos]
        linarith
      · rwa [div_lt_one hpos]
    · rename_i hless hmore
      have htie : ((m % 2 ^ k : ℕ) : ℚ) / 2 ^ k = 1 / 2 := by
        have heq : 2 * (m % 2 ^ k) = 2 ^ k := by omega
        have heq' : (2 : ℚ) * (m % 2 ^ k : ℕ) = 2 ^ k := by exact_mod_cast heq
        rw [div_eq_iff hpos.ne']
        linarith
      rw [htie]
      exact_mod_cast nearestEven_of_tie (m / 2 ^ k : ℕ)

/-! ### Rounding to 53 digits -/

/-- A mantissa with its two residual bits stands for a number: the mantissa is the whole part, one
bit tells whether what is left reaches a half, and the other one whether anything is beside. -/
structure Extends (x : ExtendedMantissa) (q : ℚ) : Prop where
  /-- The mantissa is not above the number. -/
  nonneg : 0 ≤ q - x.mantissa
  /-- Less than one is left. -/
  lt_one : q - x.mantissa < 1
  /-- The first bit stands for a half. -/
  round : x.roundBit = true ↔ 1 / 2 ≤ q - x.mantissa
  /-- The second bit stands for everything else. -/
  sticky : x.stickyBit = true ↔ q - x.mantissa ≠ 0 ∧ q - x.mantissa ≠ 1 / 2

theorem extends_exact (m : ℕ) : Extends (.ofMantissaAndAccuracy m .exact) m := by
  constructor <;> simp [ExtendedMantissa.ofMantissaAndAccuracy]

/-- Shifting by one digit halves the number. -/
private theorem Extends.shiftRightOne {x : ExtendedMantissa} (h : Extends x q) :
    Extends x.shiftRightOne (q / 2) := by
  obtain ⟨hnonneg, hlt, hround, hsticky⟩ := h
  have hdigit : (x.mantissa : ℚ) = 2 * (x.mantissa / 2 : ℕ) + (x.mantissa % 2 : ℕ) := by
    exact_mod_cast (Nat.div_add_mod x.mantissa 2).symm
  -- the dropped digit is the new first bit, and the old bits together tell whether there was a rest
  have hrest : (x.roundBit || x.stickyBit) = true ↔ q - x.mantissa ≠ 0 := by
    rw [Bool.or_eq_true, hround, hsticky]
    constructor
    · rintro (hhalf | ⟨hne, -⟩)
      · linarith
      · exact hne
    · intro hne
      by_cases hhalf : q - x.mantissa = 1 / 2
      · exact .inl hhalf.ge
      · exact .inr ⟨hne, hhalf⟩
  have hbit : ((x.mantissa % 2 != 0) = true) ↔ x.mantissa % 2 = 1 := by
    rw [bne_iff_ne]
    omega
  constructor <;> simp only [ExtendedMantissa.shiftRightOne, hrest, hbit]
  all_goals
    obtain hzero | hone := Nat.mod_two_eq_zero_or_one x.mantissa
    · rw [hzero, Nat.cast_zero, add_zero] at hdigit
      grind
    · rw [hone, Nat.cast_one] at hdigit
      grind

private theorem Extends.shiftRight {x : ExtendedMantissa} (h : Extends x q) (n : ℕ) :
    Extends (x >>> n) (q / 2 ^ n) := by
  induction n with
  | zero => rwa [pow_zero, div_one]
  | succ n ih =>
    rw [pow_succ, ← div_div]
    exact ih.shiftRightOne

/-- The two bits decide what the nearest integer is. -/
theorem Extends.nearestEven {x : ExtendedMantissa} (h : Extends x q) :
    NearestEven q x.roundedMantissa := by
  obtain ⟨m, round, sticky⟩ := x
  obtain ⟨hnonneg, hlt, hround, hsticky⟩ := h
  dsimp only at hnonneg hlt hround hsticky
  have hvalue : q = (m : ℤ) + (q - m) := by
    push_cast
    ring
  rw [hvalue]
  cases round with
  | false =>
    have hhalf : q - m < 1 / 2 := not_le.mp fun hle => Bool.false_ne_true (hround.mpr hle)
    cases sticky <;> exact nearestEven_of_lt_half hnonneg hhalf
  | true =>
    have hhalf : 1 / 2 ≤ q - m := hround.mp rfl
    cases sticky with
    | false =>
      have htie : q - m = 1 / 2 := by
        by_contra hne
        exact Bool.false_ne_true (hsticky.mpr ⟨by linarith, hne⟩)
      rw [htie]
      exact_mod_cast nearestEven_of_tie m
    | true => exact nearestEven_of_half_lt (lt_of_le_of_ne hhalf (hsticky.mp rfl).2.symm) hlt

/-- The smallest exponent that a number with some digits can be written with. -/
def roundingExponent (m : ℕ) (e : ℤ) : ℤ := max (totalExponent m e - 53) (-1074)

/-- Rounding leaves 53 digits, or adds one. -/
private theorem roundedMantissa_le_of_roundingExponent {m r : ℕ} {e t : ℤ} {a : Accuracy}
    (ht : roundingExponent m e = t)
    (hr : (ExtendedMantissa.ofMantissaAndAccuracy m a >>> (t - e).toNat).roundedMantissa = r) :
    r ≤ 2 ^ 53 := by
  have hrounded :=
    roundedMantissa_le (ExtendedMantissa.ofMantissaAndAccuracy m a >>> (t - e).toNat)
  have hdiv : m / 2 ^ (t - e).toNat < 2 ^ 53 := by
    rw [Nat.div_lt_iff_lt_mul (Nat.two_pow_pos _), ← Nat.pow_add]
    refine Nat.lt_of_lt_of_le Nat.lt_log2_self (Nat.pow_le_pow_right (by decide) ?_)
    rw [roundingExponent, totalExponent] at ht
    omega
  rw [hr, mantissa_shiftRight, mantissa_ofMantissaAndAccuracy] at hrounded
  omega

/-- Rounding uses all digits unless the exponent is the smallest one. -/
private theorem le_roundedMantissa_of_roundingExponent {m r : ℕ} {e t : ℤ} {a : Accuracy}
    (ht : roundingExponent m e = t) (he : e ≤ t)
    (hr : (ExtendedMantissa.ofMantissaAndAccuracy m a >>> (t - e).toNat).roundedMantissa = r) :
    2 ^ 52 ≤ r ∨ t = -1074 := by
  by_cases hleast : t = -1074
  · exact .inr hleast
  · have hm : m ≠ 0 := by
      rintro rfl
      have hlog : Nat.log2 0 = 0 := rfl
      rw [roundingExponent, totalExponent, hlog] at ht
      omega
    have hkept : (m / 2 ^ (t - e).toNat).log2 = 52 := by
      rw [roundingExponent, totalExponent] at ht
      rw [log2_div_two_pow hm (by omega)]
      omega
    have hpos : m / 2 ^ (t - e).toNat ≠ 0 := by
      intro hzero
      rw [hzero] at hkept
      cases hkept
    have hrounded :=
      le_roundedMantissa (ExtendedMantissa.ofMantissaAndAccuracy m a >>> (t - e).toNat)
    rw [hr, mantissa_shiftRight, mantissa_ofMantissaAndAccuracy] at hrounded
    refine .inl (Nat.le_trans ?_ hrounded)
    rw [← hkept]
    exact Nat.log2_self_le hpos

/-- A number is rounded at the place of its smallest exponent: all digits become zero, they are
kept, or there is one digit more, so that the exponent grows. -/
private theorem roundWithAccuracy_of_roundingExponent {s : Sign} {m r : ℕ} {e t : ℤ} {a : Accuracy}
    (ht : roundingExponent m e = t) (he : e ≤ t)
    (hr : (ExtendedMantissa.ofMantissaAndAccuracy m a >>> (t - e).toNat).roundedMantissa = r) :
    roundWithAccuracy .binary64 s m e a =
      if h : r = 0 then .zero s
      else if r < 2 ^ 53 then .finite s r t (Nat.pos_of_ne_zero h)
      else .finite s (2 ^ 52) (t + 1) (by decide) := by
  have hle := roundedMantissa_le_of_roundingExponent ht hr
  have hlow : -1074 ≤ t := ht ▸ le_max_right _ _
  have hexponent : e + (t - e).toNat = t := by omega
  have hn : (max (totalExponent m e - 53) (-1074) - e).toNat = (t - e).toNat := by
    rw [← ht, roundingExponent]
  split
  · rename_i hzero
    have hmantissa : ∀ l : ℕ,
        (ExtendedMantissa.ofMantissaAndAccuracy 0 .exact >>> l).mantissa = 0 := by
      intro l
      rw [mantissa_shiftRight, mantissa_ofMantissaAndAccuracy, Nat.zero_div]
    simp only [roundWithAccuracy, shiftToTargetExponent, shiftToExponent, targetExponent_eq, hn,
      hr, hzero, hmantissa, dif_pos]
  · rename_i hpos
    have hlog : r.log2 ≤ 53 := log2_le_of_lt (by omega)
    split
    · rename_i hshort
      have hlog' : r.log2 ≤ 52 := log2_le_of_lt hshort
      have hl : (max (totalExponent r (e + (t - e).toNat) - 53) (-1074) -
          (e + (t - e).toNat)).toNat = 0 := by
        rw [hexponent, totalExponent]
        omega
      rw [roundWithAccuracy_eq hn hr hl (by rwa [Nat.pow_zero, Nat.div_one])]
      simp only [Nat.pow_zero, Nat.div_one, hexponent, Nat.cast_zero, add_zero]
    · rename_i hlong
      obtain rfl : r = 2 ^ 53 := by omega
      have hl : (max (totalExponent (2 ^ 53) (e + (t - e).toNat) - 53) (-1074) -
          (e + (t - e).toNat)).toNat = 1 := by
        rw [hexponent, totalExponent, Nat.log2_two_pow]
        omega
      rw [roundWithAccuracy_eq hn hr hl (by decide)]
      simp only [hexponent, Nat.cast_one]
      rfl

/-- A number that is rounded at a place has the value of the rounded digits there, unless it is too
large. -/
private theorem toRat?_ofModel_pack_roundWithAccuracy {s : Sign} {m r : ℕ} {e t : ℤ} {a : Accuracy}
    (ht : roundingExponent m e = t) (he : e ≤ t)
    (hr : (ExtendedMantissa.ofMantissaAndAccuracy m a >>> (t - e).toNat).roundedMantissa = r) :
    toRat? (.ofModel (.pack (roundWithAccuracy .binary64 s m e a))) =
      inRange? (signedValue s r t) := by
  have hle := roundedMantissa_le_of_roundingExponent ht hr
  have hfull := le_roundedMantissa_of_roundingExponent ht he hr
  have hlow : -1074 ≤ t := ht ▸ le_max_right _ _
  rw [roundWithAccuracy_of_roundingExponent ht he hr]
  split
  · rename_i hzero
    have hvalue : signedValue s r t = 0 := by
      rw [hzero]
      cases s <;> simp
    rw [hvalue, inRange?_zero]
    cases s <;> rfl
  · split
    · rename_i hshort
      exact toRat?_ofModel_pack ⟨hshort, hlow, hfull⟩
    · rename_i hlong
      obtain rfl : r = 2 ^ 53 := by omega
      have hvalue : signedValue s (2 ^ 52) (t + 1) = signedValue s (2 ^ 53) t := by
        have hpow : ((2 ^ 52 : ℕ) : ℚ) * 2 ^ (t + 1) = (2 ^ 53 : ℕ) * 2 ^ t := by
          rw [zpow_add_one₀ (by norm_num)]
          push_cast
          ring
        cases s <;> simp only [signedValue_positive, signedValue_negative, hpow]
      rw [toRat?_ofModel_pack ⟨by decide, by omega, .inl le_rfl⟩, hvalue]

/-- What digits and the bits beside them stand for is rounded to the nearest number at its place,
unless it is too large. -/
theorem exists_toRat?_roundWithAccuracy {s : Sign} {m : ℕ} {e t : ℤ} {a : Accuracy}
    (h : Extends (.ofMantissaAndAccuracy m a) (q / 2 ^ e)) (ht : roundingExponent m e = t)
    (he : e ≤ t) :
    ∃ r : ℕ, r ≤ 2 ^ 53 ∧ NearestEven (q / 2 ^ t) r ∧
      toRat? (.ofModel (.pack (roundWithAccuracy .binary64 s m e a))) =
        inRange? (signedValue s r t) := by
  have hshift := (h.shiftRight (t - e).toNat).nearestEven
  have hplace : q / 2 ^ e / 2 ^ (t - e).toNat = q / 2 ^ t := by
    rw [div_div, ← zpow_natCast, ← zpow_add₀ (by norm_num)]
    congr 2
    omega
  rw [hplace] at hshift
  exact ⟨_, roundedMantissa_le_of_roundingExponent ht rfl, hshift,
    toRat?_ofModel_pack_roundWithAccuracy ht he rfl⟩

private theorem log2_mul_two_pow {m n : ℕ} (hm : m ≠ 0) : (m * 2 ^ n).log2 = m.log2 + n := by
  have hne : m * 2 ^ n ≠ 0 := Nat.mul_ne_zero hm (Nat.two_pow_pos n).ne'
  refine Nat.le_antisymm (Nat.shiftLeft_eq m n ▸ log2_shiftLeft_le m n)
    ((Nat.le_log2 hne).mpr ?_)
  rw [Nat.pow_add]
  exact Nat.mul_le_mul_right _ (Nat.log2_self_le hm)

/-- A number with few digits is rounded as well, since zeros are put at the end. -/
theorem exists_toRat?_round {s : Sign} {m : ℕ} {e t : ℤ} (hm : m ≠ 0)
    (ht : roundingExponent m e = t) :
    ∃ r : ℕ, r ≤ 2 ^ 53 ∧ NearestEven (m * 2 ^ e / 2 ^ t) r ∧
      toRat? (.ofModel (.pack (UnpackedFloat.round .binary64 s m e))) =
        inRange? (signedValue s r t) := by
  generalize hd : (e - t).toNat = d
  have hround : UnpackedFloat.round .binary64 s m e =
      roundWithAccuracy .binary64 s (m * 2 ^ d) (e - d) .exact := by
    have htarget : max (totalExponent m e - 53) (-1074) = t := ht
    simp only [UnpackedFloat.round, decreaseExponent, targetExponent_eq, htarget, hd,
      Nat.shiftLeft_eq]
  have htarget : roundingExponent (m * 2 ^ d) (e - d) = t := by
    rw [roundingExponent, totalExponent] at ht ⊢
    rw [log2_mul_two_pow hm]
    omega
  have hextends : Extends (.ofMantissaAndAccuracy (m * 2 ^ d) .exact)
      (m * 2 ^ e / 2 ^ (e - d : ℤ)) := by
    have hvalue : (m * 2 ^ e / 2 ^ (e - d : ℤ) : ℚ) = (m * 2 ^ d : ℕ) := by
      rw [mul_div_assoc, ← zpow_sub₀ (by norm_num), sub_sub_cancel, zpow_natCast]
      push_cast
      rfl
    rw [hvalue]
    exact extends_exact _
  rw [hround]
  exact exists_toRat?_roundWithAccuracy hextends htarget (by omega)

/-- The digits at a place are in range if the place is not the last one. -/
private theorem inRange?_signedValue (s : Sign) {r : ℕ} {t : ℤ} (hr : r ≤ 2 ^ 53) (ht : t ≤ 970) :
    inRange? (signedValue s r t) = some (signedValue s r t) := by
  refine inRange?_eq_some_iff.mpr ⟨?_, rfl⟩
  have hdigits : (r : ℚ) ≤ 2 ^ 53 := by exact_mod_cast hr
  have hplace : (2 : ℚ) ^ (t + 1) ≤ 2 ^ (971 : ℤ) := zpow_le_zpow_right₀ (by norm_num) (by omega)
  rw [abs_signedValue, largest]
  calc (r : ℚ) * 2 ^ t ≤ 2 ^ 53 * 2 ^ t := mul_le_mul_of_nonneg_right hdigits (by positivity)
    _ = 2 ^ 52 * 2 ^ (t + 1) := by
        rw [zpow_add_one₀ (by norm_num)]
        ring
    _ ≤ (2 ^ 53 - 1) * 2 ^ (971 : ℤ) :=
        mul_le_mul (by norm_num) hplace (by positivity) (by norm_num)

/-- A number of at most 53 digits is kept. -/
theorem toRat?_ofModel_pack_round {s : Sign} {m : ℕ} {e : ℤ} (hm : m ≠ 0) (hshort : m < 2 ^ 53)
    (hlow : -1074 ≤ e) (hhigh : e ≤ 970) :
    toRat? (.ofModel (.pack (UnpackedFloat.round .binary64 s m e))) = some (signedValue s m e) := by
  have hlog : m.log2 ≤ 52 := log2_le_of_lt hshort
  generalize ht : roundingExponent m e = t
  have hte : t ≤ e := by
    rw [← ht, roundingExponent, totalExponent]
    omega
  obtain ⟨r, hr, hnearest, hvalue⟩ := exists_toRat?_round (s := s) hm ht
  -- the number is integral at its place, so that none of its digits is dropped
  have hintegral : (m * 2 ^ e / 2 ^ t : ℚ) = ((m * 2 ^ (e - t).toNat : ℕ) : ℤ) := by
    rw [mul_div_assoc, ← zpow_sub₀ (by norm_num)]
    push_cast
    rw [← zpow_natCast, Int.toNat_of_nonneg (by omega)]
  rw [hintegral, nearestEven_intCast, Nat.cast_inj] at hnearest
  have hsame : signedValue s r t = signedValue s m e := by
    have hpow : ((m * 2 ^ (e - t).toNat : ℕ) : ℚ) * 2 ^ t = m * 2 ^ e := by
      have : ((m * 2 ^ (e - t).toNat : ℕ) : ℚ) = m * 2 ^ e / 2 ^ t := by
        rw [hintegral, Int.cast_natCast]
      rw [this, div_mul_cancel₀ _ (by positivity)]
    rw [hnearest]
    cases s <;> simp only [signedValue_positive, signedValue_negative, hpow]
  rw [hvalue, inRange?_signedValue s hr (by omega), hsame]

/-- The number nearest to a natural number of 53 digits or more has 53 digits, which are the nearest
ones, as long as it is not too large. -/
theorem exists_toRat?_ofScientific {n : ℕ} (h : 2 ^ 52 ≤ n) :
    ∃ k r : ℕ, 2 ^ (52 + k) ≤ n ∧ n < 2 ^ (53 + k) ∧ NearestEven ((n : ℚ) / 2 ^ k) r ∧
      (k ≤ 970 → toRat? (.ofModel (.ofScientific n 0)) = some ((r : ℚ) * 2 ^ k)) ∧
      ∀ q, toRat? (.ofModel (.ofScientific n 0)) = some q → q = r * 2 ^ k := by
  have hne : n ≠ 0 := by
    rintro rfl
    omega
  obtain ⟨k, hk⟩ : ∃ k, n.log2 = 52 + k := ⟨n.log2 - 52, by
    have := (Nat.le_log2 hne).mpr h
    omega⟩
  -- the digits are multiplied by `2 ^ 53` first, which has no effect on what is rounded
  have hdigits : n <<< 53 * 10 ^ (0 : ℤ).toNat = n * 2 ^ 53 := by
    rw [Nat.shiftLeft_eq, Int.toNat_zero, Nat.pow_zero, Nat.mul_one]
  have hround : UnpackedFloat.ofScientific .binary64 n 0 =
      roundWithAccuracy .binary64 .positive (n * 2 ^ 53) (-53) .exact := by
    have hlow : ¬ (0 : ℤ) < -((2 ^ Format.binary64.exponentBits : ℤ) + n.log2) := by
      have : (0 : ℤ) < 2 ^ Format.binary64.exponentBits := by decide
      omega
    rw [UnpackedFloat.ofScientific, dif_neg hne, if_neg (by decide), if_neg hlow, if_pos le_rfl,
      ← hdigits]
    rfl
  have hlog : (n * 2 ^ 53).log2 = 105 + k := by
    rw [log2_mul_two_pow hne, hk]
    omega
  have ht : roundingExponent (n * 2 ^ 53) (-53) = k := by
    rw [roundingExponent, totalExponent, hlog]
    omega
  have hextends : Extends (.ofMantissaAndAccuracy (n * 2 ^ 53) .exact)
      ((n : ℚ) / 2 ^ (-53 : ℤ)) := by
    have hvalue : (n : ℚ) / 2 ^ (-53 : ℤ) = (n * 2 ^ 53 : ℕ) := by
      rw [zpow_neg, div_inv_eq_mul, zpow_ofNat, Nat.cast_mul, Nat.cast_pow, Nat.cast_ofNat]
    rw [hvalue]
    exact extends_exact _
  obtain ⟨r, hr, hnearest, hvalue⟩ :=
    exists_toRat?_roundWithAccuracy (s := .positive) hextends ht (by omega)
  rw [zpow_natCast] at hnearest
  rw [← hround] at hvalue
  refine ⟨k, r, ?_, ?_, hnearest, ?_, ?_⟩
  · exact hk ▸ Nat.log2_self_le hne
  · rw [Nat.add_right_comm 52 1 k, ← hk]
    exact Nat.lt_log2_self
  · intro hsmall
    rw [Float.Model.ofScientific, hvalue, inRange?_signedValue _ hr (by omega),
      signedValue_positive, zpow_natCast]
  · intro q hq
    rw [Float.Model.ofScientific, hvalue, inRange?_eq_some_iff, signedValue_positive,
      zpow_natCast] at hq
    exact hq.2.symm

/-! ### Integers -/

/-- An integer of at most 53 digits is a number. -/
theorem toRat?_ofNat {n : ℕ} (h : n < 2 ^ 53) : toRat? (ofNat n) = some (n : ℚ) := by
  obtain rfl | hpos := Nat.eq_zero_or_pos n
  · rfl
  · have hround : UnpackedFloat.ofNat .binary64 n =
        UnpackedFloat.round .binary64 .positive n 0 := by
      have hgt : compare (n : ℤ) 0 = .gt := compare_gt_iff_gt.mpr (by omega)
      rw [UnpackedFloat.ofNat, UnpackedFloat.ofInt, UnpackedFloat.normalize, hgt]
      rfl
    rw [ofNat, Float.Model.ofNat, hround,
      toRat?_ofModel_pack_round hpos.ne' h (by decide) (by decide), signedValue_positive,
      zpow_zero, mul_one]

private theorem toRat?_ofMagnitude (s : Sign) {n : ℕ} (h : n < 2 ^ 53) :
    toRat? (ofMagnitude s n) = some ((s.apply n : ℤ) : ℚ) := by
  cases s with
  | positive => exact toRat?_ofNat h
  | negative =>
    rw [ofMagnitude, toRat?_neg, toRat?_ofNat h]
    exact congrArg some (Int.cast_neg _).symm

/-- A value without a fraction is an integer. -/
theorem signedValue_of_nonneg (s : Sign) (m : ℕ) {e : ℤ} (h : 0 ≤ e) :
    signedValue s m e = (s.apply (m * Nat.pow 2 e.toNat : ℕ) : ℤ) := by
  have hpow : (2 : ℚ) ^ e = 2 ^ e.toNat := by
    rw [← zpow_natCast, Int.toNat_of_nonneg h]
  cases s <;> simp [signedValue, Sign.apply, hpow]

/-- A value without a positive exponent is a fraction. -/
theorem mul_zpow_of_nonpos (m : ℕ) {e : ℤ} (h : e ≤ 0) :
    (m : ℚ) * 2 ^ e = m / 2 ^ (-e).toNat := by
  rw [div_eq_mul_inv, ← zpow_natCast, ← zpow_neg, Int.toNat_of_nonneg (by omega), neg_neg]

/-- A number that is rounded to an integral one is the rounded magnitude with the sign. -/
theorem toRat?_integral_of_unpack (direction : Rounding) {s : Sign} {m : ℕ} {e : ℤ} {hm : 0 < m}
    (hx : x.toModel.unpack = .finite s m e hm) :
    toRat? (integral direction x) =
      some ((s.apply (roundedMagnitude direction s m e) : ℤ) : ℚ) := by
  rw [integral, hx, roundedMagnitude]
  simp only
  split
  · rename_i he
    rw [← signedValue_of_nonneg s m he, toRat?, hx]
    rfl
  · rename_i he
    refine toRat?_ofMagnitude s ?_
    have hmag := direction.magnitude_le (s == .negative) m (-e).toNat
    have hhalf : m / Nat.pow 2 (-e).toNat ≤ m / 2 :=
      Nat.div_le_div_left (Nat.le_self_pow (by omega) 2) (by decide)
    have hdigits := (canonical_of_unpack hx).digits
    omega

/-- A number that is rounded to an integral one becomes the nearest integer. -/
theorem exists_toRat?_integral (h : toRat? x = some q) :
    ∃ n : ℤ, NearestEven q n ∧ toRat? (integral .halfEven x) = some (n : ℚ) := by
  obtain ⟨s, hx, rfl⟩ | ⟨s, m, e, hm, hx, rfl⟩ := exists_unpack_of_toRat? h
  · have hsame : integral .halfEven x = x := by rw [integral, hx]
    refine ⟨0, ?_, by rw [hsame, h, Int.cast_zero]⟩
    exact_mod_cast nearestEven_intCast.mpr rfl
  · refine ⟨_, ?_, toRat?_integral_of_unpack .halfEven hx⟩
    rw [roundedMagnitude]
    split
    · rename_i he
      exact signedValue_of_nonneg s m he ▸ nearestEven_intCast.mpr rfl
    · rename_i he
      have hnearest := nearestEven_magnitude (s == .negative) m (-e).toNat
      rw [← mul_zpow_of_nonpos m (by omega)] at hnearest
      cases s with
      | positive => exact hnearest
      | negative =>
        rw [signedValue_negative]
        exact hnearest.neg

/-- An integral value is its magnitude with its sign. -/
private theorem natAbs_of_signedValue {s : Sign} {m : ℕ} {e n : ℤ}
    (h : (n : ℚ) = signedValue s m e) :
    (m : ℚ) * 2 ^ e = n.natAbs ∧ s.apply n.natAbs = n := by
  have hpos : (0 : ℚ) ≤ m * 2 ^ e := by positivity
  cases s with
  | positive =>
    rw [signedValue_positive] at h
    have hn : 0 ≤ n := by exact_mod_cast h ▸ hpos
    refine ⟨?_, Int.natAbs_of_nonneg hn⟩
    rw [← h, Nat.cast_natAbs, abs_of_nonneg hn]
  | negative =>
    rw [signedValue_negative] at h
    have hn : n ≤ 0 := by exact_mod_cast h ▸ neg_nonpos.mpr hpos
    refine ⟨?_, ?_⟩
    · rw [Nat.cast_natAbs, abs_of_nonpos hn, Int.cast_neg, h, neg_neg]
    · change -(n.natAbs : ℤ) = n
      omega

/-- An integral magnitude is kept, in whatever direction it is rounded. -/
private theorem roundedMagnitude_of_eq (direction : Rounding) (s : Sign) {m n : ℕ} {e : ℤ}
    (h : (m : ℚ) * 2 ^ e = n) : roundedMagnitude direction s m e = n := by
  rw [roundedMagnitude]
  split
  · rename_i he
    rw [← Int.toNat_of_nonneg he, zpow_natCast] at h
    exact_mod_cast h
  · rename_i he
    -- no digit stands behind the point
    have hm : m = n * Nat.pow 2 (-e).toNat := by
      rw [mul_zpow_of_nonpos m (by omega), div_eq_iff (by positivity)] at h
      exact_mod_cast h
    rw [direction.magnitude_of_dvd _ (Dvd.intro_left n hm.symm), hm]
    exact Nat.mul_div_cancel _ (Nat.two_pow_pos _)

theorem toInt?_of_toRat? {direction : Rounding} {n : ℤ} (h : toRat? x = some (n : ℚ)) :
    toInt? direction x = some n := by
  obtain ⟨s, hx, hn⟩ | ⟨s, m, e, hm, hx, hn⟩ := exists_unpack_of_toRat? h
  · rw [toInt?, hx, Int.cast_eq_zero.mp hn]
  · obtain ⟨hmagnitude, hsign⟩ := natAbs_of_signedValue hn
    rw [toInt?, hx]
    simp only [roundedMagnitude_of_eq direction s hmagnitude, hsign]

end TypedFormula.Binary64
