import TypedFormula.Decimal.Shortest
import TypedFormula.Proofs.Binary64.Rounded

/-!
# Shortest decimals read back

The reals that round to a binary64 number form an interval around it (`Binary.Covers`), whose ends
belong to it when the last digit of the number is even. A decimal that is chosen lies in the
interval, since this is what the search tests, and so it rounds to the number
(`rounded_of_covers`). What has to be proved of the search is that it finds one. It starts at the
grid of the leading digit and goes through seventeen of them. The last one is finer than the
interval is wide, and of two neighbours on such a grid, one below the number and one above it, one
lies in the interval (`exists_nearby?`).

Main statement: `rounded_shortest` — the shortest decimal rounds to the number.
-/

namespace TypedFormula.Decimal

open Binary64

variable {b : Binary} {d : Decimal} {g q : ℤ} {c n steps : ℕ} {r : ℚ} {tie : Tie}

/-! ### Values -/

/-- The rational number that a decimal writes. -/
def value (d : Decimal) : ℚ := d.digits * 10 ^ d.exponent

/-- The rational number that binary digits and an exponent stand for. -/
def Binary.value (b : Binary) : ℚ := b.m * 2 ^ b.q

private theorem value_strip (d : Decimal) : d.strip.value = d.value := by
  induction d using strip.induct with
  | case1 d h ih =>
    have hdigits : d.digits = d.digits / 10 * 10 := by omega
    have hcast : (d.digits : ℚ) = (d.digits / 10 : ℕ) * 10 := by exact_mod_cast hdigits
    rw [strip, dif_pos h, ih, value, value, zpow_add_one₀ (by norm_num), hcast]
    ring
  | case2 d h => rw [strip, dif_neg h]

/-! ### The leading digit -/

private theorem lt_pow_digitCount (n : ℕ) : n < 10 ^ digitCount n := by
  induction n using digitCount.induct with
  | case1 => exact Nat.pow_pos (by decide)
  | case2 n h ih =>
    rw [digitCount, dif_neg h, Nat.pow_succ]
    omega

private theorem exists_digitCount_eq (hn : 0 < n) : ∃ k, digitCount n = k + 1 ∧ 10 ^ k ≤ n := by
  induction n using digitCount.induct with
  | case1 => exact absurd hn (by decide)
  | case2 n h ih =>
    rw [digitCount, dif_neg h]
    obtain hsmall | hlarge := Nat.eq_zero_or_pos (n / 10)
    · refine ⟨0, ?_, hn⟩
      rw [hsmall, digitCount, dif_pos rfl]
    · obtain ⟨k, hk, hle⟩ := ih hlarge
      refine ⟨k + 1, by rw [hk], ?_⟩
      rw [Nat.pow_succ]
      omega

private theorem ten_zpow_digitCount_le (hn : 0 < n) : (10 : ℚ) ^ (digitCount n - 1 : ℤ) ≤ n := by
  obtain ⟨k, hk, hle⟩ := exists_digitCount_eq hn
  rw [hk, Nat.cast_add_one, add_sub_cancel_right, zpow_natCast]
  exact_mod_cast hle

/-- A quotient is at most the power of ten above the largest integer that is below it. -/
private theorem le_pow_digitCount_mul {den m : ℕ} (hm : 0 < m) :
    den ≤ 10 ^ digitCount ((den + m - 1) / m - 1) * m := by
  have hcount := lt_pow_digitCount ((den + m - 1) / m - 1)
  have hdiv := Nat.div_add_mod (den + m - 1) m
  have hmod := Nat.mod_lt (den + m - 1) hm
  calc den ≤ (den + m - 1) / m * m := by
        rw [Nat.mul_comm]
        omega
    _ ≤ 10 ^ digitCount ((den + m - 1) / m - 1) * m := Nat.mul_le_mul_right _ (by omega)

/-- The power of ten of the leading digit is not above the number. -/
private theorem ten_zpow_leading_le (hm : 0 < b.m) : (10 : ℚ) ^ b.leading ≤ b.value := by
  have hm' : (0 : ℚ) < b.m := by exact_mod_cast hm
  rw [Binary.leading, Binary.value]
  split
  · rename_i hq
    have hpow : (2 : ℚ) ^ b.q = (Nat.pow 2 b.q.toNat : ℕ) := by
      rw [Nat.pow_eq, Nat.cast_pow, Nat.cast_ofNat, ← zpow_natCast, Int.toNat_of_nonneg hq]
    rw [hpow, ← Nat.cast_mul]
    exact ten_zpow_digitCount_le (Nat.mul_pos hm (Nat.two_pow_pos _))
  · rename_i hq
    have hden : (2 : ℚ) ^ b.q = ((Nat.pow 2 (-b.q).toNat : ℕ) : ℚ)⁻¹ := by
      rw [Nat.pow_eq, Nat.cast_pow, Nat.cast_ofNat, ← zpow_natCast, Int.toNat_of_nonneg (by omega),
        zpow_neg, inv_inv]
    have hpos : 0 < Nat.pow 2 (-b.q).toNat := Nat.two_pow_pos _
    generalize Nat.pow 2 (-b.q).toNat = den at hden hpos
    have hpos' : (0 : ℚ) < den := by exact_mod_cast hpos
    rw [hden, ← div_eq_mul_inv]
    simp only
    split
    · rename_i hle
      exact (ten_zpow_digitCount_le (Nat.div_pos hle hpos)).trans Nat.cast_div_le
    · -- the digits are counted in the inverse
      rw [zpow_neg, zpow_natCast, inv_le_comm₀ (by positivity) (by positivity), inv_div,
        div_le_iff₀ hm']
      exact_mod_cast le_pow_digitCount_mul hm

/-! ### The interval -/

/-- Whether a rational number lies in the interval around a number, whose ends belong to it when
the last digit of the number is even. -/
structure Binary.Covers (b : Binary) (r : ℚ) : Prop where
  /-- The lower end is not above. -/
  lower_le : b.lower * 2 ^ (b.q - 2) ≤ r
  /-- The upper end is not below. -/
  le_upper : r ≤ b.upper * 2 ^ (b.q - 2)
  /-- The ends belong to even numbers. -/
  even : r = b.lower * 2 ^ (b.q - 2) ∨ r = b.upper * 2 ^ (b.q - 2) → Even b.m

private theorem covers_of_lt (hlow : b.lower * 2 ^ (b.q - 2) < r)
    (hhigh : r < b.upper * 2 ^ (b.q - 2)) :
    b.Covers r where
  lower_le := hlow.le
  le_upper := hhigh.le
  even h := by
    rcases h with h | h
    · exact absurd h hlow.ne'
    · exact absurd h hhigh.ne

/-- The lower end is half a unit below, or a quarter below a power of two. -/
private theorem lower_cases (hm : 0 < b.m) :
    b.m = 2 ^ 52 ∧ -1074 < b.q ∧ (b.lower : ℚ) = 4 * b.m - 1 ∨
      ¬ (b.m = 2 ^ 52 ∧ -1074 < b.q) ∧ (b.lower : ℚ) = 4 * b.m - 2 := by
  rw [Binary.lower]
  split
  · rename_i h
    refine .inl ⟨h.1, h.2, ?_⟩
    rw [Nat.cast_sub (by omega)]
    push_cast
    rfl
  · rename_i h
    refine .inr ⟨h, ?_⟩
    rw [Nat.cast_sub (by omega)]
    push_cast
    rfl

private theorem upper_eq (b : Binary) : (b.upper : ℚ) = 4 * b.m + 2 := by
  rw [Binary.upper]
  push_cast
  rfl

private theorem two_zpow_eq_quarters (q : ℤ) : (2 : ℚ) ^ q = 4 * 2 ^ (q - 2) := by
  rw [zpow_sub₀ (by norm_num), zpow_ofNat]
  ring

private theorem value_eq_quarters (b : Binary) : b.value = 4 * b.m * 2 ^ (b.q - 2) := by
  rw [Binary.value, two_zpow_eq_quarters]
  ring

private theorem lastPlace_eq (hq : -1074 ≤ q) (hlow : (2 : ℚ) ^ (q + 52) ≤ r ∨ q = -1074)
    (hhigh : |r| < 2 ^ (q + 53)) : lastPlace r = q := by
  refine le_antisymm (lastPlace_le hq hhigh) ?_
  rcases hlow with hlow | hleast
  · have hlt := hlow.trans_lt ((le_abs_self r).trans_lt (abs_lt_of_lastPlace r))
    have hexponent := (zpow_lt_zpow_iff_right₀ (by norm_num)).mp hlt
    omega
  · exact hleast ▸ le_lastPlace r

/-- A number is rounded to the multiple at its last place that is nearest. -/
private theorem rounded_eq_of_lastPlace {k : ℤ} (hplace : lastPlace r = q)
    (hclose : |r - k * 2 ^ q| ≤ 2 ^ q / 2) (heven : |r - k * 2 ^ q| = 2 ^ q / 2 → Even k) :
    rounded r = k * 2 ^ q := by
  have hpos : (0 : ℚ) < 2 ^ q := by positivity
  have hscale : |r / 2 ^ q - k| = |r - k * 2 ^ q| / 2 ^ q := by
    rw [div_sub' hpos.ne', abs_div, abs_of_pos hpos, mul_comm (2 ^ q : ℚ)]
  have hnearest : NearestEven (r / 2 ^ q) k := by
    rw [nearestEven_iff, hscale, div_le_iff₀ hpos, div_eq_iff hpos.ne']
    exact ⟨by linarith, fun htie => heven (by linarith)⟩
  rw [rounded, hplace, (nearestEven_nearestInt _).unique hnearest]

/-- What is covered by a number and has its last place rounds to it. -/
private theorem rounded_of_covers_of_lastPlace (hm : 0 < b.m) (hr : b.Covers r)
    (hplace : lastPlace r = b.q) : rounded r = b.value := by
  obtain ⟨hlow, hhigh, heven⟩ := hr
  have hunit := two_zpow_eq_quarters b.q
  have hpos : (0 : ℚ) < 2 ^ (b.q - 2) := by positivity
  rw [upper_eq] at hhigh heven
  have hround := rounded_eq_of_lastPlace (k := b.m) hplace ?_ ?_
  · exact_mod_cast hround
  · rw [abs_le, hunit]
    push_cast
    obtain ⟨-, -, hlower⟩ | ⟨-, hlower⟩ := lower_cases hm <;>
    · rw [hlower] at hlow
      constructor <;> linarith
  · -- half a unit away is an end of the interval
    intro htie
    rw [hunit] at htie
    push_cast at htie
    refine (Int.even_coe_nat _).mpr (heven ?_)
    obtain ⟨hdist, -⟩ | ⟨hdist, -⟩ := abs_cases (r - b.m * (4 * 2 ^ (b.q - 2)))
    · right
      linarith
    · left
      obtain ⟨-, -, hlower⟩ | ⟨-, hlower⟩ := lower_cases hm <;> rw [hlower] at hlow ⊢ <;> linarith

/-- What is covered by a power of two from below, where there is one place more, rounds to it. -/
private theorem rounded_of_covers_of_lt (hm : b.m = 2 ^ 52) (hq : -1074 < b.q) (hr : b.Covers r)
    (hbelow : r < 2 ^ (b.q + 52)) : rounded r = b.value := by
  have hm' : (b.m : ℚ) = 2 ^ 52 := by exact_mod_cast hm
  have hlow := hr.lower_le
  obtain ⟨-, -, hlower⟩ | ⟨hpower, -⟩ := lower_cases (hm ▸ Nat.two_pow_pos 52)
  · have hpos : (0 : ℚ) < 2 ^ (b.q - 2) := by positivity
    have hunit : (2 : ℚ) ^ (b.q - 1) = 2 * 2 ^ (b.q - 2) := by
      rw [← zpow_one_add₀ (by norm_num)]
      congr 1
      omega
    rw [zpow_add₀ (by norm_num), two_zpow_eq_quarters, zpow_ofNat] at hbelow
    rw [hlower, hm'] at hlow
    have hnonneg : 0 ≤ r := by linarith
    have hplace : lastPlace r = b.q - 1 := by
      refine lastPlace_eq (by omega) (.inl ?_) ?_
      · rw [zpow_add₀ (by norm_num), hunit, zpow_ofNat]
        linarith
      · rw [abs_of_nonneg hnonneg, zpow_add₀ (by norm_num), hunit, zpow_ofNat]
        linarith
    have hround := rounded_eq_of_lastPlace (k := 2 * b.m) hplace ?_ fun _ => even_two_mul _
    · rw [hround, value_eq_quarters, hunit]
      push_cast
      ring
    · rw [abs_le, hunit]
      push_cast
      rw [hm']
      constructor <;> linarith
  · exact absurd ⟨hm, hq⟩ hpower

/-- What is covered by a number rounds to it. -/
theorem rounded_of_covers (h : Canonical b.m b.q) (hm : 0 < b.m) (hr : b.Covers r) :
    rounded r = b.value := by
  have hpos : (0 : ℚ) < 2 ^ (b.q - 2) := by positivity
  have hlow := hr.lower_le
  by_cases hplace : 2 ^ (b.q + 52) ≤ r ∨ b.q = -1074
  · refine rounded_of_covers_of_lastPlace hm hr (lastPlace_eq h.exponent hplace ?_)
    have hdigits : (b.m : ℚ) + 1 ≤ 2 ^ 53 := by exact_mod_cast h.digits
    have hhigh := hr.le_upper
    have hnonneg : 0 ≤ r := le_trans (by positivity) hlow
    rw [upper_eq] at hhigh
    rw [abs_of_nonneg hnonneg, zpow_add₀ (by norm_num), two_zpow_eq_quarters, zpow_ofNat]
    nlinarith
  · obtain ⟨hbelow, hq⟩ := not_or.mp hplace
    rw [not_le] at hbelow
    have hexponent := h.exponent
    refine rounded_of_covers_of_lt ?_ (by omega) hr hbelow
    -- what another number covers is not below the power of two
    by_contra hne
    have hmore : 2 ^ 52 + 1 ≤ b.m := by
      have hfull : 2 ^ 52 ≤ b.m := h.full.resolve_right hq
      omega
    have hmore' : (2 : ℚ) ^ 52 + 1 ≤ b.m := by exact_mod_cast hmore
    rw [zpow_add₀ (by norm_num), two_zpow_eq_quarters, zpow_ofNat] at hbelow
    obtain ⟨hpower, -, -⟩ | ⟨-, hlower⟩ := lower_cases hm
    · exact hne hpower
    · rw [hlower] at hlow
      nlinarith

/-! ### The search -/

/-- A power is one that is multiplied or divided by, whichever its sign says. -/
private theorem pow_toNat_eq {a : ℚ} (ha : a ≠ 0) (k : ℤ) :
    a ^ k.toNat = a ^ (-k).toNat * a ^ k := by
  rw [← zpow_natCast, ← zpow_natCast, ← zpow_add₀ ha]
  congr 1
  omega

/-- The two factors bring quarters and the grid to one unit. -/
private theorem exists_factor (b : Binary) (g : ℤ) (n c : ℕ) :
    ∃ factor : ℚ, 0 < factor ∧
      (n * b.binaryFactor g : ℕ) * (2 : ℚ) ^ (b.q - 2) = factor * (n * 2 ^ (b.q - 2)) ∧
      (c * b.decimalFactor g : ℕ) * (2 : ℚ) ^ (b.q - 2) = factor * (c * 10 ^ g) := by
  have hten := pow_toNat_eq (a := 10) (by norm_num) g
  have htwo := pow_toNat_eq (a := 2) (by norm_num) (2 - b.q)
  have hunit : (2 : ℚ) ^ (2 - b.q) * 2 ^ (b.q - 2) = 1 := by
    rw [← zpow_add₀ (by norm_num), sub_add_sub_cancel, sub_self, zpow_zero]
  rw [neg_sub] at htwo
  refine ⟨10 ^ (-g).toNat * 2 ^ (b.q - 2).toNat, by positivity, ?_, ?_⟩
  · simp only [Binary.binaryFactor, Nat.pow_eq]
    push_cast
    ring
  · simp only [Binary.decimalFactor, Nat.pow_eq]
    push_cast
    calc (c : ℚ) * (10 ^ g.toNat * 2 ^ (2 - b.q).toNat) * 2 ^ (b.q - 2)
        = c * (10 ^ (-g).toNat * 10 ^ g * (2 ^ (b.q - 2).toNat * 2 ^ (2 - b.q))) *
            2 ^ (b.q - 2) := by rw [hten, htwo]
      _ = 10 ^ (-g).toNat * 2 ^ (b.q - 2).toNat * (c * 10 ^ g) *
            (2 ^ (2 - b.q) * 2 ^ (b.q - 2)) := by ring
      _ = 10 ^ (-g).toNat * 2 ^ (b.q - 2).toNat * (c * 10 ^ g) := by rw [hunit, mul_one]

private theorem mul_binaryFactor_le_iff :
    n * b.binaryFactor g ≤ c * b.decimalFactor g ↔ (n : ℚ) * 2 ^ (b.q - 2) ≤ c * 10 ^ g := by
  obtain ⟨factor, hpos, hbinary, hdecimal⟩ := exists_factor b g n c
  rw [← mul_le_mul_iff_right₀ hpos, ← hbinary, ← hdecimal,
    mul_le_mul_iff_left₀ (by positivity), Nat.cast_le]

private theorem mul_decimalFactor_le_iff :
    c * b.decimalFactor g ≤ n * b.binaryFactor g ↔ (c : ℚ) * 10 ^ g ≤ n * 2 ^ (b.q - 2) := by
  obtain ⟨factor, hpos, hbinary, hdecimal⟩ := exists_factor b g n c
  rw [← mul_le_mul_iff_right₀ hpos, ← hbinary, ← hdecimal,
    mul_le_mul_iff_left₀ (by positivity), Nat.cast_le]

/-- The test is whether the decimal is covered. -/
private theorem holds_iff : b.holds g c = true ↔ b.Covers (c * 10 ^ g) := by
  have hlow := mul_binaryFactor_le_iff (n := b.lower) (b := b) (g := g) (c := c)
  have hhigh := mul_decimalFactor_le_iff (n := b.upper) (b := b) (g := g) (c := c)
  have hlow' := mul_decimalFactor_le_iff (n := b.lower) (b := b) (g := g) (c := c)
  have hhigh' := mul_binaryFactor_le_iff (n := b.upper) (b := b) (g := g) (c := c)
  have hclosed : b.closed = true ↔ Even b.m := by
    rw [Binary.closed, beq_iff_eq, Nat.even_iff]
  rw [Binary.holds]
  split
  · rename_i heven
    rw [decide_eq_true_eq, hlow, hhigh]
    exact ⟨fun h => ⟨h.1, h.2, fun _ => hclosed.mp heven⟩, fun h => ⟨h.lower_le, h.le_upper⟩⟩
  · rename_i hodd
    rw [decide_eq_true_eq, ← not_le, ← not_le, hlow', hhigh', not_le, not_le]
    refine ⟨fun h => covers_of_lt h.1 h.2, fun h => ?_⟩
    have hne := fun hend => hodd (hclosed.mpr (h.even hend))
    obtain ⟨hne, hne'⟩ := not_or.mp hne
    exact ⟨h.lower_le.lt_of_ne' hne, h.le_upper.lt_of_ne hne'⟩

/-- On a grid that is finer than the interval is wide, one of the two neighbours of the number is
covered. -/
private theorem holds_or_holds_succ (hm : 0 < b.m)
    (h : (10 : ℚ) ^ g < (b.upper - b.lower) * 2 ^ (b.q - 2))
    (hc : b.centre * b.binaryFactor g / b.decimalFactor g = c) :
    b.holds g c = true ∨ b.holds g (c + 1) = true := by
  have hunit : (0 : ℚ) < 2 ^ (b.q - 2) := by positivity
  have hupper := upper_eq b
  have hcentre : (b.centre : ℚ) = 4 * b.m := by
    rw [Binary.centre]
    push_cast
    rfl
  have hlower : (b.lower : ℚ) < 4 * b.m := by
    obtain ⟨-, -, hlower⟩ | ⟨-, hlower⟩ := lower_cases hm <;> linarith
  have hbelow : (c : ℚ) * 10 ^ g ≤ b.centre * 2 ^ (b.q - 2) :=
    mul_decimalFactor_le_iff.mp (hc ▸ Nat.div_mul_le_self _ _)
  have habove : b.centre * 2 ^ (b.q - 2) < (c + 1 : ℕ) * (10 : ℚ) ^ g := by
    have hfactor : 0 < b.decimalFactor g :=
      Nat.mul_pos (Nat.pow_pos (by decide)) (Nat.two_pow_pos _)
    rw [← not_le, ← mul_decimalFactor_le_iff, not_le, ← hc, Nat.mul_comm _ (b.decimalFactor g)]
    exact Nat.lt_mul_div_succ _ hfactor
  rw [hcentre] at hbelow habove
  rw [holds_iff, holds_iff]
  -- otherwise the interval would lie between the neighbours
  by_contra hneither
  obtain ⟨hfloor, hceil⟩ := not_or.mp hneither
  have hend : (c : ℚ) * 10 ^ g ≤ b.lower * 2 ^ (b.q - 2) := by
    by_contra hgt
    exact hfloor (covers_of_lt (not_le.mp hgt) (hbelow.trans_lt (by nlinarith)))
  have hend' : b.upper * 2 ^ (b.q - 2) ≤ (c + 1 : ℕ) * (10 : ℚ) ^ g := by
    by_contra hlt
    exact hceil (covers_of_lt (lt_trans (by nlinarith) habove) (not_le.mp hlt))
  push_cast at hend'
  linarith

/-- On such a grid one of them is chosen. -/
theorem exists_nearby? (tie : Tie) (hm : 0 < b.m)
    (h : (10 : ℚ) ^ g < (b.upper - b.lower) * 2 ^ (b.q - 2)) :
    ∃ c, nearby? tie b g = some c := by
  simp only [nearby?]
  generalize hc : b.centre * b.binaryFactor g / b.decimalFactor g = c
  have hholds := holds_or_holds_succ hm h hc
  cases hfloor : b.holds g c with
  | true =>
    cases b.holds g (c + 1) with
    | true =>
      simp only
      split
      · exact ⟨_, rfl⟩
      · split
        · exact ⟨_, rfl⟩
        · cases tie <;> exact ⟨_, rfl⟩
    | false => exact ⟨_, rfl⟩
  | false =>
    rw [hfloor] at hholds
    rw [hholds.resolve_left Bool.false_ne_true]
    exact ⟨_, rfl⟩

/-- The seventeenth grid is finer than the interval is wide. -/
private theorem ten_zpow_sub_lt (h : Canonical b.m b.q) (hm : 0 < b.m) :
    (10 : ℚ) ^ (b.leading - 16) < (b.upper - b.lower) * 2 ^ (b.q - 2) := by
  have hunit : (0 : ℚ) < 2 ^ (b.q - 2) := by positivity
  have hleading := ten_zpow_leading_le hm
  have hdigits : (b.m : ℚ) + 1 ≤ 2 ^ 53 := by exact_mod_cast h.digits
  have hsplit : (10 : ℚ) ^ b.leading = 10 ^ (b.leading - 16) * 10 ^ 16 := by
    rw [← zpow_natCast, ← zpow_add₀ (by norm_num), Nat.cast_ofNat, sub_add_cancel]
  rw [value_eq_quarters, hsplit] at hleading
  rw [upper_eq]
  obtain ⟨hpower, -, hlower⟩ | ⟨-, hlower⟩ := lower_cases hm
  · have hm' : (b.m : ℚ) = 2 ^ 52 := by exact_mod_cast hpower
    rw [hlower]
    rw [hm'] at hleading ⊢
    linarith
  · rw [hlower]
    nlinarith

private theorem nearby?_of_search (h : search tie b steps g = some d) :
    nearby? tie b d.exponent = some d.digits := by
  induction steps generalizing g with
  | zero => cases h
  | succ steps ih =>
    rw [search] at h
    split at h
    · rename_i c hc
      obtain rfl := Option.some.inj h
      exact hc
    · exact ih h

/-- The search finds something if there is something on its last grid. -/
private theorem exists_search (h : nearby? tie b (g - steps) = some c) :
    ∃ d, search tie b (steps + 1) g = some d := by
  induction steps generalizing g with
  | zero =>
    rw [Nat.cast_zero, sub_zero] at h
    rw [search, h]
    exact ⟨_, rfl⟩
  | succ steps ih =>
    rw [search]
    split
    · exact ⟨_, rfl⟩
    · refine ih ?_
      rw [Nat.cast_add_one] at h
      rwa [sub_sub, add_comm 1]

/-- The shortest decimal rounds to the number. -/
theorem rounded_shortest (tie : Tie) (h : Canonical b.m b.q) (hm : 0 < b.m) :
    rounded (shortest tie b).value = b.value := by
  obtain ⟨c, hc⟩ := exists_nearby? tie hm (ten_zpow_sub_lt h hm)
  obtain ⟨d, hd⟩ : ∃ d, search tie b 17 b.leading = some d := exists_search hc
  have hholds := holds_of_nearby? (nearby?_of_search hd)
  rw [shortest, hd, Option.getD_some, value_strip]
  exact rounded_of_covers h hm (holds_iff.mp hholds)

end TypedFormula.Decimal
