import Mathlib
import TypedFormula.Proofs.Binary64.Nearest

/-!
# Rational numbers rounded to 53 digits

A calculation of binary64 is an exact one whose result is rounded, and what can be said about its
order, its error and its exactness is said about the rounding. Here this is a function on rational
numbers (`rounded`): a number is cut at its last place (`lastPlace`), which is 52 places below its
first digit but not below `2 ^ (-1074)`, to the nearest multiple, a tie going to the even one.
Exponents have no upper end here, so nothing overflows.

Two notions carry the proofs. A number is a multiple of `2 ^ e` (`IsMultiple`), which sums keep and
rounding keeps as well; and it has room in 53 digits (`Representable`), for which a place and a
bound are enough. Rounding is known by what it does not miss: no representable number is nearer
(`abs_sub_rounded_le`). From this it follows that it is monotone, and every bound on an error is the
distance of some candidate.

Main statements:

* `rounded_of_representable`, `representable_rounded` — what is rounded has room, and stays;
* `abs_sub_rounded_le`, `rounded_mono`, `rounded_neg` — nearest, monotone, symmetric;
* `representable_sub_rounded` — the error of a sum is representable;
* `representable_rounded_sub` — and so is the rounded sum without its larger summand.
-/

namespace TypedFormula.Binary64

variable {p q c : ℚ} {e f k : ℤ}

/-! ### The nearest integer -/

/-- The integer nearest to a rational number, the even one of two. -/
def nearestInt (q : ℚ) : ℤ :=
  if Int.fract q < 1 / 2 then ⌊q⌋
  else if 1 / 2 < Int.fract q then ⌊q⌋ + 1
  else ⌊q⌋ + ⌊q⌋ % 2

/-- It is nearest. -/
theorem nearestEven_nearestInt (q : ℚ) : NearestEven q (nearestInt q) := by
  have hvalue : ∀ {n : ℤ}, NearestEven (⌊q⌋ + Int.fract q) n → NearestEven q n := by
    intro n h
    rwa [Int.floor_add_fract] at h
  rw [nearestInt]
  split
  · rename_i hless
    exact hvalue (nearestEven_of_lt_half (Int.fract_nonneg q) hless)
  · split
    · rename_i hmore
      exact hvalue (nearestEven_of_half_lt hmore (Int.fract_lt_one q))
    · rename_i hless hmore
      have htie : Int.fract q = 1 / 2 := le_antisymm (not_lt.mp hmore) (not_lt.mp hless)
      exact hvalue (htie ▸ nearestEven_of_tie ⌊q⌋)

/-! ### Places -/

/-- The last place of a number: the exponent of the 53rd digit, or the smallest exponent. -/
def lastPlace (q : ℚ) : ℤ := if q = 0 then -1074 else max (Int.log 2 |q| - 52) (-1074)

theorem le_lastPlace (q : ℚ) : -1074 ≤ lastPlace q := by
  rw [lastPlace]
  split
  · exact le_rfl
  · exact le_max_right _ _

/-- There are at most 53 digits up to the last place. -/
theorem abs_lt_of_lastPlace (q : ℚ) : |q| < 2 ^ (lastPlace q + 53) := by
  rw [lastPlace]
  split
  · rename_i hzero
    rw [hzero, abs_zero]
    positivity
  · have hlog : |q| < 2 ^ (Int.log 2 |q| + 1) := Int.lt_zpow_succ_log_self (by decide) _
    exact hlog.trans_le (zpow_le_zpow_right₀ (by norm_num) (by omega))

/-- There are 53 digits where the last place is not the smallest exponent. -/
theorem le_abs_of_lastPlace (h : -1074 < lastPlace q) : (2 : ℚ) ^ (lastPlace q + 52) ≤ |q| := by
  rw [lastPlace] at h ⊢
  split at h
  · omega
  · rename_i hne
    rw [if_neg hne]
    refine le_trans (zpow_le_zpow_right₀ (by norm_num) ?_)
      (Int.zpow_log_le_self (b := 2) (by decide) (abs_pos.mpr hne))
    omega

theorem lastPlace_le (he : -1074 ≤ e) (h : |q| < 2 ^ (e + 53)) : lastPlace q ≤ e := by
  by_contra hlt
  have hlow := le_abs_of_lastPlace (q := q) (by omega)
  have hpow : (2 : ℚ) ^ (e + 53) ≤ 2 ^ (lastPlace q + 52) :=
    zpow_le_zpow_right₀ (by norm_num) (by omega)
  linarith

private theorem lastPlace_neg (q : ℚ) : lastPlace (-q) = lastPlace q := by
  simp only [lastPlace, abs_neg, neg_eq_zero]

/-- A smaller number has no higher last place. -/
theorem lastPlace_mono (h : |p| ≤ |q|) : lastPlace p ≤ lastPlace q :=
  lastPlace_le (le_lastPlace q) (h.trans_lt (abs_lt_of_lastPlace q))

/-! ### Multiples -/

/-- Whether a number is a multiple of a power of two. -/
def IsMultiple (e : ℤ) (q : ℚ) : Prop := ∃ n : ℤ, q = n * 2 ^ e

/-- A multiple of a power of two is one of a smaller power. -/
theorem IsMultiple.mono (h : IsMultiple e q) (hfe : f ≤ e) : IsMultiple f q := by
  obtain ⟨n, rfl⟩ := h
  refine ⟨n * 2 ^ (e - f).toNat, ?_⟩
  have hpow : (2 : ℚ) ^ e = 2 ^ (e - f).toNat * 2 ^ f := by
    rw [← zpow_natCast, ← zpow_add₀ (by norm_num)]
    congr 1
    omega
  rw [hpow]
  push_cast
  ring

theorem IsMultiple.add (hp : IsMultiple e p) (hq : IsMultiple e q) : IsMultiple e (p + q) := by
  obtain ⟨m, rfl⟩ := hp
  obtain ⟨n, rfl⟩ := hq
  exact ⟨m + n, by push_cast; ring⟩

theorem IsMultiple.neg (hq : IsMultiple e q) : IsMultiple e (-q) := by
  obtain ⟨n, rfl⟩ := hq
  exact ⟨-n, by push_cast; ring⟩

theorem IsMultiple.sub (hp : IsMultiple e p) (hq : IsMultiple e q) : IsMultiple e (p - q) := by
  rw [sub_eq_add_neg]
  exact hp.add hq.neg

/-- Multiples are apart by the power of two at least. -/
theorem IsMultiple.le_sub (hp : IsMultiple e p) (hq : IsMultiple e q) (h : p < q) :
    p ≤ q - 2 ^ e := by
  obtain ⟨m, rfl⟩ := hp
  obtain ⟨n, rfl⟩ := hq
  have hpos : (0 : ℚ) < 2 ^ e := by positivity
  have hlt : (m : ℚ) < n := (mul_lt_mul_iff_left₀ hpos).mp h
  have hle : (m : ℚ) ≤ n - 1 := by
    have : m ≤ n - 1 := by
      have : m < n := by exact_mod_cast hlt
      omega
    exact_mod_cast this
  calc (m : ℚ) * 2 ^ e ≤ (n - 1) * 2 ^ e := mul_le_mul_of_nonneg_right hle hpos.le
    _ = n * 2 ^ e - 2 ^ e := by ring

theorem IsMultiple.abs (h : IsMultiple e q) : IsMultiple e |q| := by
  obtain hq | hq := abs_choice q
  · rwa [hq]
  · rw [hq]
    exact h.neg

private theorem isMultiple_two_zpow (h : f ≤ e) : IsMultiple f ((2 : ℚ) ^ e) :=
  IsMultiple.mono ⟨1, by rw [Int.cast_one, one_mul]⟩ h

/-- A number that has room in 53 digits, whatever its exponent above the smallest one is. -/
def Representable (q : ℚ) : Prop := ∃ e, -1074 ≤ e ∧ IsMultiple e q ∧ |q| ≤ 2 ^ (e + 53)

/-- A representable number is a multiple at its last place. -/
theorem Representable.isMultiple (h : Representable q) : IsMultiple (lastPlace q) q := by
  obtain ⟨e, he, hmultiple, hle⟩ := h
  obtain hlt | heq := hle.lt_or_eq
  · exact hmultiple.mono (lastPlace_le he hlt)
  · -- a power of two has its last place one higher
    have hplace : lastPlace q ≤ e + 1 := by
      refine lastPlace_le (by omega) ?_
      rw [heq]
      exact zpow_lt_zpow_right₀ (by norm_num) (by omega)
    obtain hq | hq := eq_or_eq_neg_of_abs_eq heq
    · exact (hq ▸ isMultiple_two_zpow (by omega) : IsMultiple (e + 1) q).mono hplace
    · exact (hq ▸ (isMultiple_two_zpow (by omega)).neg : IsMultiple (e + 1) q).mono hplace

theorem Representable.neg (h : Representable q) : Representable (-q) := by
  obtain ⟨e, he, hmultiple, hle⟩ := h
  exact ⟨e, he, hmultiple.neg, by rwa [abs_neg]⟩

theorem representable_abs : Representable |q| ↔ Representable q := by
  obtain hq | hq := abs_choice q
  · rw [hq]
  · rw [hq]
    exact ⟨fun h => neg_neg q ▸ h.neg, Representable.neg⟩

/-- A power of two that is not too small is representable. -/
theorem representable_two_zpow (h : -1074 ≤ e) : Representable ((2 : ℚ) ^ e) := by
  refine ⟨e, h, isMultiple_two_zpow le_rfl, ?_⟩
  rw [abs_of_pos (by positivity)]
  exact zpow_le_zpow_right₀ (by norm_num) (by omega)

theorem representable_intCast {n : ℤ} (h : |n| ≤ 2 ^ 53) : Representable n := by
  refine ⟨0, by decide, ⟨n, by rw [zpow_zero, mul_one]⟩, ?_⟩
  rw [zero_add]
  exact_mod_cast h

theorem representable_zero : Representable 0 := by
  exact_mod_cast representable_intCast (n := 0) (by decide)

/-- A representable number with an even last place is representable when it is halved. -/
theorem Representable.half (h : Representable q) (heven : IsMultiple (-1073) q) :
    Representable (q / 2) := by
  have hpow : ∀ e : ℤ, (2 : ℚ) ^ (e - 1) = 2 ^ e / 2 := fun e => zpow_sub_one₀ (by norm_num) e
  have hhalf : ∀ {e : ℤ}, IsMultiple e q → IsMultiple (e - 1) (q / 2) := by
    rintro e ⟨n, hn⟩
    exact ⟨n, by rw [hpow, ← mul_div_assoc, ← hn]⟩
  have hlt := abs_lt_of_lastPlace q
  obtain hleast | hplace := (le_lastPlace q).eq_or_lt
  · refine ⟨-1074, le_rfl, hhalf heven, ?_⟩
    rw [hleast, abs_div, abs_two]
    linarith [abs_nonneg q]
  · refine ⟨lastPlace q - 1, by omega, hhalf h.isMultiple, ?_⟩
    rw [sub_add_eq_add_sub, hpow, abs_div, abs_two]
    linarith

theorem two_zpow_succ_add (e f : ℤ) : (2 : ℚ) ^ (e + 1 + f) = 2 ^ (e + f) * 2 := by
  rw [add_right_comm, zpow_add_one₀ (by norm_num)]

theorem Representable.two_mul (h : Representable q) : Representable (2 * q) := by
  obtain ⟨e, he, ⟨n, hn⟩, hle⟩ := h
  refine ⟨e + 1, by omega, ⟨n, ?_⟩, ?_⟩
  · rw [zpow_add_one₀ (by norm_num), hn]
    ring
  · rw [two_zpow_succ_add, abs_mul, abs_two]
    linarith

theorem Representable.sub (hp : Representable p) (hq : Representable q) (hnonneg : 0 ≤ p)
    (hle : p ≤ q) (h : q ≤ 2 * p) : Representable (q - p) := by
  have habs : |p| ≤ |q| := abs_le_abs_of_nonneg hnonneg hle
  refine ⟨lastPlace p, le_lastPlace p, (hq.isMultiple.mono (lastPlace_mono habs)).sub hp.isMultiple,
    le_trans ?_ (abs_lt_of_lastPlace p).le⟩
  rw [abs_of_nonneg hnonneg, abs_of_nonneg (sub_nonneg.mpr hle)]
  linarith

/-- The integer below a representable number is representable. -/
theorem Representable.floor (h : Representable q) : Representable (⌊q⌋ : ℚ) := by
  by_cases hplace : 0 ≤ lastPlace q
  · obtain ⟨n, hn⟩ := h.isMultiple.mono hplace
    rw [zpow_zero, mul_one] at hn
    rwa [hn, Int.floor_intCast, ← hn]
  · have hlt : |q| < 2 ^ (52 : ℕ) := by
      rw [← zpow_natCast]
      exact (abs_lt_of_lastPlace q).trans_le (zpow_le_zpow_right₀ (by norm_num) (by omega))
    obtain ⟨hlow, hhigh⟩ := abs_lt.mp hlt
    refine representable_intCast (abs_le.mpr ⟨?_, ?_⟩)
    · rw [Int.le_floor]
      push_cast
      linarith
    · have hfloor : (⌊q⌋ : ℚ) ≤ 2 ^ 53 := (Int.floor_le q).trans (by linarith)
      exact_mod_cast hfloor

/-! ### Rounding -/

/-- A number rounded at its last place. -/
def rounded (q : ℚ) : ℚ := nearestInt (q / 2 ^ lastPlace q) * 2 ^ lastPlace q

theorem isMultiple_lastPlace_rounded (q : ℚ) : IsMultiple (lastPlace q) (rounded q) :=
  ⟨_, rfl⟩

private theorem abs_sub_rounded_le_of_isMultiple (h : IsMultiple (lastPlace q) c) :
    |q - rounded q| ≤ |q - c| := by
  obtain ⟨n, rfl⟩ := h
  have hpos : (0 : ℚ) < 2 ^ lastPlace q := by positivity
  have hscale : ∀ m : ℤ, |q - m * 2 ^ lastPlace q| =
      |q / 2 ^ lastPlace q - m| * 2 ^ lastPlace q := by
    intro m
    rw [← abs_of_pos hpos, ← abs_mul, sub_mul, abs_of_pos hpos, div_mul_cancel₀ _ hpos.ne']
  rw [rounded, hscale, hscale]
  exact mul_le_mul_of_nonneg_right ((nearestEven_nearestInt _).nearest n) hpos.le

theorem rounded_of_isMultiple (h : IsMultiple (lastPlace q) q) : rounded q = q := by
  have hzero := abs_sub_rounded_le_of_isMultiple h
  rw [sub_self, abs_zero, abs_nonpos_iff, sub_eq_zero] at hzero
  exact hzero.symm

/-- A representable number stays. -/
theorem rounded_of_representable (h : Representable q) : rounded q = q :=
  rounded_of_isMultiple h.isMultiple

/-- No representable number is nearer. -/
theorem abs_sub_rounded_le (h : Representable c) : |q - rounded q| ≤ |q - c| := by
  obtain ⟨e, he, hmultiple, hle⟩ := h
  by_cases hplace : lastPlace q ≤ e
  · exact abs_sub_rounded_le_of_isMultiple (hmultiple.mono hplace)
  · -- the power of two at the first digit of `q` lies between
    have hlow := le_abs_of_lastPlace (q := q) (by omega)
    have hbetween : |c| ≤ 2 ^ (lastPlace q + 52) :=
      hle.trans (zpow_le_zpow_right₀ (by norm_num) (by omega))
    have hpower : IsMultiple (lastPlace q) (2 ^ (lastPlace q + 52)) :=
      isMultiple_two_zpow (by omega)
    obtain ⟨hc, hc'⟩ := abs_le.mp hbetween
    obtain ⟨hq, hsign⟩ | ⟨hq, hsign⟩ := abs_cases q
    · refine (abs_sub_rounded_le_of_isMultiple hpower).trans ?_
      rw [abs_of_nonneg (by linarith), abs_of_nonneg (by linarith)]
      linarith
    · refine (abs_sub_rounded_le_of_isMultiple hpower.neg).trans ?_
      rw [abs_of_nonpos (by linarith), abs_of_nonpos (by linarith)]
      linarith

/-- The opposite is rounded to the opposite. -/
theorem rounded_neg (q : ℚ) : rounded (-q) = -rounded q := by
  have hnearest : nearestInt (-(q / 2 ^ lastPlace q)) = -nearestInt (q / 2 ^ lastPlace q) :=
    (nearestEven_nearestInt _).unique (nearestEven_nearestInt _).neg
  rw [rounded, lastPlace_neg, neg_div, hnearest, rounded]
  push_cast
  ring

@[simp] theorem rounded_zero : rounded 0 = 0 := rounded_of_representable representable_zero

/-- What is rounded is representable. -/
theorem representable_rounded (q : ℚ) : Representable (rounded q) := by
  refine ⟨lastPlace q, le_lastPlace q, isMultiple_lastPlace_rounded q, ?_⟩
  have hpos : (0 : ℚ) < 2 ^ lastPlace q := by positivity
  have hlt := abs_lt_of_lastPlace q
  have hpow : (2 : ℚ) ^ (lastPlace q + 53) = (2 ^ 53 : ℤ) * 2 ^ lastPlace q := by
    rw [zpow_add₀ (by norm_num), mul_comm]
    norm_num
  -- the bound itself is a multiple, and the rounded number is not farther away
  have hbound : IsMultiple (lastPlace q) (2 ^ (lastPlace q + 53)) := ⟨_, hpow⟩
  have hup := abs_sub_rounded_le_of_isMultiple hbound
  have hdown := abs_sub_rounded_le_of_isMultiple hbound.neg
  obtain ⟨hlow, hhigh⟩ := abs_lt.mp hlt
  rw [abs_of_neg (by linarith : q - 2 ^ (lastPlace q + 53) < 0)] at hup
  rw [abs_of_pos (by linarith : 0 < q - -2 ^ (lastPlace q + 53))] at hdown
  rw [abs_le] at hup hdown ⊢
  constructor <;> linarith

/-- Rounding keeps the order. -/
theorem rounded_mono (h : p ≤ q) : rounded p ≤ rounded q := by
  obtain rfl | hlt := h.eq_or_lt
  · rfl
  · -- otherwise each of the two would be nearer to the other's result
    by_contra hgt
    have hp := abs_sub_rounded_le (q := p) (representable_rounded q)
    have hq := abs_sub_rounded_le (q := q) (representable_rounded p)
    cases abs_cases (p - rounded p) <;> cases abs_cases (p - rounded q) <;>
      cases abs_cases (q - rounded p) <;> cases abs_cases (q - rounded q) <;> linarith

theorem le_rounded (hc : Representable c) (h : c ≤ q) : c ≤ rounded q :=
  rounded_of_representable hc ▸ rounded_mono h

theorem rounded_le (hc : Representable c) (h : q ≤ c) : rounded q ≤ c :=
  rounded_of_representable hc ▸ rounded_mono h

theorem abs_rounded_le (hc : Representable c) (h : |q| ≤ c) : |rounded q| ≤ c := by
  rw [abs_le] at h ⊢
  exact ⟨le_rounded hc.neg h.1, rounded_le hc h.2⟩

theorem le_abs_rounded (hc : Representable c) (h : c ≤ |q|) : c ≤ |rounded q| := by
  obtain hq | hq := abs_choice q
  · exact (le_rounded hc (hq ▸ h)).trans (le_abs_self _)
  · have hneg := le_rounded hc (hq ▸ h)
    rw [rounded_neg] at hneg
    exact hneg.trans (neg_le_abs _)

theorem isMultiple_rounded (h : IsMultiple e q) : IsMultiple e (rounded q) := by
  obtain hle | hlt := le_or_gt e (lastPlace q)
  · exact (isMultiple_lastPlace_rounded q).mono hle
  · rwa [rounded_of_isMultiple (h.mono hlt.le)]

/-! ### Errors -/

/-- A number below a power of two is rounded by at most half a place. -/
theorem abs_sub_rounded_le_zpow (he : -1074 ≤ e) (h : |q| ≤ 2 ^ (e + 53)) :
    |q - rounded q| ≤ 2 ^ (e - 1) := by
  have hhalf : |q - rounded q| ≤ 1 / 2 * 2 ^ lastPlace q := by
    have hpos : (0 : ℚ) < 2 ^ lastPlace q := by positivity
    have hclose := (nearestEven_iff.mp (nearestEven_nearestInt (q / 2 ^ lastPlace q))).1
    calc |q - rounded q| = |q / 2 ^ lastPlace q - nearestInt (q / 2 ^ lastPlace q)| *
          2 ^ lastPlace q := by
            rw [← abs_of_pos hpos, ← abs_mul, sub_mul, abs_of_pos hpos,
              div_mul_cancel₀ _ hpos.ne', rounded]
      _ ≤ 1 / 2 * 2 ^ lastPlace q := mul_le_mul_of_nonneg_right hclose hpos.le
  obtain hlt | heq := h.lt_or_eq
  · refine hhalf.trans ?_
    rw [zpow_sub_one₀ (by norm_num), mul_comm]
    have hpow : (2 : ℚ) ^ lastPlace q ≤ 2 ^ e :=
      zpow_le_zpow_right₀ (by norm_num) (lastPlace_le he hlt)
    linarith
  · have hstays : rounded q = q := rounded_of_representable
      (representable_abs.mp (heq ▸ representable_two_zpow (by omega)))
    rw [hstays, sub_self, abs_zero]
    positivity

/-- A number that is not tiny is rounded by less than its magnitude divided by `2 ^ 53`. -/
theorem abs_sub_rounded_mul_lt (h : (2 : ℚ) ^ (-1022 : ℤ) ≤ |q|) :
    |q - rounded q| * 2 ^ 53 < |q| := by
  have hpos : 0 < |q| := lt_of_lt_of_le (by positivity) h
  have hfirst : (2 : ℚ) ^ (lastPlace q + 52) ≤ |q| := by
    obtain hleast | hplace := (le_lastPlace q).eq_or_lt
    · rwa [← hleast]
    · exact le_abs_of_lastPlace hplace
  obtain heq | hlt := hfirst.eq_or_lt
  · -- powers of two are not rounded
    have hlow := le_lastPlace q
    have hstays : rounded q = q := rounded_of_representable
      (representable_abs.mp (heq ▸ representable_two_zpow (by omega)))
    rw [hstays, sub_self, abs_zero, zero_mul]
    exact hpos
  · have hhalf := abs_sub_rounded_le_zpow (le_lastPlace q) (abs_lt_of_lastPlace q).le
    calc |q - rounded q| * 2 ^ 53 ≤ 2 ^ (lastPlace q - 1) * 2 ^ 53 :=
          mul_le_mul_of_nonneg_right hhalf (by norm_num)
      _ = 2 ^ (lastPlace q + 52) := by
          rw [← zpow_natCast, ← zpow_add₀ (by norm_num)]
          congr 1
          push_cast
          ring
      _ < |q| := hlt

/-- The error of a rounded sum is representable. -/
theorem representable_sub_rounded (hp : Representable p) (hq : Representable q) :
    Representable (p + q - rounded (p + q)) := by
  -- the error is a multiple at the lower of the two places, and the other summand bounds it
  have hhalf : ∀ {p q : ℚ}, Representable p → Representable q → lastPlace p ≤ lastPlace q →
      Representable (p + q - rounded (p + q)) := by
    intro p q hp hq hle
    have hsum : IsMultiple (lastPlace p) (p + q) := hp.isMultiple.add (hq.isMultiple.mono hle)
    refine ⟨lastPlace p, le_lastPlace p, hsum.sub (isMultiple_rounded hsum), ?_⟩
    calc |p + q - rounded (p + q)| ≤ |p + q - q| := abs_sub_rounded_le hq
      _ = |p| := by rw [add_sub_cancel_right]
      _ ≤ 2 ^ (lastPlace p + 53) := (abs_lt_of_lastPlace p).le
  obtain hle | hle := le_total (lastPlace p) (lastPlace q)
  · exact hhalf hp hq hle
  · rw [add_comm]
    exact hhalf hq hp hle

/-- A rounded sum without its larger summand is representable. -/
theorem representable_rounded_sub (hp : Representable p) (hq : Representable q) (h : |q| ≤ |p|) :
    Representable (rounded (p + q) - p) := by
  have hplace : lastPlace q ≤ lastPlace p := lastPlace_mono h
  have hsum : IsMultiple (lastPlace q) (p + q) := (hp.isMultiple.mono hplace).add hq.isMultiple
  have hrest : |rounded (p + q) - p| ≤ |q| + |p + q - rounded (p + q)| := by
    calc |rounded (p + q) - p| = |q - (p + q - rounded (p + q))| := by
          congr 1
          ring
      _ ≤ |q| + |p + q - rounded (p + q)| := abs_sub _ _
  have herror : |p + q - rounded (p + q)| ≤ |q| := by
    calc |p + q - rounded (p + q)| ≤ |p + q - p| := abs_sub_rounded_le hp
      _ = |q| := by rw [add_sub_cancel_left]
  have hq53 := abs_lt_of_lastPlace q
  obtain hle | hlt := le_or_gt (lastPlace (p + q)) (lastPlace q)
  · -- nothing is rounded
    have hexact : rounded (p + q) = p + q := rounded_of_isMultiple (hsum.mono hle)
    rwa [hexact, add_sub_cancel_left]
  · obtain hle' | hlt' := le_or_gt (lastPlace (p + q)) (lastPlace p)
    · -- all three are multiples at the last place of the sum
      refine ⟨lastPlace (p + q), le_lastPlace _,
        (isMultiple_lastPlace_rounded _).sub (hp.isMultiple.mono hle'), ?_⟩
      have hpow : (2 : ℚ) ^ (lastPlace q + 53) * 2 ≤ 2 ^ (lastPlace (p + q) + 53) := by
        rw [← zpow_add_one₀ (by norm_num)]
        exact zpow_le_zpow_right₀ (by norm_num) (by omega)
      linarith
    · -- the sum has one digit more than its larger summand
      have hp53 := hp.isMultiple.abs.le_sub (isMultiple_two_zpow (by omega)) (abs_lt_of_lastPlace p)
      have hlarge : |p + q| ≤ 2 ^ (lastPlace p + 1 + 53) := by
        have hpow := two_zpow_succ_add (lastPlace p) 53
        have hplow : |p| ≤ 2 ^ (lastPlace p + 53) := (abs_lt_of_lastPlace p).le
        have htriangle := abs_add_le p q
        linarith
      have hplow := le_lastPlace p
      have hhalf := abs_sub_rounded_le_zpow (by omega) hlarge
      rw [add_sub_cancel_right] at hhalf
      exact ⟨lastPlace p, hplow,
        ((isMultiple_lastPlace_rounded _).mono hlt'.le).sub hp.isMultiple, by linarith⟩

/-! ### The end of the range -/

/-- Half of the last place of the largest number. -/
def halfUnit : ℚ := 2 ^ (970 : ℤ)

theorem halfUnit_pos : 0 < halfUnit := zpow_pos (by norm_num) _

/-- The powers of two from here on are its multiples. -/
private theorem two_zpow_add_nat (k : ℕ) : (2 : ℚ) ^ (970 + k : ℤ) = 2 ^ k * halfUnit := by
  rw [zpow_add₀ (by norm_num), zpow_natCast, mul_comm]
  rfl

theorem largest_eq : largest = (2 ^ 54 - 2) * halfUnit := by
  have hpow : (2 : ℚ) ^ (971 : ℤ) = 2 ^ 1 * halfUnit := two_zpow_add_nat 1
  rw [largest, hpow]
  ring

/-- The largest number is representable. -/
theorem representable_largest : Representable largest := by
  refine ⟨971, by decide, ⟨2 ^ 53 - 1, ?_⟩, ?_⟩
  · rw [largest]
    congr 1
    norm_num
  · have hpos := halfUnit_pos
    have hpow : (2 : ℚ) ^ (971 + 53 : ℤ) = 2 ^ 54 * halfUnit := two_zpow_add_nat 54
    rw [hpow, largest_eq, abs_of_nonneg (mul_nonneg (by norm_num) hpos.le)]
    exact mul_le_mul_of_nonneg_right (by norm_num) hpos.le

theorem abs_sub_rounded_le_halfUnit (h : |q| ≤ 2 ^ 54 * halfUnit) :
    |q - rounded q| ≤ halfUnit :=
  abs_sub_rounded_le_zpow (e := 971) (by decide) (two_zpow_add_nat 54 ▸ h)

theorem abs_sub_rounded_lt_halfUnit (h : |q| ≤ 2 ^ 53 * halfUnit) :
    |q - rounded q| < halfUnit := by
  have hle : |q - rounded q| ≤ 2 ^ (969 : ℤ) :=
    abs_sub_rounded_le_zpow (e := 970) (by decide) (two_zpow_add_nat 53 ▸ h)
  exact hle.trans_lt (zpow_lt_zpow_right₀ (by norm_num) (by decide))

/-- What is less than half of the last place above the largest number is rounded to it. -/
theorem abs_rounded_le_largest (h : |q| < largest + halfUnit) : |rounded q| ≤ largest := by
  have hpos := halfUnit_pos
  obtain hle | hgt := le_or_gt |q| largest
  · exact abs_rounded_le representable_largest hle
  · -- the number is rounded to a multiple of the last place, which is below the next power of two
    have hplace : 971 ≤ lastPlace q := by
      by_contra hlow
      have hlt := (abs_lt_of_lastPlace q).trans_le
        (zpow_le_zpow_right₀ (by norm_num) (by omega : lastPlace q + 53 ≤ 970 + (53 : ℕ)))
      rw [two_zpow_add_nat] at hlt
      rw [largest_eq] at hgt
      linarith
    have herror : |q - rounded q| ≤ halfUnit := by
      refine abs_sub_rounded_le_halfUnit ?_
      rw [largest_eq] at h
      linarith
    have hlt : |rounded q| < 2 ^ (970 + (54 : ℕ) : ℤ) := by
      have htriangle : |rounded q| ≤ |q| + |q - rounded q| := by
        calc |rounded q| = |q - (q - rounded q)| := by rw [sub_sub_cancel]
          _ ≤ |q| + |q - rounded q| := abs_sub _ _
      rw [two_zpow_add_nat]
      rw [largest_eq] at h
      linarith
    have hmultiple : IsMultiple 971 |rounded q| :=
      ((isMultiple_lastPlace_rounded q).mono hplace).abs
    have hle := hmultiple.le_sub (isMultiple_two_zpow (by decide)) hlt
    have hunit : (2 : ℚ) ^ (971 : ℤ) = 2 ^ 1 * halfUnit := two_zpow_add_nat 1
    rw [two_zpow_add_nat, hunit] at hle
    rw [largest_eq]
    linarith

end TypedFormula.Binary64
