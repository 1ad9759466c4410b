import Mathlib
import TypedFormula.Binary64.Sum
import TypedFormula.Proofs.Binary64.Arithmetic
import TypedFormula.Proofs.Binary64.Sums

/-!
# Compensation without overflow

A sum with compensation adds numbers of one sign from the smallest to the largest one and keeps the
errors of all additions in a sum of their own. Of two numbers the error of their sum is a number
again, and the six operations that find it are exact apart from the sum itself and the step back to
the second summand. This needs no order of the two summands (`toRat?_twoSum`), but it needs that
neither of these two results is too large.

On one side this is so as long as twice the exact total is in range. The invariant says more than
that the running sum is below twice the total: the running sum together with its errors is as well,
and the errors are between minus half of the sum and the sum (`Accumulated`). It is not necessary
that the numbers are sorted, and none of the bounds depends on how many there are; this is what
keeps errors that grow with the number of summands out of the statement.

When the sums of both sides are put together, their errors can be as large as the sums. But if they
are, then the sums are small enough for the result not to pass the largest number by half of its
last place (`abs_total_lt`), which is where rounding to infinity begins.

Main statements:

* `toRat?_twoSum` — a sum comes with its exact error;
* `Accumulated.step`, `Running.foldl` — what one addition and a whole pass keep;
* `isFinite_of_running` — two running sums give a finite result;
* `isFinite_compensatedSum` — so does every list, neither side of which has an exact sum larger than
  half of the largest number.
-/

namespace TypedFormula.Binary64

open Float.Model Float.Model.UnpackedFloat

variable {x y : Float} {p q s b a c : ℚ}

/-! ### The error of a sum -/

/-- A sum that is rounded below its first summand is exact. -/
private theorem rounded_add_of_abs_lt (hp : Representable p) (hq : Representable q)
    (hpq : |p| ≤ |q|) (h : |rounded (p + q)| < |p|) : rounded (p + q) = p + q := by
  have hlt : |p + q| < |p| := by
    by_contra hle
    exact absurd (le_abs_rounded (representable_abs.mpr hp) (not_lt.mp hle)) (not_le.mpr h)
  have hsum : IsMultiple (lastPlace p) (p + q) :=
    hp.isMultiple.add (hq.isMultiple.mono (lastPlace_mono hpq))
  exact rounded_of_isMultiple (hsum.mono (lastPlace_mono hlt.le))

/-- The steps by which the error of a sum is found are exact, except for the first one. -/
private theorem representable_twoSum (hp : Representable p) (hq : Representable q)
    (hs : rounded (p + q) = s) (hb : rounded (s - p) = b) :
    Representable (s - b) ∧ Representable (p - (s - b)) ∧ Representable (q - b) := by
  have herror : Representable (p + q - s) := hs ▸ representable_sub_rounded hp hq
  have hsr : Representable s := hs ▸ representable_rounded _
  have hexact : s - p = b → Representable (s - b) ∧ Representable (p - (s - b)) ∧
      Representable (q - b) := by
    rintro rfl
    refine ⟨?_, ?_, ?_⟩
    · rwa [sub_sub_cancel]
    · rw [sub_sub_cancel, sub_self]
      exact representable_zero
    · rwa [sub_sub_eq_add_sub, add_comm]
  obtain hle | hlt := le_or_gt |q| |p|
  · -- nothing is rounded when the larger summand is taken away
    refine hexact ?_
    rw [← hb, rounded_of_representable]
    exact hs ▸ representable_rounded_sub hp hq hle
  · obtain hle' | hlt' := le_or_gt |p| |s|
    · have hback : s - b = -(rounded (s + -p) - s) := by
        rw [← hb, sub_eq_add_neg s p]
        ring
      have hleft : p - (s - b) = -(s + -p - rounded (s + -p)) := by
        rw [← hb, sub_eq_add_neg s p]
        ring
      have hright : q - b = -(rounded (q + -(p + q - s)) - q) := by
        have : q + -(p + q - s) = s - p := by ring
        rw [this, hb]
        ring
      have hsmall : |p + q - s| ≤ |q| := by
        calc |p + q - s| ≤ |p + q - q| := hs ▸ abs_sub_rounded_le hq
          _ = |p| := by rw [add_sub_cancel_right]
          _ ≤ |q| := hlt.le
      refine ⟨?_, ?_, ?_⟩
      · rw [hback]
        exact (representable_rounded_sub hsr hp.neg (by rwa [abs_neg])).neg
      · rw [hleft]
        exact (representable_sub_rounded hsr hp.neg).neg
      · rw [hright]
        exact (representable_rounded_sub hq herror.neg (by rwa [abs_neg])).neg
    · -- the summands nearly cancel, so that the sum is exact
      have hsum : s = p + q := hs ▸ rounded_add_of_abs_lt hp hq hlt.le (hs ▸ hlt')
      refine hexact ?_
      rw [← hb, hsum, add_sub_cancel_left, rounded_of_representable hq]

/-- None of these steps leaves the range that the sum and the first step keep. -/
private theorem abs_twoSum_le {M : ℚ} (hp : Representable p) (hq : Representable q)
    (hs : rounded (p + q) = s) (hb : rounded (s - p) = b) (hpM : |p| ≤ M) (hqM : |q| ≤ M)
    (hsM : |s| ≤ M) (hbM : |b| ≤ M) :
    |s - b| ≤ M ∧ |p - (s - b)| ≤ M ∧ |q - b| ≤ M ∧ |p + q - s| ≤ M := by
  have hsr : Representable s := hs ▸ representable_rounded _
  have herror : |p + q - s| ≤ |p| := by
    calc |p + q - s| ≤ |p + q - q| := hs ▸ abs_sub_rounded_le hq
      _ = |p| := by rw [add_sub_cancel_right]
  have hleft : |p - (s - b)| ≤ |p| := by
    calc |p - (s - b)| = |s - p - b| := by
          rw [← abs_neg]
          congr 1
          ring
      _ ≤ |s - p - s| := hb ▸ abs_sub_rounded_le hsr
      _ = |p| := by rw [sub_sub_cancel_left, abs_neg]
  obtain hle | hlt := le_or_gt |q| |p|
  · have hexact : s - p = b := by
      rw [← hb, rounded_of_representable]
      exact hs ▸ representable_rounded_sub hp hq hle
    have hright : q - b = p + q - s := by
      rw [← hexact]
      ring
    refine ⟨?_, hleft.trans hpM, hright ▸ herror.trans hpM, herror.trans hpM⟩
    rwa [← hexact, sub_sub_cancel]
  · -- the sum and the first step have the sign of the larger summand
    have hsigns : 0 ≤ q ∧ 0 ≤ s ∧ 0 ≤ b ∨ q ≤ 0 ∧ s ≤ 0 ∧ b ≤ 0 := by
      obtain ⟨hplow, hphigh⟩ := abs_le.mp hlt.le
      obtain ⟨helow, hehigh⟩ := abs_le.mp (herror.trans hlt.le)
      obtain ⟨hq', hsign⟩ | ⟨hq', hsign⟩ := abs_cases q
      · refine .inl ⟨hsign, hs ▸ le_rounded representable_zero (by linarith),
          hb ▸ le_rounded representable_zero (by linarith)⟩
      · refine .inr ⟨hsign.le, hs ▸ rounded_le representable_zero (by linarith),
          hb ▸ rounded_le representable_zero (by linarith)⟩
    rw [abs_le] at hqM hsM hbM
    refine ⟨?_, hleft.trans hpM, ?_, herror.trans hpM⟩ <;> rw [abs_le] <;>
      obtain ⟨hq', hs', hb'⟩ | ⟨hq', hs', hb'⟩ := hsigns <;> constructor <;> linarith

/-- A sum comes with its exact error, if the sum and the first step behind it are not too large. -/
theorem toRat?_twoSum (hx : toRat? x = some p) (hy : toRat? y = some q)
    (hs : |rounded (p + q)| ≤ largest) (hb : |rounded (rounded (p + q) - p)| ≤ largest) :
    toRat? (twoSum x y).1 = some (rounded (p + q)) ∧
      toRat? (twoSum x y).2 = some (p + q - rounded (p + q)) := by
  obtain ⟨hp, hpM⟩ := representable_of_toRat? hx
  obtain ⟨hq, hqM⟩ := representable_of_toRat? hy
  have herror : Representable (p + q - rounded (p + q)) := representable_sub_rounded hp hq
  have hsum : toRat? (x + y) = some (rounded (p + q)) := toRat?_add_of_abs_le hx hy hs
  have hright : toRat? (x + y - x) = some (rounded (rounded (p + q) - p)) :=
    toRat?_sub_of_abs_le hsum hx hb
  generalize hs' : rounded (p + q) = s at *
  generalize hb' : rounded (s - p) = b at *
  obtain ⟨hleftR, hp'R, hq'R⟩ := representable_twoSum hp hq hs' hb'
  obtain ⟨hleftM, hp'M, hq'M, herrorM⟩ := abs_twoSum_le hp hq hs' hb' hpM hqM hs hb
  have hleft : toRat? (x + y - (x + y - x)) = some (s - b) :=
    toRat?_sub_of_representable hsum hright hleftR hleftM
  have hparts : p - (s - b) + (q - b) = p + q - s := by ring
  have herrors := toRat?_add (toRat?_sub_of_representable hx hleft hp'R hp'M)
    (toRat?_sub_of_representable hy hright hq'R hq'M)
  rw [hparts, rounded_of_representable herror] at herrors
  exact ⟨hsum, herrors.trans (inRange?_eq_some_iff.mpr ⟨herrorM, rfl⟩)⟩

/-! ### Running sums -/

/-- What a running sum of numbers that are not negative keeps: neither the sum nor the sum with its
errors reaches twice the exact total, and the errors are small beside the sum. -/
structure Accumulated (a c total : ℚ) : Prop where
  /-- The sum is representable. -/
  sum : Representable a
  /-- The sum of the errors is representable. -/
  error : Representable c
  /-- The sum is not negative. -/
  nonneg : 0 ≤ a
  /-- The errors take away at most half of the sum. -/
  low : -(a / 2) ≤ c
  /-- The errors add at most the sum. -/
  high : c ≤ a
  /-- The exact total is not negative. -/
  total_nonneg : 0 ≤ total
  /-- Nothing has been added, or everything is below twice the exact total. -/
  bound : a = 0 ∧ c = 0 ∨ a < 2 * total ∧ a + c < 2 * total

private theorem representable_rounded_half (hp : Representable p) (hq : Representable q)
    (h : p + q ≠ rounded (p + q)) : Representable (rounded (p + q) / 2) := by
  have hplace : -1074 < lastPlace (p + q) := by
    by_contra hlow
    have hleast : IsMultiple (lastPlace (p + q)) (p + q) :=
      (hp.isMultiple.mono (by have := le_lastPlace p; omega)).add
        (hq.isMultiple.mono (by have := le_lastPlace q; omega))
    exact h (rounded_of_isMultiple hleast).symm
  exact (representable_rounded _).half
    ((isMultiple_lastPlace_rounded _).mono (Int.add_one_le_of_lt hplace))

/-- One more number is added. -/
theorem Accumulated.step {total : ℚ} (h : Accumulated a c total) (hq : Representable q)
    (hnonneg : 0 ≤ q) :
    Accumulated (rounded (a + q)) (rounded (c + (a + q - rounded (a + q)))) (total + q) := by
  obtain ⟨hsum, herror, ha, hlow, hhigh, htotal, hbound⟩ := h
  have hless : |a + q - rounded (a + q)| ≤ q := by
    calc |a + q - rounded (a + q)| ≤ |a + q - a| := abs_sub_rounded_le hsum
      _ = q := by rw [add_sub_cancel_left, abs_of_nonneg hnonneg]
  have hgrows : a ≤ rounded (a + q) := le_rounded hsum (by linarith)
  have hchange : |c + (a + q - rounded (a + q)) - rounded (c + (a + q - rounded (a + q)))| ≤
      |a + q - rounded (a + q)| := by
    calc _ ≤ |c + (a + q - rounded (a + q)) - c| := abs_sub_rounded_le herror
      _ = |a + q - rounded (a + q)| := by rw [add_sub_cancel_left]
  obtain ⟨hless₁, hless₂⟩ := abs_le.mp hless
  obtain ⟨hchange₁, hchange₂⟩ := abs_le.mp hchange
  refine ⟨representable_rounded _, representable_rounded _, ha.trans hgrows, ?_, ?_, by linarith,
    ?_⟩
  · by_cases hexact : a + q = rounded (a + q)
    · rw [← hexact, sub_self, add_zero, rounded_of_representable herror]
      linarith
    · refine le_rounded (representable_rounded_half hsum hq hexact).neg ?_
      linarith
  · exact rounded_mono (by linarith)
  · obtain ⟨rfl, rfl⟩ | ⟨hsmall, hsmall'⟩ := hbound
    · obtain rfl | hpos := hnonneg.eq_or_lt
      · left
        simp
      · right
        rw [zero_add, rounded_of_representable hq, sub_self, add_zero, rounded_zero]
        constructor <;> linarith
    · right
      constructor
      · linarith
      · cases abs_cases (a + q - rounded (a + q)) <;> linarith

/-- A running sum with its errors, all of one sign, for some exact total. -/
def Running (s : Sign) (acc : Float × Float) (total : ℚ) : Prop :=
  ∃ a c, toRat? acc.1 = some (withSign s a) ∧ toRat? acc.2 = some (withSign s c) ∧
    Accumulated a c total

/-- At the start nothing has been added. -/
private theorem running_zero (s : Sign) : Running s (0, 0) 0 := by
  have hzero : withSign s 0 = 0 := by
    cases s with
    | positive => rfl
    | negative => exact neg_zero
  exact ⟨0, 0, congrArg some hzero.symm, congrArg some hzero.symm, representable_zero,
    representable_zero, le_rfl, by norm_num, le_rfl, le_rfl, .inl ⟨rfl, rfl⟩⟩

/-- A running sum gets one more number, as long as twice the exact total is in range. -/
theorem Running.step {s : Sign} {acc : Float × Float} {total : ℚ} (h : Running s acc total)
    (hx : toRat? x = some (withSign s q)) (hnonneg : 0 ≤ q) (hle : 2 * (total + q) ≤ largest) :
    Running s ((twoSum acc.1 x).1, acc.2 + (twoSum acc.1 x).2) (total + q) := by
  obtain ⟨a, c, hsum, herror, h⟩ := h
  have hq : Representable q := by
    have hsigned := (representable_of_toRat? hx).1
    cases s with
    | positive => exact hsigned
    | negative => exact neg_neg q ▸ hsigned.neg
  have hstep := h.step hq hnonneg
  have hgrows : a ≤ rounded (a + q) := le_rounded h.sum (by linarith)
  have hlargest : (0 : ℚ) ≤ largest := (mul_nonneg zero_le_two hstep.total_nonneg).trans hle
  have hrange : rounded (a + q) ≤ largest := by
    obtain ⟨hzero, -⟩ | ⟨hlt, -⟩ := hstep.bound
    · rwa [hzero]
    · exact hlt.le.trans hle
  have herrors : |rounded (c + (a + q - rounded (a + q)))| ≤ largest := by
    rw [abs_le]
    exact ⟨by linarith [hstep.low, hstep.nonneg], hstep.high.trans hrange⟩
  have hback : |rounded (rounded (a + q) - a)| ≤ largest := by
    refine (abs_rounded_le (representable_rounded (a + q)) ?_).trans hrange
    rw [abs_of_nonneg (by linarith)]
    linarith [h.nonneg]
  obtain ⟨hs, he⟩ := toRat?_twoSum hsum hx
    (by rwa [withSign_add, rounded_withSign, abs_withSign, abs_of_nonneg hstep.nonneg])
    (by rwa [withSign_add, rounded_withSign, withSign_sub, rounded_withSign, abs_withSign])
  rw [withSign_add, rounded_withSign] at hs he
  rw [withSign_sub] at he
  have hadd := toRat?_add_of_abs_le herror he
  rw [withSign_add, rounded_withSign, abs_withSign] at hadd
  exact ⟨_, _, hs, hadd herrors, hstep⟩

/-- A running sum stays in range to the end if twice the exact total does. -/
theorem Running.foldl {s : Sign} {acc : Float × Float} {total : ℚ} {xs : List Float}
    {qs : List ℚ} (h : Running s acc total)
    (hxs : List.Forall₂ (fun x q => toRat? x = some (withSign s q)) xs qs)
    (hnonneg : ∀ q ∈ qs, 0 ≤ q) (hle : 2 * (total + qs.sum) ≤ largest) :
    Running s (xs.foldl (fun acc x => ((twoSum acc.1 x).1, acc.2 + (twoSum acc.1 x).2)) acc)
      (total + qs.sum) := by
  induction hxs generalizing acc total with
  | nil => rwa [List.sum_nil, add_zero]
  | @cons x q xs qs hx hxs ih =>
    obtain ⟨hq, hqs⟩ := List.forall_mem_cons.mp hnonneg
    have hrest : 0 ≤ qs.sum := List.sum_nonneg hqs
    rw [List.sum_cons, ← add_assoc] at hle ⊢
    exact ih (h.step hx hq (by linarith)) hqs hle

private theorem running_accumulate {s : Sign} {xs : List Float} {qs : List ℚ}
    (hxs : List.Forall₂ (fun x q => toRat? x = some (withSign s q)) xs qs)
    (hnonneg : ∀ q ∈ qs, 0 ≤ q) (hle : 2 * qs.sum ≤ largest) :
    Running s (accumulate xs) qs.sum := by
  have h := (running_zero s).foldl hxs hnonneg (by rwa [zero_add])
  rwa [zero_add] at h

/-! ### Two running sums together -/

variable {g total total' : ℚ}

/-- What is accumulated does not reach the largest number. -/
private theorem Accumulated.lt_largest (h : Accumulated a c total) (hle : 2 * total ≤ largest) :
    a < largest ∧ a + c < largest := by
  obtain ⟨rfl, rfl⟩ | ⟨ha, hac⟩ := h.bound
  · rw [add_zero]
    exact ⟨largest_pos, largest_pos⟩
  · exact ⟨ha.trans_le hle, hac.trans_le hle⟩

/-- The errors of two sums that are far apart do not reach the end of the range together. -/
private theorem abs_sub_lt_of_far (ha : Accumulated a c total) (hle : 2 * total ≤ largest)
    (hb : Accumulated b g total') (hfar : 2 ^ 53 * halfUnit < a - b) :
    |c - g| < largest - halfUnit := by
  obtain ⟨ha', hac⟩ := ha.lt_largest hle
  have hpos := halfUnit_pos
  obtain ⟨-, -, -, hlow, hhigh, -, -⟩ := ha
  obtain ⟨-, -, -, hlow', hhigh', -, -⟩ := hb
  rw [largest_eq] at *
  rw [abs_lt]
  constructor <;> linarith

/-- The sum of all errors. -/
private theorem abs_errors_lt (ha : Accumulated a c total) (hle : 2 * total ≤ largest)
    (hb : Accumulated b g total') (hle' : 2 * total' ≤ largest) :
    |rounded (c - g)| ≤ largest ∧
      |rounded (c - g) + (a - b - rounded (a - b))| < largest + halfUnit := by
  have hpos := halfUnit_pos
  obtain ⟨ha', hac⟩ := ha.lt_largest hle
  obtain ⟨hb', hbg⟩ := hb.lt_largest hle'
  have hcg : |c - g| ≤ largest := by
    rw [abs_le]
    constructor <;> linarith [ha.low, ha.high, hb.low, hb.high, ha.nonneg, hb.nonneg]
  have hab : |a - b| ≤ 2 ^ 54 * halfUnit := by
    rw [largest_eq] at ha' hb'
    rw [abs_le]
    constructor <;> linarith [ha.nonneg, hb.nonneg]
  have hA := abs_rounded_le representable_largest hcg
  have hAerror : |c - g - rounded (c - g)| ≤ halfUnit := by
    refine abs_sub_rounded_le_halfUnit (hcg.trans ?_)
    rw [largest_eq]
    linarith
  have hBerror := abs_sub_rounded_le_halfUnit hab
  refine ⟨hA, ?_⟩
  by_cases hnear : |a - b| ≤ 2 ^ 53 * halfUnit
  · -- the sums are rounded by less than half of a last place
    have hBerror' := abs_sub_rounded_lt_halfUnit hnear
    calc _ ≤ |rounded (c - g)| + |a - b - rounded (a - b)| := abs_add_le _ _
      _ < largest + halfUnit := add_lt_add_of_le_of_lt hA hBerror'
  · -- otherwise the errors before are smaller
    have hsmall : |c - g| < largest - halfUnit := by
      obtain ⟨hsign, -⟩ | ⟨hsign, -⟩ := abs_cases (a - b)
      · exact abs_sub_lt_of_far ha hle hb (by linarith)
      · rw [abs_sub_comm]
        exact abs_sub_lt_of_far hb hle' ha (by linarith)
    rw [abs_le] at hAerror hBerror
    rw [abs_lt] at hsmall ⊢
    constructor <;> linarith

/-- Two sums, the errors before and the error of adding them are in range together. -/
theorem abs_total_lt (ha : Accumulated a c total) (hle : 2 * total ≤ largest)
    (hb : Accumulated b g total') (hle' : 2 * total' ≤ largest) :
    |rounded (a - b) + rounded (rounded (c - g) + (a - b - rounded (a - b)))| <
      largest + halfUnit := by
  have hpos := halfUnit_pos
  obtain ⟨-, hac⟩ := ha.lt_largest hle
  obtain ⟨-, hbg⟩ := hb.lt_largest hle'
  have hlast : |rounded (c - g) + (a - b - rounded (a - b)) -
      rounded (rounded (c - g) + (a - b - rounded (a - b)))| ≤ halfUnit := by
    refine abs_sub_rounded_le_halfUnit ((abs_errors_lt ha hle hb hle').2.le.trans ?_)
    rw [largest_eq]
    linarith
  -- the errors are added with an error below each of them
  have hleft : |c - g - rounded (c - g)| ≤ |g| := by
    calc |c - g - rounded (c - g)| ≤ |c - g - c| := abs_sub_rounded_le ha.error
      _ = |g| := by rw [sub_sub_cancel_left, abs_neg]
  have hright : |c - g - rounded (c - g)| ≤ |c| := by
    calc |c - g - rounded (c - g)| ≤ |c - g - -g| := abs_sub_rounded_le hb.error.neg
      _ = |c| := by rw [sub_neg_eq_add, sub_add_cancel]
  have habove : |c| ≤ a + c := by
    cases abs_cases c <;> linarith [ha.low, ha.nonneg]
  have hbelow : |g| ≤ b + g := by
    cases abs_cases g <;> linarith [hb.low, hb.nonneg]
  rw [abs_le] at hlast hleft hright
  rw [abs_lt]
  constructor <;> linarith

/-- Two running sums of which twice the exact totals are in range give a finite result. -/
theorem isFinite_of_running {upper lower : Float × Float} (hu : Running .positive upper total)
    (hle : 2 * total ≤ largest) (hl : Running .negative lower total')
    (hle' : 2 * total' ≤ largest) :
    (twoSum upper.1 lower.1).1.isFinite = true ∧
      ((twoSum upper.1 lower.1).1 +
        (upper.2 + lower.2 + (twoSum upper.1 lower.1).2)).isFinite = true := by
  obtain ⟨a, c, hupper, hupperError, ha⟩ := hu
  obtain ⟨b, g, hlower, hlowerError, hb⟩ := hl
  have hpos := halfUnit_pos
  obtain ⟨ha', -⟩ := ha.lt_largest hle
  obtain ⟨hb', -⟩ := hb.lt_largest hle'
  obtain ⟨hA, hB⟩ := abs_errors_lt ha hle hb hle'
  have hab : |a - b| ≤ largest := by
    rw [abs_le]
    constructor <;> linarith [ha.nonneg, hb.nonneg]
  have herror : |a - b - rounded (a - b)| ≤ halfUnit := by
    refine abs_sub_rounded_le_halfUnit (hab.trans ?_)
    rw [largest_eq]
    linarith
  have hback : |rounded (rounded (a - b) - a)| ≤ largest := by
    refine abs_rounded_le_largest ?_
    rw [abs_le] at herror
    rw [abs_lt]
    constructor <;> linarith [hb.nonneg]
  have hsum : withSign .positive a + withSign .negative b = a - b := (sub_eq_add_neg a b).symm
  have herrors : withSign .positive c + withSign .negative g = c - g := (sub_eq_add_neg c g).symm
  have htwoSum := toRat?_twoSum hupper hlower
  rw [hsum] at htwoSum
  obtain ⟨htotal, hrest⟩ := htwoSum (abs_rounded_le representable_largest hab) hback
  have hbefore := toRat?_add_of_abs_le hupperError hlowerError
  rw [herrors] at hbefore
  have hall := toRat?_add_of_abs_le (hbefore hA) hrest (abs_rounded_le_largest hB)
  have hresult := toRat?_add_of_abs_le htotal hall
    (abs_rounded_le_largest (abs_total_lt ha hle hb hle'))
  rw [isFinite_eq_isSome_toRat?, isFinite_eq_isSome_toRat?, htotal, hresult]
  exact ⟨rfl, rfl⟩

/-! ### Sums of finite numbers -/

variable {xs : List Float}

/-- The exact value of a finite number. -/
def exactValue (x : Float) : ℚ := (toRat? x).getD 0

/-- The exact sum of finite numbers. -/
def exactSum (xs : List Float) : ℚ := (xs.map exactValue).sum

private theorem toRat?_of_isFinite (h : x.isFinite = true) : toRat? x = some (exactValue x) := by
  obtain ⟨q, hq⟩ := exists_toRat?_of_isFinite h
  rw [exactValue, hq, Option.getD_some]

private theorem zero_le_exactValue_iff (h : x.isFinite = true) : 0 ≤ x ↔ 0 ≤ exactValue x :=
  le_iff_of_toRat? rfl (toRat?_of_isFinite h)

private theorem exactSum_sortedByMagnitude (xs : List Float) :
    exactSum (sortedByMagnitude xs) = exactSum xs :=
  ((sortedByMagnitude_perm xs).map exactValue).sum_eq

/-- Finite numbers on one side, sorted, are accumulated without overflow if twice their exact sum is
in range. -/
private theorem running_sortedByMagnitude (s : Sign) (xs : List Float)
    (hfinite : ∀ x ∈ xs, x.isFinite = true) (hside : ∀ x ∈ xs, 0 ≤ withSign s (exactValue x))
    (hle : 2 * withSign s (exactSum xs) ≤ largest) :
    Running s (accumulate (sortedByMagnitude xs)) (withSign s (exactSum xs)) := by
  have htwice : ∀ q, withSign s (withSign s q) = q := by
    intro q
    cases s with
    | positive => rfl
    | negative => exact neg_neg q
  have hsum : ∀ ys : List Float,
      (ys.map fun x => withSign s (exactValue x)).sum = withSign s (exactSum ys) := by
    intro ys
    induction ys with
    | nil => cases s <;> rfl
    | cons y ys ih =>
      rw [List.map_cons, List.sum_cons, ih, withSign_add]
      rfl
  have hmem : ∀ {x}, x ∈ sortedByMagnitude xs → x ∈ xs := (sortedByMagnitude_perm xs).mem_iff.mp
  have hvalues : List.Forall₂ (fun x q => toRat? x = some (withSign s q)) (sortedByMagnitude xs)
      ((sortedByMagnitude xs).map fun x => withSign s (exactValue x)) := by
    rw [List.forall₂_map_right_iff, List.forall₂_same]
    intro x hx
    rw [htwice]
    exact toRat?_of_isFinite (hfinite x (hmem hx))
  have h := running_accumulate hvalues (by
    intro q hq
    obtain ⟨x, hx, rfl⟩ := List.mem_map.mp hq
    exact hside x (hmem hx)) (by rwa [hsum, exactSum_sortedByMagnitude])
  rwa [hsum, exactSum_sortedByMagnitude] at h

/-- A sum with compensation of finite numbers is finite if twice the exact sum of those on each side
is in range. -/
theorem isFinite_compensatedSum (hfinite : ∀ x ∈ xs, x.isFinite = true)
    (hupper : 2 * exactSum (xs.filter fun x => decide (0 ≤ x)) ≤ largest)
    (hlower : -largest ≤ 2 * exactSum (xs.filter fun x => !decide (0 ≤ x))) :
    (compensatedSum xs).isFinite = true := by
  have hupper' := running_sortedByMagnitude .positive (xs.filter fun x => decide (0 ≤ x))
    (fun x hx => hfinite x (List.mem_filter.mp hx).1)
    (fun x hx => by
      obtain ⟨hx, hside⟩ := List.mem_filter.mp hx
      exact (zero_le_exactValue_iff (hfinite x hx)).mp (of_decide_eq_true hside)) hupper
  have hlower' := running_sortedByMagnitude .negative (xs.filter fun x => !decide (0 ≤ x))
    (fun x hx => hfinite x (List.mem_filter.mp hx).1)
    (fun x hx => by
      obtain ⟨hx, hside⟩ := List.mem_filter.mp hx
      rw [Bool.not_eq_true', decide_eq_false_iff_not, zero_le_exactValue_iff (hfinite x hx)]
        at hside
      exact neg_nonneg.mpr (not_le.mp hside).le)
    (by rw [withSign]; linarith)
  obtain ⟨htotal, hresult⟩ := isFinite_of_running hupper' hupper hlower'
    (by rw [withSign]; linarith)
  rw [compensatedSum]
  simp only [htotal, if_true]
  exact hresult

end TypedFormula.Binary64
