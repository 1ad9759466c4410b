import Mathlib
import TypedFormula.Binary64.Sum

/-!
# The order of the summands

A sum with compensation adds numbers in a fixed order, so it gives the same number for every order
of the input, although addition is not associative. Two steps fix the order: the numbers are
separated by `0 ≤ x`, and each part is sorted by magnitude. Numbers of one magnitude differ in the
sign only (`abs_unpack_of_magnitudeRank`), and those in one part not even in the sign, except for
the two zeros: both are in the upper part, and sorting leaves them in the order of the input.

The zeros come first in the sorted part, where they meet a running sum of `0`. Of addition nothing
more is needed than that adding a zero of either sign to `0` gives `0` without an error
(`accumulate_eq_filter`).

Main statements:

* `rank_injective` — two numbers have different places in the total order;
* `compensatedSum_perm` — a sum with compensation does not depend on the order.
-/

namespace TypedFormula.Binary64

open Float.Model Float.Model.UnpackedFloat

variable {x y : Float} {xs ys : List Float}

/-! ### Numbers of one magnitude -/

/-- A number is known by what it is unpacked to. -/
theorem eq_of_unpack (h : x.toModel.unpack = y.toModel.unpack) : x = y := by
  rw [← Float.toBits_inj, ← UInt64.toBitVec_inj]
  exact (unpack_inj_of_valid x.toModel.valid y.toModel.valid).mp h

private theorem abs_unpack_eq {a b : BitVec Format.binary64.numBits}
    (hexponent : unpackExponent a = unpackExponent b)
    (hmantissa : unpackMantissa a = unpackMantissa b) :
    (UnpackedFloat.unpack .binary64 a).abs = (UnpackedFloat.unpack .binary64 b).abs := by
  simp only [UnpackedFloat.unpack, hexponent, hmantissa]
  split
  · split <;> rfl
  · split
    · split <;> rfl
    · rfl

/-- Numbers at one place among the magnitudes have one magnitude. -/
theorem abs_unpack_of_magnitudeRank (h : magnitudeRank x = magnitudeRank y) :
    x.toModel.unpack.abs = y.toModel.unpack.abs := by
  have hbits : x.toBits.toBitVec.toNat % 2 ^ 63 = y.toBits.toBitVec.toNat % 2 ^ 63 := h
  refine abs_unpack_eq ?_ ?_
  · rw [unpackExponent_def, unpackExponent_def, ← BitVec.toNat_inj, BitVec.extractLsb'_toNat,
      BitVec.extractLsb'_toNat, Nat.shiftRight_eq_div_pow, Nat.shiftRight_eq_div_pow]
    change x.toBits.toBitVec.toNat / 2 ^ 52 % 2 ^ 11 = y.toBits.toBitVec.toNat / 2 ^ 52 % 2 ^ 11
    omega
  · rw [unpackMantissa_def, unpackMantissa_def, ← BitVec.toNat_inj, BitVec.extractLsb'_toNat,
      BitVec.extractLsb'_toNat, Nat.shiftRight_zero, Nat.shiftRight_zero]
    change x.toBits.toBitVec.toNat % 2 ^ 52 = y.toBits.toBitVec.toNat % 2 ^ 52
    omega

/-- A number is a zero exactly if it has the first place among the magnitudes. -/
private theorem magnitudeRank_eq_zero_iff : magnitudeRank x = 0 ↔ x = 0 ∨ x = -0 := by
  constructor
  · intro h
    have hzero : (0 : Float).toModel.unpack = .zero .positive := rfl
    have hnegative : (-0 : Float).toModel.unpack = .zero .negative := rfl
    have habs : x.toModel.unpack.abs = (0 : Float).toModel.unpack.abs :=
      abs_unpack_of_magnitudeRank h
    rw [hzero] at habs
    cases hx : x.toModel.unpack with
    | zero s =>
      cases s with
      | positive => exact .inl (eq_of_unpack (hx.trans hzero.symm))
      | negative => exact .inr (eq_of_unpack (hx.trans hnegative.symm))
    | _ => rw [hx] at habs; cases habs
  · rintro (rfl | rfl) <;> decide

/-- Whether a number is not negative is said by what it is unpacked to. -/
private theorem zero_le_iff :
    0 ≤ x ↔ ((UnpackedFloat.zero .positive).compare x.toModel.unpack).any (·.isLE) = true := by
  have hzero : (0 : Float).toModel.unpack = .zero .positive := rfl
  rw [← hzero]
  exact decide_eq_true_iff

/-- Numbers of one magnitude on the same side are equal, unless they are zeros. -/
private theorem eq_or_magnitudeRank_eq_zero (hside : 0 ≤ x ↔ 0 ≤ y)
    (hrank : magnitudeRank x = magnitudeRank y) : x = y ∨ magnitudeRank x = 0 := by
  have habs := abs_unpack_of_magnitudeRank hrank
  rw [zero_le_iff, zero_le_iff] at hside
  cases hx : x.toModel.unpack with
  | notANumber =>
    cases hy : y.toModel.unpack with
    | notANumber => exact .inl (eq_of_unpack (hx.trans hy.symm))
    | _ => rw [hx, hy] at habs; cases habs
  | zero s =>
    cases s with
    | positive => exact .inr (magnitudeRank_eq_zero_iff.mpr (.inl (eq_of_unpack hx)))
    | negative => exact .inr (magnitudeRank_eq_zero_iff.mpr (.inr (eq_of_unpack hx)))
  | infinity s =>
    cases hy : y.toModel.unpack with
    | infinity t =>
      rw [hx, hy] at hside
      have hsign : s = t := by
        revert hside
        cases s <;> cases t <;> simp [UnpackedFloat.compare]
      exact .inl (eq_of_unpack (by rw [hx, hy, hsign]))
    | _ => rw [hx, hy] at habs; cases habs
  | finite s m e hm =>
    cases hy : y.toModel.unpack with
    | finite t n f hn =>
      rw [hx, hy] at hside habs
      have hsign : s = t := by
        revert hside
        cases s <;> cases t <;> simp [UnpackedFloat.compare]
      cases habs
      exact .inl (eq_of_unpack (by rw [hx, hy, hsign]))
    | _ => rw [hx, hy] at habs; cases habs

/-- Different numbers have different places in the total order. -/
theorem rank_injective : Function.Injective rank := by
  intro x y h
  have hx : x.toBits.toNat < 2 ^ 64 := x.toBits.toNat_lt
  have hy : y.toBits.toNat < 2 ^ 64 := y.toBits.toNat_lt
  rw [← Float.toBits_inj, ← UInt64.toNat_inj]
  simp only [rank, signBit] at h
  split_ifs at h <;> omega

/-! ### Sorted by magnitude -/

theorem sortedByMagnitude_perm (xs : List Float) : (sortedByMagnitude xs).Perm xs :=
  List.mergeSort_perm _ _

/-- Sorted numbers ascend in magnitude. -/
private theorem sortedByMagnitude_pairwise (xs : List Float) :
    (sortedByMagnitude xs).Pairwise fun x y => magnitudeRank x ≤ magnitudeRank y := by
  have htrans : ∀ x y z : Float, decide (magnitudeRank x ≤ magnitudeRank y) = true →
      decide (magnitudeRank y ≤ magnitudeRank z) = true →
      decide (magnitudeRank x ≤ magnitudeRank z) = true := by
    intro x y z hxy hyz
    simp only [decide_eq_true_eq] at hxy hyz ⊢
    exact hxy.trans hyz
  have htotal : ∀ x y : Float, (decide (magnitudeRank x ≤ magnitudeRank y) ||
      decide (magnitudeRank y ≤ magnitudeRank x)) = true := by
    intro x y
    simp only [Bool.or_eq_true, decide_eq_true_eq]
    exact Nat.le_total _ _
  exact (List.pairwise_mergeSort htrans htotal xs).imp of_decide_eq_true

/-- Two orders of some numbers are the same order if both ascend in magnitude and only one number
has each magnitude. -/
private theorem eq_of_pairwise_magnitudeRank
    (hinj : ∀ x ∈ xs, ∀ y ∈ xs, magnitudeRank x = magnitudeRank y → x = y)
    (hxs : xs.Pairwise fun x y => magnitudeRank x ≤ magnitudeRank y)
    (hys : ys.Pairwise fun x y => magnitudeRank x ≤ magnitudeRank y) (h : xs.Perm ys) :
    xs = ys :=
  h.eq_of_pairwise (fun x y hx hy hle hge => hinj x hx y (h.mem_iff.mpr hy) (hle.antisymm hge))
    hxs hys

/-! ### Sums -/

/-- Zeros at the front of a sum have no effect. -/
private theorem accumulate_cons_of_magnitudeRank (hx : magnitudeRank x = 0) :
    accumulate (x :: xs) = accumulate xs := by
  have hstep : ((twoSum 0 x).1, 0 + (twoSum 0 x).2) = (0, 0) := by
    obtain rfl | rfl := magnitudeRank_eq_zero_iff.mp hx <;> decide
  change xs.foldl _ ((twoSum 0 x).1, 0 + (twoSum 0 x).2) = accumulate xs
  rw [hstep]
  rfl

/-- A sum of numbers that ascend in magnitude is that of those that are not zero. -/
theorem accumulate_eq_filter
    (h : xs.Pairwise fun x y => magnitudeRank x ≤ magnitudeRank y) :
    accumulate xs = accumulate (xs.filter fun x => decide (0 < magnitudeRank x)) := by
  induction h with
  | nil => rfl
  | @cons x xs hle hxs ih =>
    by_cases hx : magnitudeRank x = 0
    · rw [accumulate_cons_of_magnitudeRank hx, ih, List.filter_cons_of_neg (by simp [hx])]
    · -- behind a number that is not zero there is no zero
      have hpos : ∀ y ∈ x :: xs, decide (0 < magnitudeRank y) = true := by
        intro y hy
        rw [decide_eq_true_eq]
        obtain rfl | hmem := List.mem_cons.mp hy
        · omega
        · have := hle y hmem
          omega
      rw [List.filter_eq_self.mpr hpos]

/-- The sum of numbers on one side does not depend on their order. -/
private theorem accumulate_sortedByMagnitude_perm (h : xs.Perm ys)
    (hside : ∀ x ∈ xs, ∀ y ∈ xs, 0 ≤ x ↔ 0 ≤ y) :
    accumulate (sortedByMagnitude xs) = accumulate (sortedByMagnitude ys) := by
  have hxs := sortedByMagnitude_pairwise xs
  have hys := sortedByMagnitude_pairwise ys
  have hsorted : (sortedByMagnitude xs).Perm (sortedByMagnitude ys) :=
    ((sortedByMagnitude_perm xs).trans h).trans (sortedByMagnitude_perm ys).symm
  rw [accumulate_eq_filter hxs, accumulate_eq_filter hys]
  refine congrArg accumulate
    (eq_of_pairwise_magnitudeRank ?_ (hxs.filter _) (hys.filter _) (hsorted.filter _))
  intro x hx y hy hrank
  obtain ⟨hx, hpos⟩ := List.mem_filter.mp hx
  obtain ⟨hy, -⟩ := List.mem_filter.mp hy
  have hx := (sortedByMagnitude_perm xs).mem_iff.mp hx
  have hy := (sortedByMagnitude_perm xs).mem_iff.mp hy
  refine (eq_or_magnitudeRank_eq_zero (hside x hx y hy) hrank).resolve_right ?_
  exact Nat.ne_of_gt (of_decide_eq_true hpos)

/-- A sum with compensation does not depend on the order of the numbers. -/
theorem compensatedSum_perm (h : xs.Perm ys) : compensatedSum xs = compensatedSum ys := by
  have hupper := accumulate_sortedByMagnitude_perm (h.filter fun x => decide (0 ≤ x)) (by
    intro x hx y hy
    have hx := of_decide_eq_true (List.mem_filter.mp hx).2
    have hy := of_decide_eq_true (List.mem_filter.mp hy).2
    exact iff_of_true hx hy)
  have hlower := accumulate_sortedByMagnitude_perm (h.filter fun x => !decide (0 ≤ x)) (by
    intro x hx y hy
    have hx := (List.mem_filter.mp hx).2
    have hy := (List.mem_filter.mp hy).2
    rw [Bool.not_eq_true', decide_eq_false_iff_not] at hx hy
    exact iff_of_false hx hy)
  rw [compensatedSum, compensatedSum, hupper, hlower]

end TypedFormula.Binary64
