import Mathlib
import TypedFormula.Library.Numbers
import TypedFormula.Proofs.Binary64.Compensation

/-!
# Sums that succeed

A sum fails when its result is not finite. The result can be small and still not be finite: numbers
of both signs are added apart, so that large numbers which would cancel overflow on both sides first
(`sum_of_cancelling`). What decides is therefore the size of each side and not that of the result. A
side may be as large as half of the largest number, whatever the numbers are and however many there
are (`sum_eq_ok_of_sides`).
-/

namespace TypedFormula.Library

open Binary64

/-- Finite numbers have a finite sum with compensation, and a sum in every form of arguments, if
neither the exact sum of those that are not negative nor that of the negative ones is larger in
magnitude than half of the largest number. -/
theorem sum_eq_ok_of_sides {xs : List Float} (hfinite : ∀ x ∈ xs, x.isFinite = true)
    (hupper : 2 * exactSum (xs.filter fun x => decide (0 ≤ x)) ≤ largest)
    (hlower : -largest ≤ 2 * exactSum (xs.filter fun x => !decide (0 ≤ x))) :
    (compensatedSum xs).isFinite = true ∧
      ∀ args, floatArguments args = .ok xs →
        sum args = .ok (.float (.plain (compensatedSum xs))) := by
  have hresult := isFinite_compensatedSum hfinite hupper hlower
  refine ⟨hresult, fun args hargs => ?_⟩
  change (floatArguments args >>= fun xs => finiteResult "SUM" (compensatedSum xs)) = _
  rw [hargs]
  exact if_pos hresult

/-- Numbers of nearly half of the largest number on both sides, one of them as a number and the
others as a list. -/
theorem sum_eq_ok_of_sides_of_halves :
    (∀ x ∈ [8e307, 1, -8e307], Float.isFinite x = true) ∧
      2 * exactSum ([8e307, 1, -8e307].filter fun x => decide (0 ≤ x)) ≤ largest ∧
      -largest ≤ 2 * exactSum ([8e307, 1, -8e307].filter fun x => !decide (0 ≤ x)) ∧
      (compensatedSum [8e307, 1, -8e307]).isFinite = true ∧
      sum [.float (.plain 8e307), .list (.floats [.plain 1, .plain (-8e307)])] =
        .ok (.float (.plain (compensatedSum [8e307, 1, -8e307]))) := by
  have hfinite : ∀ x ∈ [8e307, 1, -8e307], Float.isFinite x = true := by decide +kernel
  have hupper : 2 * exactSum ([8e307, 1, -8e307].filter fun x => decide (0 ≤ x)) ≤ largest := by
    decide +kernel
  have hlower : -largest ≤ 2 * exactSum ([8e307, 1, -8e307].filter fun x => !decide (0 ≤ x)) := by
    decide +kernel
  obtain ⟨hresult, hsum⟩ := sum_eq_ok_of_sides hfinite hupper hlower
  exact ⟨hfinite, hupper, hlower, hresult, hsum _ rfl⟩

/-- Large numbers that cancel exactly, the two sides of which overflow. -/
def cancelling : List Float := [1.5e308, 1.5e308, -1.5e308, -1.5e308]

/-- An exact sum of zero does not keep a sum from failing. -/
theorem sum_of_cancelling :
    (∀ x ∈ cancelling, x.isFinite = true) ∧ exactSum cancelling = 0 ∧
      2 * |exactSum cancelling| ≤ largest ∧ (compensatedSum cancelling).isFinite = false ∧
      sum [.list (.floats (cancelling.map .plain))] = .error (.arithmetic (.notFinite "SUM")) := by
  have hfilter : (cancelling.filter fun x => decide (0 ≤ x)) = [1.5e308, 1.5e308] ∧
      (cancelling.filter fun x => !decide (0 ≤ x)) = [-1.5e308, -1.5e308] := by
    decide +kernel
  have hupper : sortedByMagnitude [1.5e308, 1.5e308] = [1.5e308, 1.5e308] :=
    List.mergeSort_of_pairwise (by decide +kernel)
  have hlower : sortedByMagnitude [-1.5e308, -1.5e308] = [-1.5e308, -1.5e308] :=
    List.mergeSort_of_pairwise (by decide +kernel)
  -- the difference of the two infinities is no number
  have hsum : (compensatedSum cancelling).isFinite = false := by
    rw [compensatedSum, hfilter.1, hfilter.2, hupper, hlower]
    decide +kernel
  refine ⟨by decide +kernel, by decide +kernel, by decide +kernel, hsum, ?_⟩
  change finiteResult "SUM" (compensatedSum cancelling) = _
  rw [finiteResult, hsum]
  rfl

end TypedFormula.Library
