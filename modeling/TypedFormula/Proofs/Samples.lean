import Mathlib
import TypedFormula.Library
import TypedFormula.Proofs.Binary64.Sums

/-!
# The order of a sample

Arguments in another order, or arranged into other lists, give a sample in another order. Sums,
means, medians, variances and deviations are the same for it, down to the last bit, and so are the
errors: an empty sample, too few numbers, a result that is not finite.

A sum with compensation fixes the order by itself. A mean adds the size, a variance takes the mean
and then the sum of the squared deviations, which are the same in another order. A median is read
off the sorted sample, and the total order by which a sample is sorted has one place for each number
(`Number.rank_injective`), so that there is one sorted sample. It has two places for the zeros and
for the two kinds of NaN, and neither needs an exception.

Main statements:

* `Number.sorted_eq_of_perm` — there is one sorted sample;
* `Library.meanOf_perm`, `Library.varianceOf_perm` — mean and variance do not depend on the order;
* `Library.body_eq_of_perm` — nor do the functions on samples.
-/

namespace TypedFormula

/-! ### Sorted samples -/

namespace Number

/-- Different numbers have different places in the total order. -/
theorem rank_injective : Function.Injective rank := by
  -- a number at the place of the negative NaN would be NaN
  have hnegative : ∀ x : Float, Binary64.rank x ≠ negativeNaN.rank := by
    intro x hx
    have hplace : negativeNaN.rank = -9221120237041090561 := by decide
    have hmagnitude : Binary64.magnitudeRank (0 / 0) = 9221120237041090560 := by decide
    have hnan : (0 / 0 : Float).toModel.unpack = .notANumber := rfl
    have hrank : Binary64.magnitudeRank x = Binary64.magnitudeRank (0 / 0) := by
      rw [hplace, Binary64.rank] at hx
      rw [hmagnitude, Binary64.magnitudeRank]
      have hbits : x.toBits.toNat < 2 ^ 64 := x.toBits.toNat_lt
      simp only [Binary64.signBit] at hx ⊢
      split_ifs at hx <;> omega
    have habs := Binary64.abs_unpack_of_magnitudeRank hrank
    rw [hnan] at habs
    cases hu : x.toModel.unpack with
    | notANumber =>
      obtain rfl : x = 0 / 0 := Binary64.eq_of_unpack (hu.trans hnan.symm)
      exact absurd hx (by decide)
    | _ => rw [hu] at habs; cases habs
  intro x y h
  cases x with
  | plain x =>
    cases y with
    | plain y => exact congrArg plain (Binary64.rank_injective h)
    | negativeNaN => exact absurd h (hnegative x)
  | negativeNaN =>
    cases y with
    | plain y => exact absurd h.symm (hnegative y)
    | negativeNaN => rfl

/-- There is one sorted order of a sample. -/
theorem sorted_eq_of_perm {xs ys : List Number} (h : xs.Perm ys) : sorted xs = sorted ys := by
  have hsorted : (sorted xs).Perm (sorted ys) :=
    ((sorted_perm xs).trans h).trans (sorted_perm ys).symm
  exact hsorted.eq_of_pairwise (fun x y _ _ hle hge => rank_injective (hle.antisymm hge))
    (sorted_pairwise xs) (sorted_pairwise ys)

end Number

namespace Library

/-! ### Statistics -/

/-- The mean does not depend on the order. -/
theorem meanOf_perm {xs ys : List Float} (h : xs.Perm ys) : meanOf xs = meanOf ys := by
  rw [meanOf, meanOf, Binary64.compensatedSum_perm h, h.length_eq]

/-- The variance does not depend on the order. -/
theorem varianceOf_perm {xs ys : List Float} (h : xs.Perm ys) : varianceOf xs = varianceOf ys := by
  have hsquares := Binary64.compensatedSum_perm
    (h.map fun x => (x - meanOf ys) * (x - meanOf ys))
  simp only [varianceOf, meanOf_perm h, h.length_eq, hsquares]

/-! ### Functions on samples -/

/-- The names of the functions that combine the numbers in no order. -/
def orderless : List String := ["SUM", "AVERAGE", "COUNT", "MEDIAN", "VAR", "STDEV"]

section

variable {args others : List Value} {xs ys : List Number} {α : Type}

private theorem numberArguments_of_flattenNumbers (h : flattenNumbers args = .ok xs) :
    numberArguments args = .ok xs := by
  rw [numberArguments, h]
  rfl

variable (hxs : flattenNumbers args = .ok xs) (hys : flattenNumbers others = .ok ys)
  (hperm : xs.Perm ys)

include hxs hys hperm

/-- What does not depend on the order of the numbers is the same for both arguments. -/
private theorem numberArguments_bind_perm {result : List Number → Except FunctionError α}
    (hresult : ∀ us vs : List Number, us.Perm vs → result us = result vs) :
    (numberArguments args >>= result) = numberArguments others >>= result := by
  rw [numberArguments_of_flattenNumbers hxs, numberArguments_of_flattenNumbers hys]
  exact hresult xs ys hperm

/-- What does not depend on the order of the binary64 numbers is the same for both arguments. -/
private theorem floatArguments_bind_perm {result : List Float → Except FunctionError α}
    (hresult : ∀ us vs : List Float, us.Perm vs → result us = result vs) :
    (floatArguments args >>= result) = floatArguments others >>= result := by
  rw [floatArguments, floatArguments, bind_assoc, bind_assoc]
  exact numberArguments_bind_perm hxs hys hperm fun us vs h => hresult _ _ (h.map Number.value)

/-- What does not depend on the order of a sample is the same for both arguments. -/
private theorem sampleArguments_bind_perm {statistic : String}
    {result : List Number → Except FunctionError α}
    (hresult : ∀ us vs : List Number, us.Perm vs → result us = result vs) :
    (sampleArguments statistic args >>= result) = sampleArguments statistic others >>= result := by
  rw [sampleArguments, sampleArguments, bind_assoc, bind_assoc]
  refine numberArguments_bind_perm hxs hys hperm fun us vs h => ?_
  rw [h.isEmpty_eq]
  split
  · rfl
  · exact hresult us vs h

/-- The sum does not depend on the order of the numbers. -/
private theorem sum_eq_of_perm : sum args = sum others :=
  floatArguments_bind_perm hxs hys hperm fun us vs h => by
    rw [Binary64.compensatedSum_perm h]

/-- The functions on samples do not depend on the order, but for the extremes. -/
private theorem body_eq_of_mem_sampleFunctions :
    ∀ f ∈ sampleFunctions, f.name ∈ orderless → f.body args = f.body others := by
  have haverage : average args = average others :=
    sampleArguments_bind_perm hxs hys hperm fun us vs h => by
      rw [meanOf_perm (h.map Number.value)]
  have hcount : count args = count others :=
    numberArguments_bind_perm hxs hys hperm fun us vs h => by
      rw [h.length_eq]
  have hmedian : median args = median others :=
    sampleArguments_bind_perm hxs hys hperm fun us vs h => by
      rw [Number.sorted_eq_of_perm h]
  have hstdev : stdev args = stdev others :=
    floatArguments_bind_perm hxs hys hperm fun us vs h => by
      rw [varianceOf_perm h]
  have hvar : var args = var others :=
    floatArguments_bind_perm hxs hys hperm fun us vs h => by
      rw [varianceOf_perm h]
  simp only [sampleFunctions, List.forall_mem_cons, List.not_mem_nil, false_imp_iff,
    implies_true, and_true]
  refine ⟨fun _ => haverage, fun _ => hcount, ?max, fun _ => hmedian, ?min, fun _ => hstdev,
    fun _ => hvar⟩
  all_goals exact fun h => absurd h (by decide)

/-- Sum, mean, count, median, variance and deviation do not depend on the order of the numbers, and
neither does the sum with compensation that they are made of. -/
theorem body_eq_of_perm [Binary64.Logarithms] :
    (∀ f ∈ functions, f.name ∈ orderless → f.body args = f.body others) ∧
    Binary64.compensatedSum (xs.map Number.value) =
      Binary64.compensatedSum (ys.map Number.value) := by
  have hnumbers : ∀ f ∈ numberFunctions, f.name ∈ orderless → f.body args = f.body others := by
    have hsum : sum args = sum others := sum_eq_of_perm hxs hys hperm
    simp only [numberFunctions, List.forall_mem_cons, List.not_mem_nil, false_imp_iff,
      implies_true, and_true]
    refine ⟨?_, ?_, ?_, ?_, ?_, ?_, ?_, ?_, ?_, ?_, fun _ => hsum, ?_⟩
    all_goals exact fun h => absurd h (by simp only [floatFunction]; decide)
  have hothers : ∀ f ∈ stringFunctions ++ conditionFunctions ++ sequenceFunctions,
      f.name ∉ orderless := by decide
  refine ⟨fun f hf hname => ?_, Binary64.compensatedSum_perm (hperm.map Number.value)⟩
  simp only [functions, List.append_assoc] at hf hothers
  obtain hf | hf := List.mem_append.mp hf
  · exact hnumbers f hf hname
  · obtain hf | hf := List.mem_append.mp hf
    · exact body_eq_of_mem_sampleFunctions hxs hys hperm f hf hname
    · exact absurd hname (hothers f hf)

end

/-- Two zeros and an infinity, in the opposite order and in another list. -/
theorem body_eq_of_perm_of_zeros :
    flattenNumbers [.boolean false, .list (.floats [.plain (-0), .plain (1 / 0)]), .integer 2] =
      .ok [.plain 0, .plain (-0), .plain (1 / 0), .plain 2] ∧
    flattenNumbers [.list (.floats [.plain 2, .plain (1 / 0), .plain (-0), .plain 0])] =
      .ok [.plain 2, .plain (1 / 0), .plain (-0), .plain 0] ∧
    [Number.plain 0, .plain (-0), .plain (1 / 0), .plain 2].Perm
      [.plain 2, .plain (1 / 0), .plain (-0), .plain 0] ∧
    ∀ f ∈ functions, f.name ∈ orderless →
      f.body [.boolean false, .list (.floats [.plain (-0), .plain (1 / 0)]), .integer 2] =
        f.body [.list (.floats [.plain 2, .plain (1 / 0), .plain (-0), .plain 0])] := by
  have hargs : flattenNumbers
      [.boolean false, .list (.floats [.plain (-0), .plain (1 / 0)]), .integer 2] =
        .ok [.plain 0, .plain (-0), .plain (1 / 0), .plain 2] := rfl
  have hothers : flattenNumbers
      [.list (.floats [.plain 2, .plain (1 / 0), .plain (-0), .plain 0])] =
        .ok [.plain 2, .plain (1 / 0), .plain (-0), .plain 0] := rfl
  have hperm : [Number.plain 0, .plain (-0), .plain (1 / 0), .plain 2].Perm
      [.plain 2, .plain (1 / 0), .plain (-0), .plain 0] :=
    (List.reverse_perm [Number.plain 0, .plain (-0), .plain (1 / 0), .plain 2]).symm
  exact ⟨hargs, hothers, hperm, (body_eq_of_perm hargs hothers hperm).1⟩

end Library

end TypedFormula
