import Mathlib
import TypedFormula.Library.Numbers
import TypedFormula.Proofs.Binary64.Remainder

/-!
# Remainders of the library

A remainder is finite only if the dividend and the divisor are, and then it is that of their exact
values with three roundings (`exists_toRat?_of_remainder`). It is meant to have the sign of the
divisor and not to be larger, which is so exactly if the rounded multiple of the divisor that is
taken away from the dividend misses it by no more than the divisor and does not pass it
(`mod_followsDivisor_iff`). Quotients with more than 53 digits need not do so
(`mod_of_large_quotients`); whole numbers up to `2 ^ 53` always do.
-/

namespace TypedFormula

open Float.Model Float.Model.UnpackedFloat

namespace Binary64

variable {x y : Float} {q r : ℚ}

/-- A finite quotient of finite numbers is not one by zero. -/
private theorem ne_zero_of_toRat?_div (h : toRat? (x / y) = some r) (hy : toRat? y = some q) :
    q ≠ 0 := by
  rintro rfl
  have hfits : Fits (UnpackedFloat.div .binary64 x.toModel.unpack y.toModel.unpack) :=
    fits_of_toRat? h
  obtain ⟨t, huy, -⟩ | ⟨t, n, f, hn, huy, hzero⟩ := exists_unpack_of_toRat? hy
  · rw [huy] at hfits
    cases hux : x.toModel.unpack <;> rw [hux] at hfits <;> exact hfits.elim
  · have hpos := mul_zpow_pos hn f
    rw [← abs_signedValue t n f, ← hzero, abs_zero] at hpos
    exact lt_irrefl 0 hpos

/-- A finite remainder is that of two exact values, with three roundings. -/
theorem exists_toRat?_of_remainder (h : toRat? (Library.remainder x y) = some r) :
    ∃ d v, toRat? x = some d ∧ toRat? y = some v ∧ v ≠ 0 ∧ r = roundedRemainder d v := by
  rw [Library.remainder] at h
  obtain ⟨d, t, hd, ht⟩ := exists_toRat?_of_sub h
  obtain ⟨v, k, hv, hk⟩ := exists_toRat?_of_mul ht
  obtain ⟨q, hq⟩ := exists_toRat?_of_integral hk
  have hne : v ≠ 0 := ne_zero_of_toRat?_div hq hv
  have hquotient : rounded (d / v) = q :=
    (inRange?_eq_some_iff.mp ((toRat?_div hd hv hne).symm.trans hq)).2
  have hdown : k = ⌊rounded (d / v)⌋ := by
    rw [hquotient]
    exact Option.some.inj (hk.symm.trans (toRat?_integral_down hq))
  have htaken : takenAway d v = t := by
    rw [takenAway, ← hdown]
    exact (inRange?_eq_some_iff.mp ((toRat?_mul hv hk).symm.trans ht)).2
  refine ⟨d, v, hd, hv, hne, ?_⟩
  rw [roundedRemainder, htaken]
  exact (inRange?_eq_some_iff.mp ((toRat?_sub hd ht).symm.trans h)).2.symm

end Binary64

namespace Library

open Binary64

/-- A remainder that is a result is a finite one of the two arguments. -/
private theorem exists_of_mod {args : List Value} {w : Value} (h : mod args = .ok w) :
    ∃ x y, floatArgument args 0 = .ok x ∧ floatArgument args 1 = .ok y ∧
      w = .float (.plain (remainder x y)) ∧ (remainder x y).isFinite = true := by
  change (floatArgument args 0 >>= fun x => floatArgument args 1 >>= fun y =>
    if Float.beq y 0 then .error (.arithmetic .divisionByZero)
    else finiteResult "MOD" (remainder x y)) = .ok w at h
  cases hx : floatArgument args 0 with
  | error e =>
    rw [hx] at h
    cases h
  | ok x =>
    cases hy : floatArgument args 1 with
    | error e =>
      rw [hx, hy] at h
      cases h
    | ok y =>
      rw [hx, hy] at h
      change (if Float.beq y 0 then _ else finiteResult "MOD" (remainder x y)) = .ok w at h
      split at h
      · cases h
      · rw [finiteResult] at h
        split at h
        · rename_i hfinite
          exact ⟨x, y, rfl, rfl, (Except.ok.inj h).symm, hfinite⟩
        · cases h

/-- A remainder that is a result follows the divisor exactly if the difference of which it is
rounded is between zero and the divisor; and it does for multiples of a power of two with at most 53
digits, where it is the exact remainder unless their difference is longer. -/
theorem mod_followsDivisor_iff {args : List Value} {w : Value} (h : mod args = .ok w) :
    ∃ x y r d v, floatArgument args 0 = .ok x ∧ floatArgument args 1 = .ok y ∧
      w = .float (.plain r) ∧ toRat? x = some d ∧ toRat? y = some v ∧ v ≠ 0 ∧
      toRat? r = some (roundedRemainder d v) ∧
      (FollowsDivisor (roundedRemainder d v) v ↔
        0 ≤ (d - takenAway d v) / v ∧ (d - takenAway d v) / v ≤ 1) ∧
      ∀ e, -1074 ≤ e → IsMultiple e d → IsMultiple e v → |d| ≤ 2 ^ (e + 53) →
        |v| ≤ 2 ^ (e + 53) →
        FollowsDivisor (roundedRemainder d v) v ∧
          (|d - v| ≤ 2 ^ (e + 53) → roundedRemainder d v = d - v * ⌊d / v⌋) := by
  obtain ⟨x, y, hx, hy, hw, hfinite⟩ := exists_of_mod h
  obtain ⟨r, hr⟩ := exists_toRat?_of_isFinite hfinite
  obtain ⟨d, v, hd, hv, hne, rfl⟩ := exists_toRat?_of_remainder hr
  refine ⟨x, y, remainder x y, d, v, hx, hy, hw, hd, hv, hne, hr, ?_, ?_⟩
  · exact followsDivisor_iff (representable_of_toRat? hd).1 (representable_of_toRat? hv).1 hne
  · intro e he hde hve hdle hvle
    exact ⟨followsDivisor_of_isMultiple he hde hve hdle hvle hne,
      roundedRemainder_of_isMultiple he hde hve hdle hvle hne⟩

/-- A negative dividend and a positive divisor, as a number and a whole number. -/
theorem mod_followsDivisor_iff_of_small :
    mod [.float (.plain (-3)), .integer 2] = .ok (.float (.plain 1)) ∧
      toRat? 1 = some (roundedRemainder (-3) 2) ∧ FollowsDivisor (roundedRemainder (-3) 2) 2 ∧
      roundedRemainder (-3) 2 = -3 - 2 * ⌊(-3 / 2 : ℚ)⌋ := by
  have hmod : mod [.float (.plain (-3)), .integer 2] = .ok (.float (.plain 1)) := by
    decide +kernel
  obtain ⟨x, y, r, d, v, hx, hy, hr, hd, hv, -, hvalue, -, hfew⟩ := mod_followsDivisor_iff hmod
  obtain rfl : (-3 : Float) = x := Except.ok.inj hx
  obtain rfl : Binary64.ofInt 2 = y := Except.ok.inj hy
  obtain rfl : (1 : Float) = r := Number.plain.inj (Value.float.inj hr)
  obtain rfl : (-3 : ℚ) = d := by
    rw [← Option.some_inj, ← hd]
    decide +kernel
  obtain rfl : (2 : ℚ) = v := by
    rw [← Option.some_inj, ← hv]
    decide +kernel
  have hdividend : IsMultiple 0 (-3) := ⟨-3, by norm_num⟩
  have hdivisor : IsMultiple 0 2 := ⟨2, by norm_num⟩
  obtain ⟨hfollows, hexact⟩ := hfew 0 (by decide) hdividend hdivisor (by norm_num) (by norm_num)
  exact ⟨hmod, hvalue, hfollows, hexact (by norm_num)⟩

/-- Large dividends for which the remainder has the wrong sign, or the wrong size. -/
theorem mod_of_large_quotients :
    mod [.float (.plain 7.3e21), .integer 3] = .ok (.float (.plain (-1048576))) ∧
      mod [.float (.plain 7.1e21), .integer 3] = .ok (.float (.plain 1048576)) ∧
      toRat? 7.3e21 = some 7300000000000000000000 ∧ toRat? (-1048576) = some (-1048576) ∧
      toRat? 7.1e21 = some 7100000000000000000000 ∧ toRat? 1048576 = some 1048576 ∧
      toRat? (ofInt 3) = some 3 ∧ ¬ FollowsDivisor (-1048576) 3 ∧ ¬ FollowsDivisor 1048576 3 := by
  refine ⟨by decide +kernel, by decide +kernel, by decide +kernel, by decide +kernel,
    by decide +kernel, by decide +kernel, by decide +kernel, ?_, ?_⟩
  · rw [followsDivisor_iff_of_pos (by norm_num)]
    norm_num
  · rw [followsDivisor_iff_of_pos (by norm_num)]
    norm_num

end Library

end TypedFormula
