import Mathlib
import TypedFormula.Binary64.Rounding

/-!
# Rounding to binary64 and its range

Binary64 arithmetic takes numbers apart into digits and an exponent, calculates with these exactly,
rounds to the digits there is room for and packs the result, and only the packing knows that the
exponents end: what is too large is packed as an infinity. To know that a result is finite is
therefore to bound the exponent with which a number leaves the rounding (`Fits`), and the exponent
is known from the place of the most significant digit. All bounds here are bounds on this place.

Rounding up may add a digit, so the place can move by one. For a number below `2 ^ 1023` this does
no harm (`fits_round`, `fits_roundWithAccuracy`). The other direction, that numbers of many digits
do not get smaller than the power of two below them (`exists_roundWithAccuracy`), is what powers of
ten need.

Main statements:

* `isFinite_ofModel_pack` — a packed number is finite exactly when it fits;
* `bounds_of_unpack` — the digits and the exponent of a number have bounds;
* `fits_round`, `fits_roundWithAccuracy` — what is not too large is rounded to what fits;
* `exists_roundWithAccuracy` — rounding keeps the power of two that a number reaches.
-/

namespace TypedFormula.Binary64

open Float.Model Float.Model.UnpackedFloat

/-! ### Lengths of natural numbers -/

theorem log2_le_of_lt {n k : Nat} (h : n < 2 ^ (k + 1)) : n.log2 ≤ k := by
  by_cases hn : n = 0
  · subst hn
    exact Nat.zero_le _
  · exact Nat.lt_succ_iff.mp ((Nat.log2_lt hn).mpr h)

/-- What is left of a number when `n` digits are dropped, and one more from rounding up. -/
private theorem log2_le_of_le_div_succ {r m n : Nat} (h : r ≤ m / 2 ^ n + 1) :
    r.log2 ≤ m.log2 + 1 - n := by
  have hm : m < 2 ^ (m.log2 + 1) := Nat.lt_log2_self
  by_cases hn : n ≤ m.log2 + 1
  · have hdiv : m / 2 ^ n < 2 ^ (m.log2 + 1 - n) := by
      rw [Nat.div_lt_iff_lt_mul (Nat.two_pow_pos n), ← Nat.pow_add, Nat.sub_add_cancel hn]
      exact hm
    have hpos : 0 < 2 ^ (m.log2 + 1 - n) := Nat.two_pow_pos _
    refine log2_le_of_lt ?_
    rw [Nat.pow_succ]
    omega
  · have hzero : m / 2 ^ n = 0 :=
      Nat.div_eq_of_lt (Nat.lt_of_lt_of_le hm (Nat.pow_le_pow_right (by omega) (by omega)))
    rw [hzero] at h
    exact Nat.le_trans (log2_le_of_lt (by omega : r < 2 ^ (0 + 1))) (Nat.zero_le _)

theorem log2_shiftLeft_le (m n : Nat) : (m <<< n).log2 ≤ m.log2 + n := by
  refine log2_le_of_lt ?_
  rw [Nat.shiftLeft_eq, Nat.add_right_comm, Nat.pow_add]
  exact Nat.mul_lt_mul_of_pos_right Nat.lt_log2_self (Nat.two_pow_pos n)

theorem log2_div_le {a b : Nat} (hb : 0 < b) : (a / b).log2 ≤ a.log2 - b.log2 := by
  by_cases h : b.log2 ≤ a.log2
  · refine log2_le_of_lt ?_
    have hb' : 2 ^ b.log2 ≤ b := Nat.log2_self_le (Nat.ne_of_gt hb)
    rw [Nat.div_lt_iff_lt_mul hb]
    calc a < 2 ^ (a.log2 + 1) := Nat.lt_log2_self
      _ = 2 ^ (a.log2 - b.log2 + 1) * 2 ^ b.log2 := by
        rw [← Nat.pow_add]
        congr 1
        omega
      _ ≤ 2 ^ (a.log2 - b.log2 + 1) * b := Nat.mul_le_mul_left _ hb'
  · have hlt : a < b := by
      by_contra hle
      exact h (log2_le_of_lt (Nat.lt_of_le_of_lt (Nat.le_of_not_lt hle) Nat.lt_log2_self))
    rw [Nat.div_eq_of_lt hlt]
    exact Nat.zero_le _

/-- Dropping digits that are there shortens a number by them. -/
theorem log2_div_two_pow {m n : Nat} (hm : m ≠ 0) (hn : n ≤ m.log2) :
    (m / 2 ^ n).log2 = m.log2 - n := by
  have hlow : 2 ^ (m.log2 - n) ≤ m / 2 ^ n := by
    rw [Nat.le_div_iff_mul_le (Nat.two_pow_pos n), ← Nat.pow_add, Nat.sub_add_cancel hn]
    exact Nat.log2_self_le hm
  have hpos : m / 2 ^ n ≠ 0 := Nat.ne_of_gt (Nat.lt_of_lt_of_le (Nat.two_pow_pos _) hlow)
  refine Nat.le_antisymm ?_ ((Nat.le_log2 hpos).mpr hlow)
  refine log2_le_of_lt ?_
  rw [Nat.div_lt_iff_lt_mul (Nat.two_pow_pos n), ← Nat.pow_add]
  exact Nat.lt_of_lt_of_le Nat.lt_log2_self (Nat.pow_le_pow_right (by decide) (by omega))

theorem log2_sqrt_le (m : Nat) : 2 * m.sqrt.log2 ≤ m.log2 := by
  by_cases h : m.sqrt = 0
  · rw [h]
    exact Nat.zero_le _
  · have hle := Nat.sqrt_le m
    have hpow : 2 ^ m.sqrt.log2 ≤ m.sqrt := Nat.log2_self_le h
    have hm : m ≠ 0 := by
      rintro rfl
      exact h rfl
    rw [Nat.le_log2 hm, Nat.two_mul, Nat.pow_add]
    exact Nat.le_trans (Nat.mul_le_mul hpow hpow) hle

/-! ### Packing -/

/-- Whether an unpacked number is finite when it is packed: its exponent is not beyond the largest
one. -/
def Fits : UnpackedFloat → Prop
  | .zero _ => True
  | .finite _ _ e _ => e ≤ 971
  | _ => False

/-- Whether an unpacked number is finite and below `2 ^ k` in magnitude. -/
def Below (k : Int) : UnpackedFloat → Prop
  | .zero _ => True
  | .finite _ m e _ => totalExponent m e ≤ k
  | _ => False

/-- Whether an unpacked number is infinite or not below `2 ^ (k - 1)` in magnitude. -/
def Reaches (k : Int) : UnpackedFloat → Prop
  | .infinity _ => True
  | .finite _ m e _ => k ≤ totalExponent m e
  | _ => False

theorem Reaches.mono {j k : Int} {u : UnpackedFloat} (h : Reaches k u) (hjk : j ≤ k) :
    Reaches j u := by
  cases u with
  | finite s m e hm => exact Int.le_trans hjk h
  | infinity s => trivial
  | _ => exact h

/-- A packed number is finite unless all bits of its exponent are set. -/
private theorem isFinite_unpack {b : BitVec Format.binary64.numBits} :
    (UnpackedFloat.unpack .binary64 b).isFinite = true ↔ unpackExponent b ≠ -1#_ := by
  rw [UnpackedFloat.unpack]
  split
  · rename_i hinf
    split <;> exact ⟨nofun, fun hne => absurd hinf hne⟩
  · rename_i hne
    split
    · split <;> exact ⟨fun _ => hne, fun _ => rfl⟩
    · exact ⟨fun _ => hne, fun _ => rfl⟩

theorem biasedExponent_eq (e : Int) :
    (e + Format.binary64.exponentBias + Format.binary64.mantissaBitsWithoutImplicit).toNat =
      (e + 1075).toNat :=
  congrArg Int.toNat (Int.add_assoc e 1023 52)

/-- What is packed is finite if it fits. -/
theorem isFinite_ofModel_pack {u : UnpackedFloat} :
    (Float.ofModel (.pack u)).isFinite = true ↔ Fits u := by
  have hfinite : (Float.ofModel (.pack u)).isFinite = true ↔
      unpackExponent (UnpackedFloat.pack .binary64 u) ≠ -1#_ := isFinite_unpack
  rw [hfinite]
  cases u with
  | notANumber => simp [UnpackedFloat.pack, packedNaN, Fits]
  | infinity s => simp [UnpackedFloat.pack, packedInfinity, Fits]
  | zero s => simp [UnpackedFloat.pack, packedZero, Fits]
  | finite s m e hm =>
    rw [UnpackedFloat.pack, biasedExponent_eq, Fits]
    split
    · rename_i hlarge
      have hlarge : 2048 ≤ (e + 1075).toNat + 1 := hlarge
      rw [packedInfinity, unpackExponent_packComponents]
      exact iff_of_false (fun hne => hne rfl) (by omega)
    · rename_i hsmall
      have hsmall : ¬ 2048 ≤ (e + 1075).toNat + 1 := hsmall
      refine iff_of_true ?_ (by omega)
      split
      · rw [unpackExponent_packComponents]
        intro heq
        have hval : (e + 1075).toNat % 2048 = 2047 := congrArg BitVec.toNat heq
        omega
      · rw [unpackExponent_packComponents]
        decide

/-- A mantissa has full length where the digit that is not written out is one. -/
private theorem le_toNat_leadingOne (b : BitVec Format.binary64.numBits) :
    2 ^ 52 ≤ (1#1 ++ unpackMantissa b).toNat := by
  rw [BitVec.toNat_append]
  exact Nat.le_trans (Nat.le_of_eq rfl) Nat.left_le_or

/-- The digits and the exponent of a finite number have bounds. -/
theorem bounds_of_unpack {b : BitVec Format.binary64.numBits} {s : Sign} {m : Nat} {e : Int}
    {hm : 0 < m} (h : UnpackedFloat.unpack .binary64 b = .finite s m e hm) :
    m < 2 ^ 53 ∧ -1074 ≤ e ∧ e ≤ 971 ∧ (2 ^ 52 ≤ m ∨ e = -1074) := by
  have hexp : (unpackExponent b).toNat < 2048 := (unpackExponent b).isLt
  have hman : (unpackMantissa b).toNat < 2 ^ 52 := (unpackMantissa b).isLt
  rw [UnpackedFloat.unpack] at h
  split at h
  · split at h <;> cases h
  · rename_i hne
    have hmax : (unpackExponent b).toNat ≠ 2047 := fun heq => hne (BitVec.eq_of_toNat_eq heq)
    split at h
    · split at h
      · cases h
      · rename_i hzero _
        injection h with _ hm he
        have hzero : (unpackExponent b).toNat = 0 := congrArg BitVec.toNat hzero
        have he : (unpackExponent b).toNat - (1023 + 52) + 1 = e := he
        have hm : (unpackMantissa b).toNat = m := hm
        omega
    · rename_i hzero
      injection h with _ hm he
      have hzero : (unpackExponent b).toNat ≠ 0 := fun heq => hzero (BitVec.eq_of_toNat_eq heq)
      have he : (unpackExponent b).toNat - (1023 + 52) = e := he
      have hlt : (1#1 ++ unpackMantissa b).toNat < 2 ^ 53 := (1#1 ++ unpackMantissa b).isLt
      have hle : 2 ^ 52 ≤ (1#1 ++ unpackMantissa b).toNat := le_toNat_leadingOne b
      rw [hm] at hlt hle
      omega

/-- A finite number from one half on has a mantissa of full length. -/
theorem log2_of_unpack {b : BitVec Format.binary64.numBits} {s : Sign} {m : Nat} {e : Int}
    {hm : 0 < m} (h : UnpackedFloat.unpack .binary64 b = .finite s m e hm)
    (htotal : 0 ≤ totalExponent m e) : m.log2 = 52 := by
  obtain ⟨hm53, -, -, hlong⟩ := bounds_of_unpack h
  have hlog : m.log2 ≤ 52 := log2_le_of_lt hm53
  rw [totalExponent] at htotal
  obtain hlong | htiny := hlong
  · exact Nat.le_antisymm hlog ((Nat.le_log2 (Nat.ne_of_gt hm)).mpr hlong)
  · omega

theorem unpack_packedInfinity (s : Sign) :
    UnpackedFloat.unpack .binary64 (packedInfinity .binary64 s) = .infinity s := by
  cases s <;> rfl

/-- A number of full length is packed to an infinity or to a number that is not below the same
power of two. -/
theorem reaches_pack {s : Sign} {m : Nat} {e k : Int} {hm : 0 < m} (hlog : m.log2 = 52)
    (he : -1074 ≤ e) (hk : k ≤ 53 + e) :
    Reaches k (UnpackedFloat.unpack .binary64
      (UnpackedFloat.pack .binary64 (.finite s m e hm))) := by
  have hnormal : m.log2 + 1 = Format.binary64.mantissaBits := by
    rw [hlog]
    rfl
  rw [UnpackedFloat.pack, biasedExponent_eq, if_pos hnormal]
  split
  · rw [unpack_packedInfinity]
    trivial
  · rename_i hsmall
    have hsmall : ¬ 2048 ≤ (e + 1075).toNat + 1 := hsmall
    generalize hb : packComponents .binary64 s
      (BitVec.ofNat Format.binary64.exponentBits (e + 1075).toNat)
      (BitVec.ofNat Format.binary64.mantissaBitsWithoutImplicit m) = b
    have hexp : unpackExponent b = BitVec.ofNat _ (e + 1075).toNat := by
      rw [← hb, unpackExponent_packComponents]
    have hval : (unpackExponent b).toNat = (e + 1075).toNat := by
      rw [hexp]
      exact Nat.mod_eq_of_lt (by omega : (e + 1075).toNat < 2048)
    rw [UnpackedFloat.unpack]
    split
    · rename_i hmax
      have hmax : (unpackExponent b).toNat = 2047 := congrArg BitVec.toNat hmax
      omega
    · split
      · rename_i hzero
        have hzero : (unpackExponent b).toNat = 0 := congrArg BitVec.toNat hzero
        omega
      · have hlong : 2 ^ 52 ≤ (1#1 ++ unpackMantissa b).toNat := le_toNat_leadingOne b
        have hlog' : 52 ≤ (1#1 ++ unpackMantissa b).toNat.log2 :=
          (Nat.le_log2 (by omega)).mpr hlong
        have hexponent : ((unpackExponent b).toNat - (1023 + 52) : Int) = e := by omega
        change k ≤ _ + 1 + ((unpackExponent b).toNat - (1023 + 52) : Int)
        omega

/-! ### Rounding -/

theorem mantissa_shiftRight (x : ExtendedMantissa) (n : Nat) :
    (x >>> n).mantissa = x.mantissa / 2 ^ n := by
  induction n with
  | zero => exact (Nat.div_one x.mantissa).symm
  | succ n ih =>
    have hstep : (x >>> (n + 1)).mantissa = (x >>> n).mantissa / 2 := rfl
    rw [hstep, ih, Nat.div_div_eq_div_mul, Nat.pow_succ]

theorem roundedMantissa_le (x : ExtendedMantissa) : x.roundedMantissa ≤ x.mantissa + 1 := by
  rw [ExtendedMantissa.roundedMantissa]
  rcases x.accuracy with _ | ⟨⟨⟩⟩ <;> simp only [Accuracy.roundToNearestEven] <;> omega

/-- Rounding does not drop ones at the front. -/
theorem le_roundedMantissa (x : ExtendedMantissa) : x.mantissa ≤ x.roundedMantissa := by
  rw [ExtendedMantissa.roundedMantissa]
  rcases x.accuracy with _ | ⟨⟨⟩⟩ <;> simp only [Accuracy.roundToNearestEven] <;> omega

theorem mantissa_ofMantissaAndAccuracy (m : Nat) (a : Accuracy) :
    (ExtendedMantissa.ofMantissaAndAccuracy m a).mantissa = m := by
  rcases a with _ | ⟨⟨⟩⟩ <;> rfl

/-- The exponent of a number of which the most significant digit is at some place. -/
theorem targetExponent_eq (t : Int) :
    Format.binary64.targetExponent t = max (t - 53) (-1074) := rfl

private theorem fits_of_exponent_le {s : Sign} {m : Nat} {e : Int} (he : e ≤ 971) :
    Fits (if h : m = 0 then .zero s else .finite s m e (Nat.pos_of_ne_zero h)) := by
  by_cases h : m = 0
  · rw [dif_pos h]
    trivial
  · rw [dif_neg h]
    exact he

/-- A rounded number fits if, after the last digits are dropped and the rest is rounded, it is below
`2 ^ 1024` and its exponent is small enough. -/
private theorem fits_of_rounded {s : Sign} {m n r : Nat} {e : Int} {a : Accuracy}
    (hn : (max (totalExponent m e - 53) (-1074) - e).toNat = n)
    (hr : (ExtendedMantissa.ofMantissaAndAccuracy m a >>> n).roundedMantissa = r)
    (htotal : totalExponent r (e + n) ≤ 1024) (he : e + n ≤ 971) :
    Fits (roundWithAccuracy .binary64 s m e a) := by
  refine fits_of_exponent_le ?_
  simp only [targetExponent_eq, hn, hr]
  omega

/-- A number below `2 ^ 1023` is rounded to one that fits. -/
theorem fits_roundWithAccuracy {s : Sign} {m : Nat} {e : Int} {a : Accuracy}
    (h : totalExponent m e ≤ 1023) (he : e ≤ 971) :
    Fits (roundWithAccuracy .binary64 s m e a) := by
  generalize hn : (max (totalExponent m e - 53) (-1074) - e).toNat = n
  generalize hr : (ExtendedMantissa.ofMantissaAndAccuracy m a >>> n).roundedMantissa = r
  have hle := roundedMantissa_le (ExtendedMantissa.ofMantissaAndAccuracy m a >>> n)
  rw [mantissa_shiftRight, mantissa_ofMantissaAndAccuracy, hr] at hle
  -- rounding up may add one place, which is still within the range
  have hlog := log2_le_of_le_div_succ hle
  rw [totalExponent] at h
  refine fits_of_rounded hn hr ?_ ?_
  · rw [totalExponent] at hn ⊢
    omega
  · rw [totalExponent] at hn
    omega

/-- A number below `2 ^ 1023` is rounded to one that fits, also when it has few digits. -/
theorem fits_round {s : Sign} {m : Nat} {e : Int} (h : totalExponent m e ≤ 1023) :
    Fits (UnpackedFloat.round .binary64 s m e) := by
  simp only [UnpackedFloat.round, decreaseExponent, targetExponent_eq]
  generalize hn : (e - max (totalExponent m e - 53) (-1074)).toNat = n
  have hlog := log2_shiftLeft_le m n
  simp only [totalExponent] at h hn
  refine fits_roundWithAccuracy ?_ ?_
  · rw [totalExponent]
    omega
  · omega

private theorem roundedMantissa_two_mul (m : Nat) :
    (ExtendedMantissa.ofMantissaAndAccuracy (2 * m) .exact >>> 1).roundedMantissa = m := by
  have hshift :
      ExtendedMantissa.ofMantissaAndAccuracy (2 * m) .exact >>> 1 = ⟨m, false, false⟩ := by
    change ExtendedMantissa.shiftRightOne ⟨2 * m, false, false⟩ = _
    simp [ExtendedMantissa.shiftRightOne]
  rw [hshift]
  rfl

/-- Twice a mantissa of full length is rounded to the mantissa, also at the largest exponent. -/
theorem fits_roundWithAccuracy_two_mul {s : Sign} {m : Nat} (hm : m.log2 = 52) {e : Int}
    (he : e = 970) : Fits (roundWithAccuracy .binary64 s (2 * m) e .exact) := by
  have hne : m ≠ 0 := by
    rintro rfl
    cases hm
  have htwice : (2 * m).log2 = 53 := by rw [Nat.log2_two_mul hne, hm]
  refine fits_of_rounded ?_ (roundedMantissa_two_mul m) ?_ ?_
  · rw [totalExponent, htwice]
    omega
  · rw [totalExponent, hm]
    omega
  · omega

/-- A number is rounded by dropping the last digits, rounding the rest, and dropping the digit by
which this may have become too long. -/
theorem roundWithAccuracy_eq {s : Sign} {m n r l : Nat} {e : Int} {a : Accuracy}
    (hn : (max (totalExponent m e - 53) (-1074) - e).toNat = n)
    (hr : (ExtendedMantissa.ofMantissaAndAccuracy m a >>> n).roundedMantissa = r)
    (hl : (max (totalExponent r (e + n) - 53) (-1074) - (e + n)).toNat = l)
    (hpos : r / 2 ^ l ≠ 0) :
    roundWithAccuracy .binary64 s m e a =
      .finite s (r / 2 ^ l) (e + n + l) (Nat.pos_of_ne_zero hpos) := by
  have hmantissa : (ExtendedMantissa.ofMantissaAndAccuracy r .exact >>> l).mantissa = r / 2 ^ l :=
    mantissa_shiftRight _ _
  simp only [roundWithAccuracy, shiftToTargetExponent, shiftToExponent, targetExponent_eq, hn, hr,
    hl, hmantissa, dif_neg hpos]

/-- A number with many digits that is not tiny is rounded to one of full length that is not below
the same power of two. -/
theorem exists_roundWithAccuracy {s : Sign} {m : Nat} {e : Int} {a : Accuracy}
    (hm : 52 ≤ m.log2) (h : 1 ≤ totalExponent m e) :
    ∃ r f hr, roundWithAccuracy .binary64 s m e a = .finite s r f hr ∧ r.log2 = 52 ∧
      totalExponent m e ≤ 53 + f := by
  have hm0 : m ≠ 0 := by
    rintro rfl
    cases hm
  generalize hn : (max (totalExponent m e - 53) (-1074) - e).toNat = n
  generalize hr : (ExtendedMantissa.ofMantissaAndAccuracy m a >>> n).roundedMantissa = r
  generalize hl : (max (totalExponent r (e + n) - 53) (-1074) - (e + n)).toNat = l
  have hdropped : n = m.log2 - 52 := by
    rw [totalExponent] at h hn
    omega
  have hlow := le_roundedMantissa (ExtendedMantissa.ofMantissaAndAccuracy m a >>> n)
  have hhigh := roundedMantissa_le (ExtendedMantissa.ofMantissaAndAccuracy m a >>> n)
  rw [mantissa_shiftRight, mantissa_ofMantissaAndAccuracy, hr] at hlow hhigh
  have hkept : (m / 2 ^ n).log2 = 52 := by
    rw [log2_div_two_pow hm0 (by omega)]
    omega
  have hpos : m / 2 ^ n ≠ 0 := by
    intro hzero
    rw [hzero] at hkept
    cases hkept
  have hr0 : r ≠ 0 := Nat.ne_of_gt (Nat.lt_of_lt_of_le (Nat.pos_of_ne_zero hpos) hlow)
  have hlong : 52 ≤ r.log2 := by
    rw [Nat.le_log2 hr0, ← hkept]
    exact Nat.le_trans (Nat.log2_self_le hpos) hlow
  have hcarry : l = r.log2 - 52 := by
    rw [totalExponent] at h hl
    omega
  have hfull : (r / 2 ^ l).log2 = 52 := by
    rw [log2_div_two_pow hr0 (by omega)]
    omega
  have hfinal : r / 2 ^ l ≠ 0 := by
    intro hzero
    rw [hzero] at hfull
    cases hfull
  refine ⟨r / 2 ^ l, e + n + l, Nat.pos_of_ne_zero hfinal, roundWithAccuracy_eq hn hr hl hfinal,
    hfull, ?_⟩
  rw [totalExponent] at h ⊢
  omega

end TypedFormula.Binary64
