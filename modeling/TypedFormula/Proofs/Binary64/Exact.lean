import Mathlib
import TypedFormula.Proofs.Binary64.Finite

/-!
# Exact values of binary64 numbers

A finite binary64 number is a rational number `± m · 2 ^ e`, its exact value (`toRat?`); infinities
and NaN have none. Many pairs of digits and an exponent have the same value, but only one of them is
packed (`Canonical`): all 53 digits are used unless the exponent is the smallest one. Two facts rest
on this. A canonical pair is unpacked as it was packed, and pairs are compared by their exponents
first, which is the order of the exact values only because the digits are used up.

Main statements:

* `unpack_pack_finite` — a canonical pair comes back unless it is too large;
* `canonical_of_unpack` — what is unpacked is canonical;
* `compare_unpack` — numbers are compared by their exact values;
* `lt_iff_of_toRat?`, `le_iff_of_toRat?` — the orders that programs use.
-/

namespace TypedFormula.Binary64

open Float.Model Float.Model.UnpackedFloat

variable {x y : Float} {p q : ℚ}

/-! ### Exact values -/

/-- The rational number that digits, an exponent and a sign stand for. -/
def signedValue (s : Sign) (m : ℕ) (e : ℤ) : ℚ := (s.apply m : ℤ) * (2 : ℚ) ^ e

/-- The exact value of an unpacked number. -/
def ratOf? : UnpackedFloat → Option ℚ
  | .zero _ => some 0
  | .finite s m e _ => some (signedValue s m e)
  | .infinity _ | .notANumber => none

/-- The exact value of a number, if it is finite. -/
def toRat? (x : Float) : Option ℚ := ratOf? x.toModel.unpack

@[simp] theorem signedValue_positive (m : ℕ) (e : ℤ) :
    signedValue .positive m e = m * (2 : ℚ) ^ e := rfl

@[simp] theorem signedValue_negative (m : ℕ) (e : ℤ) :
    signedValue .negative m e = -(m * (2 : ℚ) ^ e) := by
  simp [signedValue, Sign.apply]

theorem signedValue_neg (s : Sign) (m : ℕ) (e : ℤ) :
    signedValue (-s) m e = -signedValue s m e := by
  cases s with
  | positive => exact signedValue_negative m e
  | negative =>
    rw [signedValue_negative, neg_neg]
    exact signedValue_positive m e

theorem abs_signedValue (s : Sign) (m : ℕ) (e : ℤ) : |signedValue s m e| = m * (2 : ℚ) ^ e := by
  have hpos : (0 : ℚ) ≤ m * 2 ^ e := by positivity
  cases s with
  | positive => rw [signedValue_positive, abs_of_nonneg hpos]
  | negative => rw [signedValue_negative, abs_neg, abs_of_nonneg hpos]

/-- The largest finite number. -/
def largest : ℚ := (2 ^ 53 - 1) * 2 ^ (971 : ℤ)

theorem largest_pos : 0 < largest := mul_pos (by norm_num) (by positivity)

/-- A number unless it is too large. -/
def inRange? (q : ℚ) : Option ℚ := if |q| ≤ largest then some q else none

theorem inRange?_eq_some_iff : inRange? q = some p ↔ |q| ≤ largest ∧ q = p := by
  rw [inRange?]
  split
  · rename_i hle
    rw [Option.some_inj, and_iff_right hle]
  · rename_i hgt
    exact iff_of_false nofun fun h => hgt h.1

@[simp] theorem inRange?_zero : inRange? 0 = some 0 := by
  refine inRange?_eq_some_iff.mpr ⟨?_, rfl⟩
  rw [abs_zero]
  exact largest_pos.le

theorem isFinite_eq_isSome_toRat? (x : Float) : x.isFinite = (toRat? x).isSome := by
  rw [Float.isFinite, Float.Model.isFinite, toRat?]
  cases x.toModel.unpack <;> rfl

/-! ### Canonical digits and exponents -/

/-- Digits and an exponent as they are packed: there are at most 53 digits, and fewer of them only
where the exponent cannot become smaller. -/
structure Canonical (m : ℕ) (e : ℤ) : Prop where
  /-- There are at most 53 digits. -/
  digits : m < 2 ^ 53
  /-- The exponent is not below the smallest one. -/
  exponent : -1074 ≤ e
  /-- Digits are missing at the smallest exponent only. -/
  full : 2 ^ 52 ≤ m ∨ e = -1074

/-- What is unpacked is canonical. -/
theorem canonical_of_unpack {b : BitVec Format.binary64.numBits} {s : Sign} {m : ℕ} {e : ℤ}
    {hm : 0 < m} (h : UnpackedFloat.unpack .binary64 b = .finite s m e hm) : Canonical m e := by
  obtain ⟨hdigits, hexponent, -, hfull⟩ := bounds_of_unpack h
  exact ⟨hdigits, hexponent, hfull⟩

/-- The last digits are those of the number, where the first one is not written out. -/
private theorem toNat_leadingOne_ofNat {m : ℕ} (hlow : 2 ^ 52 ≤ m) (hhigh : m < 2 ^ 53) :
    (1#1 ++ BitVec.ofNat 52 m).toNat = m := by
  have hmod : m % 2 ^ 52 < 2 ^ 52 := Nat.mod_lt m (Nat.two_pow_pos 52)
  have hone : (1#1).toNat = 1 := rfl
  rw [BitVec.toNat_append, hone, BitVec.toNat_ofNat, ← Nat.shiftLeft_add_eq_or_of_lt hmod,
    Nat.shiftLeft_eq]
  omega

/-- A canonical pair of digits and an exponent is unpacked as it was packed, unless it is too
large. -/
theorem unpack_pack_finite {s : Sign} {m : ℕ} {e : ℤ} {hm : 0 < m} (h : Canonical m e)
    (he : e ≤ 971) :
    UnpackedFloat.unpack .binary64 (UnpackedFloat.pack .binary64 (.finite s m e hm)) =
      .finite s m e hm := by
  obtain ⟨hdigits, hexponent, hfull⟩ := h
  have hroom : ¬ 2 ^ Format.binary64.exponentBits ≤ (e + 1075).toNat + 1 := by
    have : (2 : ℕ) ^ Format.binary64.exponentBits = 2048 := rfl
    omega
  have hmax : ∀ n : ℕ, n < 2047 → BitVec.ofNat 11 n ≠ -1#11 := by
    intro n hn heq
    have hval : n % 2048 = 2047 := congrArg BitVec.toNat heq
    omega
  rw [UnpackedFloat.pack, biasedExponent_eq, if_neg hroom]
  by_cases hlow : 2 ^ 52 ≤ m
  · -- all digits are used, and the first one is not written out
    have hlog : m.log2 + 1 = Format.binary64.mantissaBits := by
      have hlog2 : m.log2 = 52 :=
        Nat.le_antisymm (log2_le_of_lt hdigits) ((Nat.le_log2 (Nat.ne_of_gt hm)).mpr hlow)
      rw [hlog2]
      rfl
    have hne : BitVec.ofNat 11 (e + 1075).toNat ≠ 0#11 := by
      intro heq
      have hval : (e + 1075).toNat % 2048 = 0 := congrArg BitVec.toNat heq
      omega
    have hval : (BitVec.ofNat 11 (e + 1075).toNat).toNat = (e + 1075).toNat :=
      Nat.mod_eq_of_lt (by omega : (e + 1075).toNat < 2048)
    have hback : ((BitVec.ofNat 11 (e + 1075).toNat).toNat - (1023 + 52) : ℤ) = e := by
      rw [hval]
      omega
    rw [if_pos hlog, UnpackedFloat.unpack]
    simp only [unpackExponent_packComponents, unpackMantissa_packComponents,
      unpackSign_packComponents, Sign.ofBitVec_toBitVec]
    rw [if_neg (hmax _ (by omega)), if_neg hne]
    simp only [toNat_leadingOne_ofNat hlow hdigits]
    exact congrArg (fun f => UnpackedFloat.finite s m f hm) hback
  · -- digits are missing, and the exponent is the smallest one
    have hleast : e = -1074 := hfull.resolve_left hlow
    have hlog : ¬ m.log2 + 1 = Format.binary64.mantissaBits := by
      intro heq
      have hlog2 : m.log2 = 52 := Nat.succ.inj heq
      exact hlow (hlog2 ▸ Nat.log2_self_le (Nat.ne_of_gt hm))
    have hval : (BitVec.ofNat 52 m).toNat = m := Nat.mod_eq_of_lt (Nat.lt_of_not_le hlow)
    have hne : BitVec.ofNat 52 m ≠ 0#52 := by
      intro heq
      have hzero : (BitVec.ofNat 52 m).toNat = 0 := congrArg BitVec.toNat heq
      omega
    rw [if_neg hlog, UnpackedFloat.unpack]
    simp only [unpackExponent_packComponents, unpackMantissa_packComponents,
      unpackSign_packComponents, Sign.ofBitVec_toBitVec]
    rw [if_neg (hmax 0 (by decide)), if_pos trivial, dif_neg hne]
    simp only [hval]
    exact congrArg (fun f => UnpackedFloat.finite s m f hm) hleast.symm

/-- A number with an exact value is a zero, or has digits and an exponent. -/
theorem exists_unpack_of_toRat? (h : toRat? x = some q) :
    (∃ s, x.toModel.unpack = .zero s ∧ q = 0) ∨
      ∃ s m e hm, x.toModel.unpack = .finite s m e hm ∧ q = signedValue s m e := by
  rw [toRat?] at h
  cases hx : x.toModel.unpack with
  | zero s =>
    rw [hx] at h
    exact .inl ⟨s, rfl, (Option.some.inj h).symm⟩
  | finite s m e hm =>
    rw [hx] at h
    exact .inr ⟨s, m, e, hm, rfl, (Option.some.inj h).symm⟩
  | _ => rw [hx] at h; cases h

/-- A canonical magnitude with a smaller exponent is smaller. -/
private theorem magnitude_lt_of_exponent_lt {m n : ℕ} {e f : ℤ} (hm : Canonical m e)
    (hn : Canonical n f) (h : e < f) : (m : ℚ) * 2 ^ e < n * 2 ^ f := by
  have hlow : 2 ^ 52 ≤ n := hn.full.resolve_right fun hleast => by
    have := hm.exponent
    omega
  have hdigits : (m : ℚ) < 2 ^ 53 := by exact_mod_cast hm.digits
  have hlow' : (2 : ℚ) ^ 52 ≤ n := by exact_mod_cast hlow
  calc (m : ℚ) * 2 ^ e < 2 ^ 53 * 2 ^ e := mul_lt_mul_of_pos_right hdigits (by positivity)
    _ = 2 ^ 52 * 2 ^ (e + 1) := by
        rw [zpow_add_one₀ (by norm_num)]
        ring
    _ ≤ 2 ^ 52 * 2 ^ f := by
        refine mul_le_mul_of_nonneg_left ?_ (by positivity)
        exact zpow_le_zpow_right₀ (by norm_num) h
    _ ≤ n * 2 ^ f := mul_le_mul_of_nonneg_right hlow' (by positivity)

/-- Canonical digits and an exponent are too large exactly when their exponent is. -/
theorem Canonical.abs_signedValue_le_iff (s : Sign) {m : ℕ} {e : ℤ} (h : Canonical m e) :
    |signedValue s m e| ≤ largest ↔ e ≤ 971 := by
  have hlargest : largest = (2 ^ 53 - 1 : ℕ) * 2 ^ (971 : ℤ) := by
    rw [largest]
    congr 1
    norm_num
  rw [abs_signedValue, hlargest]
  constructor
  · intro hle
    by_contra hlarge
    exact absurd (magnitude_lt_of_exponent_lt ⟨by decide, by decide, .inl (by decide)⟩ h
      (not_le.mp hlarge)) (not_lt.mpr hle)
  · intro he
    have hdigits : (m : ℚ) ≤ (2 ^ 53 - 1 : ℕ) := by exact_mod_cast Nat.le_sub_one_of_lt h.digits
    exact mul_le_mul hdigits (zpow_le_zpow_right₀ (by norm_num) he) (by positivity) (by positivity)

/-- Of the canonical pairs only those that are too large lose their value when they are packed. -/
theorem toRat?_ofModel_pack {s : Sign} {m : ℕ} {e : ℤ} {hm : 0 < m} (h : Canonical m e) :
    toRat? (.ofModel (.pack (.finite s m e hm))) = inRange? (signedValue s m e) := by
  simp only [inRange?, h.abs_signedValue_le_iff]
  split
  · rename_i he
    have hback : UnpackedFloat.unpack .binary64 (UnpackedFloat.pack .binary64 (.finite s m e hm)) =
        .finite s m e hm := unpack_pack_finite h he
    exact congrArg ratOf? hback
  · rename_i he
    have hinfinite : (Float.ofModel (.pack (.finite s m e hm))).isFinite ≠ true :=
      fun hfinite => he (isFinite_ofModel_pack.mp hfinite)
    rw [isFinite_eq_isSome_toRat?] at hinfinite
    exact Option.not_isSome_iff_eq_none.mp hinfinite

/-- The number with the other sign has the opposite value. -/
theorem toRat?_neg (x : Float) : toRat? (-x) = (toRat? x).map (- ·) := by
  change ratOf? (UnpackedFloat.unpack .binary64 (UnpackedFloat.pack .binary64
    (UnpackedFloat.neg x.toModel.unpack))) = (ratOf? x.toModel.unpack).map _
  cases hx : x.toModel.unpack with
  | notANumber => rfl
  | infinity s => cases s <;> rfl
  | zero s => cases s <;> rfl
  | finite s m e hm =>
    rw [UnpackedFloat.neg, unpack_pack_finite (canonical_of_unpack hx) (bounds_of_unpack hx).2.2.1]
    exact congrArg some (signedValue_neg s m e)

/-! ### Order -/

/-- Canonical magnitudes are compared by their exponents, and by their digits if these are equal. -/
theorem compare_magnitude {m n : ℕ} {e f : ℤ} (hm : Canonical m e) (hn : Canonical n f) :
    (compare e f).then (compare m n) = compare ((m : ℚ) * 2 ^ e) (n * 2 ^ f) := by
  obtain hlt | rfl | hgt := lt_trichotomy e f
  · rw [compare_lt_iff_lt.mpr hlt, compare_lt_iff_lt.mpr (magnitude_lt_of_exponent_lt hm hn hlt)]
    rfl
  · have hpos : (0 : ℚ) < 2 ^ e := by positivity
    rw [compare_eq_iff_eq.mpr rfl, Ordering.then]
    obtain hlt | rfl | hgt := lt_trichotomy m n
    · have hcast : (m : ℚ) < n := by exact_mod_cast hlt
      rw [compare_lt_iff_lt.mpr hlt, compare_lt_iff_lt.mpr (mul_lt_mul_of_pos_right hcast hpos)]
    · rw [compare_eq_iff_eq.mpr rfl, compare_eq_iff_eq.mpr rfl]
    · have hcast : (n : ℚ) < m := by exact_mod_cast hgt
      rw [compare_gt_iff_gt.mpr hgt, compare_gt_iff_gt.mpr (mul_lt_mul_of_pos_right hcast hpos)]
  · rw [compare_gt_iff_gt.mpr hgt, compare_gt_iff_gt.mpr (magnitude_lt_of_exponent_lt hn hm hgt)]
    rfl

private theorem compare_neg_neg (p q : ℚ) : compare (-p) (-q) = compare q p := by
  obtain hlt | rfl | hgt := lt_trichotomy p q
  · rw [compare_gt_iff_gt.mpr hlt, compare_gt_iff_gt.mpr (neg_lt_neg hlt)]
  · rw [compare_eq_iff_eq.mpr rfl, compare_eq_iff_eq.mpr rfl]
  · rw [compare_lt_iff_lt.mpr hgt, compare_lt_iff_lt.mpr (neg_lt_neg hgt)]

/-- Numbers are compared by their exact values. -/
theorem compare_unpack (hx : toRat? x = some p) (hy : toRat? y = some q) :
    x.toModel.unpack.compare y.toModel.unpack = some (compare p q) := by
  have hpos : ∀ (m : ℕ) (e : ℤ), 0 < m → (0 : ℚ) < m * 2 ^ e := by
    intro m e hm
    have : (0 : ℚ) < m := by exact_mod_cast hm
    positivity
  obtain ⟨s, hux, rfl⟩ | ⟨s, m, e, hm, hux, rfl⟩ := exists_unpack_of_toRat? hx
  · obtain ⟨t, huy, rfl⟩ | ⟨t, n, f, hn, huy, rfl⟩ := exists_unpack_of_toRat? hy
    · rw [hux, huy]
      rfl
    · rw [hux, huy]
      cases t with
      | positive =>
        rw [signedValue_positive, compare_lt_iff_lt.mpr (hpos n f hn)]
        rfl
      | negative =>
        rw [signedValue_negative, compare_gt_iff_gt.mpr (neg_lt_zero.mpr (hpos n f hn))]
        rfl
  · obtain ⟨t, huy, rfl⟩ | ⟨t, n, f, hn, huy, rfl⟩ := exists_unpack_of_toRat? hy
    · rw [hux, huy]
      cases s with
      | positive =>
        rw [signedValue_positive, compare_gt_iff_gt.mpr (hpos m e hm)]
        rfl
      | negative =>
        rw [signedValue_negative, compare_lt_iff_lt.mpr (neg_lt_zero.mpr (hpos m e hm))]
        rfl
    · have hmagnitudes := compare_magnitude (canonical_of_unpack hux) (canonical_of_unpack huy)
      rw [hux, huy]
      -- the signs decide, unless they are the same
      match s, t with
      | .positive, .positive =>
        rw [signedValue_positive, signedValue_positive, ← hmagnitudes]
        rfl
      | .positive, .negative =>
        have hlt : -((n : ℚ) * 2 ^ f) < m * 2 ^ e :=
          (neg_lt_zero.mpr (hpos n f hn)).trans (hpos m e hm)
        rw [signedValue_positive, signedValue_negative, compare_gt_iff_gt.mpr hlt]
        rfl
      | .negative, .positive =>
        have hlt : -((m : ℚ) * 2 ^ e) < n * 2 ^ f :=
          (neg_lt_zero.mpr (hpos m e hm)).trans (hpos n f hn)
        rw [signedValue_negative, signedValue_positive, compare_lt_iff_lt.mpr hlt]
        rfl
      | .negative, .negative =>
        have hswap : compare ((n : ℚ) * 2 ^ f) (m * 2 ^ e) =
            (compare ((m : ℚ) * 2 ^ e) (n * 2 ^ f)).swap := Std.OrientedCmp.eq_swap
        rw [signedValue_negative, signedValue_negative, compare_neg_neg, hswap, ← hmagnitudes]
        rfl

/-- A number is smaller exactly when its exact value is. -/
theorem lt_iff_of_toRat? (hx : toRat? x = some p) (hy : toRat? y = some q) : x < y ↔ p < q := by
  rw [lt_iff, compare_unpack hx hy, Option.some_inj, compare_lt_iff_lt]

/-- A number is not larger exactly when its exact value is not. -/
theorem le_iff_of_toRat? (hx : toRat? x = some p) (hy : toRat? y = some q) : x ≤ y ↔ p ≤ q := by
  change decide ((x.toModel.unpack.compare y.toModel.unpack).any (·.isLE) = true) = true ↔ _
  rw [compare_unpack hx hy, decide_eq_true_eq, Option.any_some, ← compare_le_iff_le]
  cases compare p q <;> decide

end TypedFormula.Binary64
