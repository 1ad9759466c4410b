import Mathlib
import TypedFormula.Conversion
import TypedFormula.Proofs.Binary64.Nearest

/-!
# Whole numbers

A number becomes the integer nearest to it, a tie going to the even one, or it is refused because
that integer does not fit into 64 bits. The rounded number is compared with `-2 ^ 63` and `2 ^ 63`,
which are numbers themselves, so that nothing is lost at either end (`floatToInteger_iff`).

A text is different. An integer that fits is read as it is written, but one that does not fit is
read once more as a number, and so it has been rounded before it is compared. Above `2 ^ 63` this
changes nothing, since no integer of that size rounds to a number below `2 ^ 63`. Below `-2 ^ 63`
the first 1024 integers round to `-2 ^ 63`, which fits: they are accepted, with a value that they do
not denote.

Main statements:

* `floatToInteger_iff` — when a number becomes a whole number, which one, and what is said if not;
* `toInteger_of_writesInteger` — what becomes of a text that denotes an integer;
* `exists_toInteger_ne_of_writesInteger` — a text may become a whole number that it does not denote.
-/

namespace TypedFormula

open Binary64 Decimal Float.Model Float.Model.UnpackedFloat

variable {x : Float} {q : ℚ} {s : String} {z : ℤ}

/-! ### Numbers as whole numbers -/

/-- The first number that is too large is a power of two. -/
private theorem toRat?_two_pow_63 : toRat? 9223372036854775808 = some (2 ^ 63) := by
  have hunpack : (9223372036854775808 : Float).toModel.unpack =
      .finite .positive (2 ^ 52) 11 (by decide) := rfl
  rw [toRat?, hunpack, ratOf?, signedValue_positive]
  norm_num

/-- The last number that is not too small is the opposite one. -/
private theorem toRat?_neg_two_pow_63 : toRat? (-9223372036854775808) = some (-2 ^ 63) := by
  rw [toRat?_neg, toRat?_two_pow_63]
  rfl

/-- A number with an exact value becomes the nearest integer if that fits. -/
theorem nearestInteger?_of_toRat? {k : ℤ} (hx : toRat? x = some q) (hk : NearestEven q k) :
    nearestInteger? x = toInt64? k := by
  obtain ⟨n, hn, hrounded⟩ := exists_toRat?_integral hx
  obtain rfl := hn.unique hk
  have hlow : integral .halfEven x < -9223372036854775808 ↔ n < -9223372036854775808 := by
    rw [lt_iff_of_toRat? hrounded toRat?_neg_two_pow_63]
    norm_cast
  have hhigh : 9223372036854775808 ≤ integral .halfEven x ↔ 9223372036854775808 ≤ n := by
    rw [le_iff_of_toRat? toRat?_two_pow_63 hrounded]
    norm_cast
  have hnan : (integral .halfEven x).isNaN = false := by
    refine isNaN_of_isFinite ?_
    rw [isFinite_eq_isSome_toRat?, hrounded]
    rfl
  rw [nearestInteger?, toInt64?, toInt?_of_toRat? hrounded]
  simp only [hnan, hlow, hhigh, Bool.false_or, Bool.or_eq_true, decide_eq_true_eq]
  by_cases hfits : -9223372036854775808 ≤ n ∧ n ≤ 9223372036854775807
  · rw [if_pos hfits, if_neg (by omega)]
    rfl
  · rw [if_neg hfits, if_pos (by omega)]

/-- An infinity or NaN becomes no integer. -/
private theorem nearestInteger?_of_toRat?_eq_none (hx : toRat? x = none) :
    nearestInteger? x = none := by
  have hsame : integral .halfEven x = x := by
    rw [toRat?] at hx
    rw [integral]
    cases hu : x.toModel.unpack with
    | finite s m e hm => rw [hu] at hx; cases hx
    | _ => rfl
  rw [nearestInteger?, hsame]
  refine if_pos ?_
  rw [Bool.or_eq_true, Bool.or_eq_true, decide_eq_true_eq, decide_eq_true_eq]
  rw [toRat?] at hx
  cases hu : x.toModel.unpack with
  | notANumber =>
    refine .inl (.inl ?_)
    rw [Float.isNaN, Float.Model.isNaN, hu]
    rfl
  | infinity s =>
    cases s with
    | positive =>
      refine .inr ?_
      change decide ((UnpackedFloat.compare _ x.toModel.unpack).any (·.isLE) = true) = true
      rw [hu]
      rfl
    | negative =>
      refine .inl (.inr ?_)
      rw [lt_iff, hu]
      rfl
  | zero s => rw [hu] at hx; cases hx
  | finite s m e hm => rw [hu] at hx; cases hx

/-- An integer of 64 bits is the one that it is made from. -/
theorem toInt64?_eq_some_iff {k : ℤ} {n : Int64} :
    toInt64? k = some n ↔ -2 ^ 63 ≤ k ∧ k < 2 ^ 63 ∧ n.toInt = k := by
  rw [toInt64?]
  split
  · rename_i hfits
    have hvalue : (Int64.ofInt k).toInt = k := Int64.toInt_ofInt_of_le (by omega) (by omega)
    rw [Option.some_inj]
    refine ⟨?_, fun h => ?_⟩
    · rintro rfl
      exact ⟨by omega, by omega, hvalue⟩
    · exact Int64.toInt_inj.mp (hvalue.trans h.2.2.symm)
  · rename_i hfits
    exact ⟨nofun, fun h => absurd (by omega) hfits⟩

private theorem toInt64?_eq_none_iff {k : ℤ} : toInt64? k = none ↔ k < -2 ^ 63 ∨ 2 ^ 63 ≤ k := by
  rw [toInt64?]
  split <;> simp <;> omega

private theorem existsUnique_nearestEven (hx : toRat? x = some q) : ∃! k, NearestEven q k := by
  obtain ⟨k, hk, -⟩ := exists_toRat?_integral hx
  exact ⟨k, hk, fun j hj => hj.unique hk⟩

/-- A number becomes the nearest integer, which fits. -/
private theorem nearestInteger?_eq_some_iff {n : Int64} :
    nearestInteger? x = some n ↔
      ∃ q k, toRat? x = some q ∧ NearestEven q k ∧ -2 ^ 63 ≤ k ∧ k < 2 ^ 63 ∧ n.toInt = k := by
  constructor
  · intro h
    cases hx : toRat? x with
    | none =>
      rw [nearestInteger?_of_toRat?_eq_none hx] at h
      cases h
    | some q =>
      obtain ⟨k, hk, -⟩ := existsUnique_nearestEven hx
      rw [nearestInteger?_of_toRat? hx hk] at h
      exact ⟨q, k, rfl, hk, toInt64?_eq_some_iff.mp h⟩
  · rintro ⟨q, k, hx, hk, hfits⟩
    rw [nearestInteger?_of_toRat? hx hk]
    exact toInt64?_eq_some_iff.mpr hfits

/-- A number becomes no integer if there is no nearest one that fits. -/
private theorem nearestInteger?_eq_none_iff :
    nearestInteger? x = none ↔
      ∀ q k, toRat? x = some q → NearestEven q k → k < -2 ^ 63 ∨ 2 ^ 63 ≤ k := by
  cases hx : toRat? x with
  | none => simp [nearestInteger?_of_toRat?_eq_none hx]
  | some q =>
    obtain ⟨k, hk, honly⟩ := existsUnique_nearestEven hx
    rw [nearestInteger?_of_toRat? hx hk, toInt64?_eq_none_iff]
    refine ⟨fun h p j hp hj => ?_, fun h => h q k rfl hk⟩
    obtain rfl := Option.some.inj hp
    exact honly j hj ▸ h

/-- A finite number becomes the integer nearest to it, an even one if two are as near, exactly when
this integer fits into 64 bits. Every other number is refused with its text. -/
theorem floatToInteger_iff (x : Float) :
    (∀ n : Int64, floatToInteger x = .ok n ↔
      ∃ q k, toRat? x = some q ∧ NearestEven q k ∧ -2 ^ 63 ≤ k ∧ k < 2 ^ 63 ∧ n.toInt = k) ∧
    (∀ e : ConversionError, floatToInteger x = .error e ↔
      e = ⟨(Value.float (.plain x)).text, .integer⟩ ∧
        ∀ q k, toRat? x = some q → NearestEven q k → k < -2 ^ 63 ∨ 2 ^ 63 ≤ k) ∧
    x.isFinite = (toRat? x).isSome ∧
    ∀ q, toRat? x = some q → ∃! k, NearestEven q k := by
  refine ⟨fun n => ?_, fun e => ?_, isFinite_eq_isSome_toRat? x,
    fun q => existsUnique_nearestEven⟩
  · rw [← nearestInteger?_eq_some_iff, floatToInteger]
    cases nearestInteger? x <;> simp [orConversionError]
  · rw [← nearestInteger?_eq_none_iff, floatToInteger, Value.text, Number.value]
    cases nearestInteger? x <;> simp [orConversionError, eq_comm]

/-- A half goes to the even integer. -/
example : floatToInteger 2.5 = .ok 2 := by rfl

/-! ### Texts that denote integers -/

/-- The number that decimal digits denote, of which the last one counts units. -/
def denoted (digits : List Char) : ℕ := Nat.ofDigits 10 (digits.reverse.map digitValue)

/-- One or more decimal digits. -/
structure Digits (chars : List Char) : Prop where
  /-- There is a digit. -/
  ne_nil : chars ≠ []
  /-- There is nothing else. -/
  all : ∀ c ∈ chars, c.isDigit = true

/-- The text of an integer: digits behind an optional sign. -/
inductive WritesInteger : List Char → ℤ → Prop
  /-- Digits. -/
  | unsigned {digits : List Char} (h : Digits digits) : WritesInteger digits (denoted digits)
  /-- Digits behind a plus. -/
  | plus {digits : List Char} (h : Digits digits) : WritesInteger ('+' :: digits) (denoted digits)
  /-- Digits behind a minus. -/
  | minus {digits : List Char} (h : Digits digits) : WritesInteger ('-' :: digits) (-denoted digits)

/-- Reading goes on behind the digits that were read. -/
theorem digitsValue_eq (acc : ℕ) (digits : List Char) :
    digitsValue acc digits = 10 ^ digits.length * acc + denoted digits := by
  induction digits generalizing acc with
  | nil => simp [digitsValue, denoted]
  | cons c rest ih =>
    have hstep : digitsValue acc (c :: rest) = digitsValue (10 * acc + digitValue c) rest := rfl
    have hdenoted : denoted (c :: rest) = denoted rest + 10 ^ rest.length * digitValue c := by
      simp [denoted, Nat.ofDigits_append]
    rw [hstep, ih, hdenoted, List.length_cons, pow_succ]
    ring

theorem digitsValue_zero (digits : List Char) : digitsValue 0 digits = denoted digits := by
  rw [digitsValue_eq, Nat.mul_zero, Nat.zero_add]

/-- A digit is no sign. -/
theorem splitSign_cons {c : Char} (h : c.isDigit = true) (rest : List Char) :
    Decimal.splitSign (c :: rest) = (false, c :: rest) := by
  unfold Decimal.splitSign
  split
  · rename_i heq
    obtain ⟨rfl, -⟩ := List.cons.inj heq
    exact absurd h (by decide)
  · rename_i heq
    obtain ⟨rfl, -⟩ := List.cons.inj heq
    exact absurd h (by decide)
  · rfl

/-- Digits do not start with a sign. -/
private theorem Digits.splitSign {digits : List Char} (h : Digits digits) :
    Decimal.splitSign digits = (false, digits) := by
  obtain ⟨c, rest, rfl⟩ := List.exists_cons_of_ne_nil h.ne_nil
  exact splitSign_cons (h.all c List.mem_cons_self) rest

private theorem WritesInteger.exists_splitSign {chars : List Char} (h : WritesInteger chars z) :
    ∃ negative digits, Decimal.splitSign chars = (negative, digits) ∧ Digits digits ∧
      z = if negative then -(denoted digits : ℤ) else denoted digits := by
  cases h with
  | unsigned h => exact ⟨false, chars, h.splitSign, h, rfl⟩
  | plus h => exact ⟨false, _, rfl, h, rfl⟩
  | minus h => exact ⟨true, _, rfl, h, rfl⟩

private theorem readInt?_of_splitSign {chars digits : List Char} {negative : Bool}
    (hsplit : splitSign chars = (negative, digits)) (h : Digits digits) :
    readInt? chars = some (if negative then -(denoted digits : ℤ) else denoted digits) := by
  have hempty : digits.isEmpty = false := List.isEmpty_eq_false_iff.mpr h.ne_nil
  have hall : digits.all Char.isDigit = true := List.all_eq_true.mpr h.all
  rw [readInt?, hsplit]
  simp only [hempty, hall, Bool.not_true, Bool.or_false, Bool.false_eq_true, if_false,
    digitsValue_zero]

/-- A digit is not a letter, and so it does not become one. -/
private theorem isAlpha_toLower_of_isDigit {c : Char} (h : c.isDigit = true) :
    c.toLower.isAlpha = false := by
  rw [Char.isDigit_iff_toNat] at h
  have hletters : ('A'.toNat = 65 ∧ 'a'.toNat = 97) ∧ '9'.toNat = 57 := by decide
  rw [Char.isAlpha_toLower_eq_isAlpha, Char.isAlpha, Char.isUpper, Char.isLower]
  simp only [UInt32.le_iff_toNat_le, Bool.or_eq_false_iff, Bool.and_eq_false_iff,
    decide_eq_false_iff_not, ge_iff_le]
  change ¬ ('A'.toNat ≤ c.toNat ∧ _) ∧ (¬ 'a'.toNat ≤ c.toNat ∨ _)
  omega

/-- What starts with a digit is no name of infinity or NaN. -/
private theorem readName?_cons (negative : Bool) {c : Char} (h : c.isDigit = true)
    (rest : List Char) :
    readName? negative (c :: rest) = none := by
  have hdigit := isAlpha_toLower_of_isDigit h
  have hne : ∀ (letter : Char) (letters : List Char), letter.isAlpha = true →
      String.ofList ((c :: rest).map Char.toLower) ≠ String.ofList (letter :: letters) := by
    intro letter letters hletter heq
    obtain ⟨hhead, -⟩ := List.cons.inj (String.ofList_injective heq)
    rw [← hhead, hdigit] at hletter
    cases hletter
  have hinf : String.ofList ((c :: rest).map Char.toLower) ≠ "inf" := hne 'i' ['n', 'f'] rfl
  have hinfinity : String.ofList ((c :: rest).map Char.toLower) ≠ "infinity" :=
    hne 'i' ['n', 'f', 'i', 'n', 'i', 't', 'y'] rfl
  have hnan : String.ofList ((c :: rest).map Char.toLower) ≠ "nan" := hne 'n' ['a', 'n'] rfl
  rw [readName?, if_neg (not_or.mpr ⟨hinf, hinfinity⟩), if_neg hnan]

theorem readNumber?_of_readDecimal? {chars rest : List Char} {c : Char} {negative : Bool} {n : ℕ}
    {e : ℤ} (hsplit : splitSign chars = (negative, c :: rest)) (hdigit : c.isDigit = true)
    (h : readDecimal? (c :: rest) = some (n, e)) :
    Decimal.readNumber? chars = some (.plain (nearest negative n e)) := by
  rw [Decimal.readNumber?, hsplit]
  simp only [readName?_cons negative hdigit, h, Option.map_some]

/-- Digits alone have no places and no exponent. -/
theorem readDecimal?_of_digits {digits : List Char} (h : Digits digits) :
    readDecimal? digits = some (denoted digits, 0) := by
  have hempty : digits.isEmpty = false := List.isEmpty_eq_false_iff.mpr h.ne_nil
  rw [readDecimal?, List.takeWhile_eq_self_iff.mpr h.all, List.dropWhile_eq_nil_iff.mpr h.all]
  simp only [hempty, Bool.false_and, Bool.false_eq_true, if_false, readExponent?, Option.map_some,
    digitsValue_zero]
  rfl

private theorem readNumber?_of_splitSign {chars digits : List Char} {negative : Bool}
    (hsplit : splitSign chars = (negative, digits)) (h : Digits digits) :
    Decimal.readNumber? chars = some (.plain (nearest negative (denoted digits) 0)) := by
  obtain ⟨c, rest, rfl⟩ := List.exists_cons_of_ne_nil h.ne_nil
  exact readNumber?_of_readDecimal? hsplit (h.all c List.mem_cons_self) (readDecimal?_of_digits h)

/-! ### Integers that do not fit -/

/-- The number nearest to an integer just above `2 ^ 63` is `2 ^ 63`, as long as the integer is not
beyond the middle between this number and the next one. -/
private theorem toRat?_ofScientific_of_le {n : ℕ} (hlow : 2 ^ 63 ≤ n) (hhigh : n ≤ 2 ^ 63 + 1024) :
    toRat? (.ofModel (.ofScientific n 0)) = some (2 ^ 63) := by
  obtain ⟨k, r, hfirst, hlast, hnearest, hvalue, -⟩ :=
    exists_toRat?_ofScientific (Nat.le_trans (by decide) hlow)
  obtain rfl : k = 11 := by
    have hless : 52 + k < 64 := (Nat.pow_lt_pow_iff_right (by decide : 1 < 2)).mp (by omega)
    have hmore : 63 < 53 + k := (Nat.pow_lt_pow_iff_right (by decide : 1 < 2)).mp (by omega)
    omega
  have hlow' : (2 : ℚ) ^ 63 ≤ n := by exact_mod_cast hlow
  have hhigh' : (n : ℚ) ≤ 2 ^ 63 + 1024 := by exact_mod_cast hhigh
  have hround : NearestEven ((n : ℚ) / 2 ^ 11) (2 ^ 52) := by
    have hnonneg : 0 ≤ (n : ℚ) / 2 ^ 11 - (2 ^ 52 : ℤ) := by
      push_cast
      rw [sub_nonneg, le_div_iff₀ (by positivity)]
      linarith
    have hhalf : (n : ℚ) / 2 ^ 11 - (2 ^ 52 : ℤ) ≤ 1 / 2 := by
      push_cast
      rw [sub_le_iff_le_add, div_le_iff₀ (by positivity)]
      linarith
    rw [nearestEven_iff, abs_of_nonneg hnonneg]
    exact ⟨hhalf, fun _ => by decide⟩
  have hr : r = 2 ^ 52 := by exact_mod_cast hnearest.unique hround
  rw [hvalue (by decide), hr]
  norm_num

/-- The number nearest to an integer beyond that middle is larger than `2 ^ 63`, or infinite. -/
private theorem lt_of_toRat?_ofScientific {n : ℕ} (h : 2 ^ 63 + 1024 < n)
    (hq : toRat? (.ofModel (.ofScientific n 0)) = some q) : ∃ m : ℕ, q = m ∧ 2 ^ 63 < m := by
  obtain ⟨k, r, hfirst, hlast, hnearest, -, hvalue⟩ :=
    exists_toRat?_ofScientific (n := n) (by omega)
  have hk : 11 ≤ k := by
    have hmore : 63 < 53 + k := (Nat.pow_lt_pow_iff_right (by decide : 1 < 2)).mp (by omega)
    omega
  obtain ⟨hclose, -⟩ := nearestEven_iff.mp hnearest
  obtain ⟨-, hclose⟩ := abs_le.mp hclose
  have hpos : (0 : ℚ) < 2 ^ k := by positivity
  refine ⟨r * 2 ^ k, by rw [hvalue q hq]; push_cast; ring, ?_⟩
  obtain rfl | hlong := hk.eq_or_lt
  · -- at least one place beyond the digits of `2 ^ 63`
    have hbeyond : (2 : ℚ) ^ 52 + 1 / 2 < n / 2 ^ 11 := by
      have h' : (2 : ℚ) ^ 63 + 1024 < n := by exact_mod_cast h
      rw [lt_div_iff₀ hpos]
      linarith
    have hr : 2 ^ 52 < r := by
      have hr' : (2 : ℚ) ^ 52 < r := by
        push_cast at hclose
        linarith
      exact_mod_cast hr'
    omega
  · -- the first digit is at a higher place
    have hbeyond : (2 : ℚ) ^ 52 ≤ n / 2 ^ k := by
      have hfirst' : (2 : ℚ) ^ (52 + k) ≤ n := by exact_mod_cast hfirst
      rwa [le_div_iff₀ hpos, ← pow_add]
    have hr : 2 ^ 52 ≤ r := by
      have hr' : (2 : ℚ) ^ 52 < r + 1 := by
        push_cast at hclose
        linarith
      have hr'' : 2 ^ 52 < r + 1 := by exact_mod_cast hr'
      omega
    calc 2 ^ 63 < 2 ^ 52 * 2 ^ 12 := by decide
      _ ≤ r * 2 ^ k := Nat.mul_le_mul hr (Nat.pow_le_pow_right (by decide) hlong)

/-- An integer that is too large is refused after it was rounded. -/
private theorem nearestInteger?_nearest_positive {n : ℕ} (h : 2 ^ 63 ≤ n) :
    nearestInteger? (nearest false n 0) = none := by
  change nearestInteger? (.ofModel (.ofScientific n 0)) = none
  by_cases hnear : n ≤ 2 ^ 63 + 1024
  · have hvalue : toRat? (.ofModel (.ofScientific n 0)) = some ((2 ^ 63 : ℤ) : ℚ) := by
      rw [toRat?_ofScientific_of_le h hnear]
      norm_num
    rw [nearestInteger?_of_toRat? hvalue (nearestEven_intCast.mpr rfl), toInt64?_eq_none_iff]
    exact .inr le_rfl
  · cases hq : toRat? (.ofModel (.ofScientific n 0)) with
    | none => exact nearestInteger?_of_toRat?_eq_none hq
    | some q =>
      obtain ⟨m, rfl, hm⟩ := lt_of_toRat?_ofScientific (Nat.lt_of_not_le hnear) hq
      have hself : NearestEven (m : ℚ) (m : ℤ) := nearestEven_intCast.mpr rfl
      rw [nearestInteger?_of_toRat? hq hself, toInt64?_eq_none_iff]
      omega

/-- An integer that is too small is refused after it was rounded, unless it was rounded to the
smallest integer. -/
private theorem nearestInteger?_nearest_negative {n : ℕ} (h : 2 ^ 63 < n) :
    nearestInteger? (nearest true n 0) =
      if n ≤ 2 ^ 63 + 1024 then some (Int64.ofInt (-2 ^ 63)) else none := by
  change nearestInteger? (-.ofModel (.ofScientific n 0)) = _
  split
  · rename_i hnear
    have hvalue : toRat? (-.ofModel (.ofScientific n 0)) = some ((-2 ^ 63 : ℤ) : ℚ) := by
      rw [toRat?_neg, toRat?_ofScientific_of_le h.le hnear]
      norm_num
    rw [nearestInteger?_of_toRat? hvalue (nearestEven_intCast.mpr rfl)]
    rfl
  · rename_i hfar
    cases hq : toRat? (.ofModel (.ofScientific n 0)) with
    | none =>
      refine nearestInteger?_of_toRat?_eq_none ?_
      rw [toRat?_neg, hq]
      rfl
    | some q =>
      obtain ⟨m, rfl, hm⟩ := lt_of_toRat?_ofScientific (Nat.lt_of_not_le hfar) hq
      have hvalue : toRat? (-.ofModel (.ofScientific n 0)) = some ((-m : ℤ) : ℚ) := by
        rw [toRat?_neg, hq]
        push_cast
        rfl
      rw [nearestInteger?_of_toRat? hvalue (nearestEven_intCast.mpr rfl), toInt64?_eq_none_iff]
      omega

/-! ### Texts as whole numbers -/

/-- The text of an integer becomes this integer if it fits. Otherwise it is refused, unless the
integer is rounded to the smallest one that fits. -/
theorem stringInteger?_of_writesInteger (h : WritesInteger (Text.trim s.toList) z) :
    stringInteger? s =
      if -2 ^ 63 ≤ z ∧ z < 2 ^ 63 then some (Int64.ofInt z)
      else if -2 ^ 63 - 1024 ≤ z ∧ z < -2 ^ 63 then some (Int64.ofInt (-2 ^ 63))
      else none := by
  obtain ⟨negative, digits, hsplit, hdigits, hz⟩ := h.exists_splitSign
  have hread : readInteger? (Text.trim s.toList) = toInt64? z := by
    rw [readInteger?, readInt?_of_splitSign hsplit hdigits, ← hz]
    rfl
  rw [stringInteger?, hread]
  by_cases hfits : -2 ^ 63 ≤ z ∧ z < 2 ^ 63
  · have hvalue : toInt64? z = some (Int64.ofInt z) := if_pos (by omega)
    rw [hvalue, if_pos hfits]
  · have hnone : toInt64? z = none := toInt64?_eq_none_iff.mpr (by omega)
    have hnumber := readNumber?_of_splitSign hsplit hdigits
    rw [hnone, hnumber, if_neg hfits]
    change nearestInteger? (nearest negative (denoted digits) 0) = _
    cases negative with
    | false =>
      have hz' : z = denoted digits := hz
      rw [nearestInteger?_nearest_positive (by omega), if_neg (by omega)]
    | true =>
      have hz' : z = -denoted digits := hz
      rw [nearestInteger?_nearest_negative (by omega)]
      exact if_congr (by omega) rfl rfl

/-- An integer that fits is the whole number that its text becomes, and the text of any other
integer is refused, but for the 1024 integers below `-2 ^ 63`: these become `-2 ^ 63`. -/
theorem toInteger_of_writesInteger (h : WritesInteger (Text.trim s.toList) z) :
    (-2 ^ 63 ≤ z ∧ z < 2 ^ 63 → ∃ n, (Value.string s).toInteger = .ok n ∧ n.toInt = z) ∧
    (z < -2 ^ 63 - 1024 ∨ 2 ^ 63 ≤ z →
      (Value.string s).toInteger = .error ⟨shownString s, .integer⟩) ∧
    (-2 ^ 63 - 1024 ≤ z ∧ z < -2 ^ 63 →
      ∃ n, (Value.string s).toInteger = .ok n ∧ n.toInt = -2 ^ 63) := by
  have hstring := stringInteger?_of_writesInteger h
  refine ⟨fun hfits => ?_, fun hlarge => ?_, fun hnear => ?_⟩
  · rw [if_pos hfits] at hstring
    refine ⟨Int64.ofInt z, ?_, Int64.toInt_ofInt_of_le hfits.1 hfits.2⟩
    rw [Value.toInteger, hstring]
    rfl
  · rw [if_neg (by omega), if_neg (by omega)] at hstring
    rw [Value.toInteger, hstring]
    rfl
  · rw [if_neg (by omega), if_pos hnear] at hstring
    refine ⟨Int64.ofInt (-2 ^ 63), ?_, by decide⟩
    rw [Value.toInteger, hstring]
    rfl

/-- The largest integer that is refused for being too small, between blanks. -/
theorem toInteger_of_writesInteger_of_minus :
    WritesInteger (Text.trim " -9223372036854776833\t".toList) (-9223372036854776833) ∧
      (Value.string " -9223372036854776833\t").toInteger =
        .error ⟨"\" -9223372036854776833\t\"", .integer⟩ := by
  let digits := "9223372036854776833".toList
  have hdigits : Digits digits := ⟨by decide, List.all_eq_true.mp (by decide)⟩
  have hvalue : denoted digits = 9223372036854776833 := by
    rw [← digitsValue_zero]
    decide
  have htext : Text.trim " -9223372036854776833\t".toList = '-' :: digits := by decide
  have hwrites : WritesInteger ('-' :: digits) (-denoted digits) := .minus hdigits
  rw [← htext, hvalue] at hwrites
  exact ⟨hwrites, (toInteger_of_writesInteger hwrites).2.1 (.inl (by norm_num))⟩

/-- The integer before `-2 ^ 63` is read as `-2 ^ 63`. -/
theorem exists_toInteger_ne_of_writesInteger :
    WritesInteger (Text.trim "-9223372036854775809".toList) (-9223372036854775809) ∧
      (Value.string "-9223372036854775809").toInteger = .ok (-9223372036854775808) := by
  let digits := "9223372036854775809".toList
  have hdigits : Digits digits := ⟨by decide, List.all_eq_true.mp (by decide)⟩
  have hvalue : denoted digits = 9223372036854775809 := by
    rw [← digitsValue_zero]
    decide
  have htext : Text.trim "-9223372036854775809".toList = '-' :: digits := by decide
  have hwrites : WritesInteger ('-' :: digits) (-denoted digits) := .minus hdigits
  rw [← htext, hvalue] at hwrites
  refine ⟨hwrites, ?_⟩
  rw [Value.toInteger, stringInteger?_of_writesInteger hwrites]
  rfl

end TypedFormula
