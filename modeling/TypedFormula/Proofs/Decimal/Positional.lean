import TypedFormula.Proofs.Decimal.Shortest
import TypedFormula.Proofs.Numerals

/-!
# Positional notation read back

A decimal is written without an exponent: its digits stand alone, with zeros behind them, with a
point between them, or behind a zero, a point and more zeros. Each of these is digits that are
perhaps followed by a point and places (`WritesDecimal`), and what such a text denotes is the
decimal, although digits and exponent may differ from those that were written.

Main statements:

* `exists_writesDecimal_positional` — positional notation denotes the decimal;
* `readNumber?_signText` — a text of this form is read as the number nearest to what it denotes.
-/

namespace TypedFormula

open Decimal

variable {body : List Char} {n : ℕ} {e : ℤ}

/-! ### Texts -/

/-- The unsigned text of a decimal: digits, and perhaps places behind a point. -/
inductive WritesDecimal : List Char → ℕ → ℤ → Prop
  /-- Digits. -/
  | whole {digits : List Char} (h : Digits digits) : WritesDecimal digits (denoted digits) 0
  /-- Digits, a point and places. -/
  | point {digits places : List Char} (hdigits : Digits digits) (hplaces : Digits places) :
      WritesDecimal (digits ++ '.' :: places) (denoted (digits ++ places)) (-places.length)

/-- The text of a decimal starts with a digit. -/
theorem WritesDecimal.exists_cons (h : WritesDecimal body n e) :
    ∃ c rest, body = c :: rest ∧ c.isDigit = true := by
  cases h with
  | whole h =>
    obtain ⟨c, rest, rfl⟩ := List.exists_cons_of_ne_nil h.ne_nil
    exact ⟨c, rest, rfl, h.all c List.mem_cons_self⟩
  | point h _ =>
    obtain ⟨c, rest, rfl⟩ := List.exists_cons_of_ne_nil h.ne_nil
    exact ⟨c, _, rfl, h.all c List.mem_cons_self⟩

/-- There are no blanks in it. -/
theorem WritesDecimal.isBlank_eq_false (h : WritesDecimal body n e) :
    ∀ c ∈ body, Text.isBlank c = false := by
  cases h with
  | whole h => exact fun c hc => isBlank_of_isDigit (h.all c hc)
  | point h h' =>
    intro c hc
    rcases List.mem_append.mp hc with hc | hc
    · exact isBlank_of_isDigit (h.all c hc)
    · rcases List.mem_cons.mp hc with rfl | hc
      · decide
      · exact isBlank_of_isDigit (h'.all c hc)

/-- It is read as the digits and the exponent that it denotes. -/
private theorem readDecimal?_of_writesDecimal (h : WritesDecimal body n e) :
    readDecimal? body = some (n, e) := by
  cases h with
  | whole h => exact readDecimal?_of_digits h
  | @point digits places h h' =>
    have hfirst : (digits ++ '.' :: places).takeWhile Char.isDigit = digits := by
      rw [List.takeWhile_append_of_pos h.all, List.takeWhile_cons_of_neg (by decide),
        List.append_nil]
    have hbehind : (digits ++ '.' :: places).dropWhile Char.isDigit = '.' :: places := by
      rw [List.dropWhile_append_of_pos h.all, List.dropWhile_cons_of_neg (by decide)]
    have hempty : digits.isEmpty = false := List.isEmpty_eq_false_iff.mpr h.ne_nil
    have hvalue : digitsValue (digitsValue 0 digits) places = denoted (digits ++ places) := by
      rw [← digitsValue_zero]
      exact List.foldl_append.symm
    rw [readDecimal?, hfirst, hbehind]
    simp only [List.takeWhile_eq_self_iff.mpr h'.all, List.dropWhile_eq_nil_iff.mpr h'.all, hempty,
      Bool.false_and, Bool.false_eq_true, if_false, readExponent?, Option.map_some, hvalue,
      zero_sub]

/-! ### Signs -/

/-- The text of a decimal behind a minus if it is negative. -/
def signText (negative : Bool) (body : List Char) : List Char :=
  if negative then '-' :: body else body

/-- There are no blanks in it. -/
theorem trim_signText (negative : Bool) (h : WritesDecimal body n e) :
    Text.trim (signText negative body) = signText negative body := by
  refine trim_of_forall_isBlank fun c hc => ?_
  cases negative with
  | true =>
    rcases List.mem_cons.mp hc with rfl | hc
    · decide
    · exact h.isBlank_eq_false c hc
  | false => exact h.isBlank_eq_false c hc

/-- A text with a sign is read as the number nearest to the decimal. -/
theorem readNumber?_signText (negative : Bool) (h : WritesDecimal body n e) :
    Decimal.readNumber? (signText negative body) = some (.plain (nearest negative n e)) := by
  obtain ⟨c, rest, rfl, hdigit⟩ := h.exists_cons
  have hread := readDecimal?_of_writesDecimal h
  refine readNumber?_of_readDecimal? ?_ hdigit hread
  cases negative with
  | true => rfl
  | false => exact splitSign_cons hdigit rest

/-! ### Positional notation -/

private theorem isDigit_of_mem_zeros {k : ℕ} {c : Char} (h : c ∈ zeros k) : c.isDigit = true := by
  rw [List.eq_of_mem_replicate h]
  rfl

private theorem denoted_zeros (k : ℕ) : denoted (zeros k) = 0 := by
  have hvalue : digitValue '0' = 0 := rfl
  rw [denoted, zeros, List.reverse_replicate, List.map_replicate, hvalue,
    Nat.ofDigits_replicate_zero]

private theorem writesDecimal_append_zeros {digits : List Char} (h : Digits digits) (k : ℕ) :
    WritesDecimal (digits ++ zeros k) (denoted digits * 10 ^ k) 0 := by
  have hall : Digits (digits ++ zeros k) := by
    refine ⟨List.append_ne_nil_of_left_ne_nil h.ne_nil _, fun c hc => ?_⟩
    rcases List.mem_append.mp hc with hc | hc
    · exact h.all c hc
    · exact isDigit_of_mem_zeros hc
  have hwrites := WritesDecimal.whole hall
  rwa [denoted_append, denoted_zeros, zeros, List.length_replicate, Nat.add_zero] at hwrites

/-- A point between digits divides by a power of ten. -/
private theorem writesDecimal_take_drop {digits : List Char} (h : Digits digits) {k : ℕ}
    (hk : 0 < k) (hlt : k < digits.length) :
    WritesDecimal (digits.take k ++ '.' :: digits.drop k) (denoted digits)
      (-(digits.length - k : ℕ)) := by
  have hfirst : Digits (digits.take k) := by
    refine ⟨List.ne_nil_of_length_pos ?_, fun c hc => h.all c (List.mem_of_mem_take hc)⟩
    rw [List.length_take]
    omega
  have hlast : Digits (digits.drop k) := by
    refine ⟨List.ne_nil_of_length_pos ?_, fun c hc => h.all c (List.mem_of_mem_drop hc)⟩
    rw [List.length_drop]
    omega
  have hwrites := WritesDecimal.point hfirst hlast
  rwa [List.take_append_drop, List.length_drop] at hwrites

/-- A point before digits, and zeros between them, divide by a power of ten as well. -/
private theorem writesDecimal_zeros_append {digits : List Char} (h : Digits digits) (k : ℕ) :
    WritesDecimal ('0' :: '.' :: zeros k ++ digits) (denoted digits)
      (-(k + digits.length : ℕ)) := by
  have hplaces : Digits (zeros k ++ digits) := by
    refine ⟨List.append_ne_nil_of_right_ne_nil _ h.ne_nil, fun c hc => ?_⟩
    rcases List.mem_append.mp hc with hc | hc
    · exact isDigit_of_mem_zeros hc
    · exact h.all c hc
  have hzero : Digits ['0'] :=
    ⟨List.cons_ne_nil _ _, fun c hc => List.mem_singleton.mp hc ▸ rfl⟩
  have hwrites := WritesDecimal.point hzero hplaces
  have hdenoted : denoted (['0'] ++ (zeros k ++ digits)) = denoted digits := by
    have hzeros : ['0'] ++ zeros k = zeros (k + 1) := rfl
    rw [← List.append_assoc, hzeros, denoted_append, denoted_zeros, Nat.zero_mul, Nat.zero_add]
  rwa [hdenoted, List.length_append, zeros, List.length_replicate] at hwrites

/-- Positional notation denotes the decimal. -/
theorem exists_writesDecimal_positional (d : Decimal) :
    ∃ n e, WritesDecimal (positional [] d) n e ∧ (n : ℚ) * 10 ^ e = value d := by
  have hdigits : Digits d.digitChars := digits_toString d.digits
  have hdenoted : denoted d.digitChars = d.digits := denoted_toString d.digits
  rw [positional, value]
  split
  · rename_i hexponent
    rw [List.append_nil]
    refine ⟨_, _, writesDecimal_append_zeros hdigits _, ?_⟩
    rw [hdenoted, zpow_zero, mul_one, Nat.cast_mul, Nat.cast_pow, Nat.cast_ofNat, ← zpow_natCast,
      Int.toNat_of_nonneg hexponent]
  · split
    · refine ⟨_, _, writesDecimal_take_drop hdigits (by omega) (by omega), ?_⟩
      rw [hdenoted]
      congr 2
      omega
    · refine ⟨_, _, writesDecimal_zeros_append hdigits _, ?_⟩
      rw [hdenoted]
      congr 2
      omega

end TypedFormula
