import TypedFormula.Proofs.WholeNumbers

/-!
# Numerals

The text of an integer is one that denotes it: decimal digits, behind a minus if the integer is
negative. There are no blanks in it, so that it is read as it stands wherever a text is trimmed
before it is read.

Main statements:

* `denoted_toString`, `writesInteger_toString` — the text of an integer denotes the integer;
* `trim_toString` — there is nothing to trim;
* `toInteger_toString` — the text of a whole number is read as the whole number.
-/

namespace TypedFormula

open Decimal

variable {c : Char}

/-! ### Digits -/

/-- A digit is no blank. -/
theorem isBlank_of_isDigit (h : c.isDigit = true) : Text.isBlank c = false := by
  rw [Char.isDigit_iff_toNat] at h
  have hzero : '0'.toNat = 48 ∧ '9'.toNat = 57 := by decide
  rw [← Bool.not_eq_true, Text.isBlank]
  intro hblank
  obtain ⟨range, hmem, hlow, hhigh⟩ := Text.exists_mem_of_inRanges hblank
  have hbeside : ∀ range ∈ Text.blankRanges, range.2 < 48 ∨ 57 < range.1 := by decide
  have hrange := hbeside range hmem
  omega

/-- Digits behind others denote what the others denote at a higher place, and their own number. -/
theorem denoted_append (digits digits' : List Char) :
    denoted (digits ++ digits') = denoted digits * 10 ^ digits'.length + denoted digits' := by
  have happend : digitsValue 0 (digits ++ digits') = digitsValue (digitsValue 0 digits) digits' :=
    List.foldl_append
  rw [← digitsValue_zero, happend, digitsValue_eq, digitsValue_zero, Nat.mul_comm]

/-- The text of a natural number has digits and nothing else. -/
theorem digits_toString (n : ℕ) : Digits (toString n).toList := by
  rw [Nat.toString_eq_ofList_toDigits, String.toList_ofList]
  exact ⟨Nat.toDigits_ne_nil, fun _ => Nat.isDigit_of_mem_toDigits (by decide) (by decide)⟩

/-- The text of a natural number denotes the number. -/
theorem denoted_toString (n : ℕ) : denoted (toString n).toList = n := by
  rw [← digitsValue_zero, Nat.toString_eq_ofList_toDigits, String.toList_ofList]
  exact Nat.ofDigitChars_ten_toDigits

/-! ### Integers -/

/-- The text of an integer is that of its magnitude, behind a minus if it is negative. -/
theorem toList_toString (z : ℤ) :
    (toString z).toList =
      if z < 0 then '-' :: (toString z.natAbs).toList else (toString z.natAbs).toList := by
  have hrepr : toString z = Int.repr z := rfl
  rw [hrepr, Int.repr_eq_if]
  split
  · rename_i hnonneg
    rw [if_neg (by omega), ← Int.natAbs_of_nonneg hnonneg]
    rfl
  · rename_i hneg
    have hnatAbs : (-z).toNat = z.natAbs := by omega
    rw [if_pos (by omega), hnatAbs, String.toList_append]
    rfl

theorem toString_ne_nil (z : ℤ) : (toString z).toList ≠ [] := by
  rw [toList_toString]
  split
  · exact List.cons_ne_nil _ _
  · exact (digits_toString z.natAbs).ne_nil

/-- The text of an integer denotes the integer. -/
theorem writesInteger_toString (z : ℤ) : WritesInteger (toString z).toList z := by
  have hdenoted := denoted_toString z.natAbs
  rw [toList_toString]
  split
  · have hwrites := WritesInteger.minus (digits_toString z.natAbs)
    rwa [hdenoted, show -((z.natAbs : ℕ) : ℤ) = z by omega] at hwrites
  · have hwrites := WritesInteger.unsigned (digits_toString z.natAbs)
    rwa [hdenoted, show ((z.natAbs : ℕ) : ℤ) = z by omega] at hwrites

/-! ### Trimming -/

/-- A text without blanks stays when it is trimmed. -/
theorem trim_of_forall_isBlank {chars : List Char} (h : ∀ c ∈ chars, Text.isBlank c = false) :
    Text.trim chars = chars := by
  have hstays : ∀ {cs : List Char}, (∀ c ∈ cs, Text.isBlank c = false) →
      cs.dropWhile Text.isBlank = cs := by
    intro cs hcs
    cases cs with
    | nil => rfl
    | cons c cs =>
      rw [List.dropWhile_cons, hcs c List.mem_cons_self]
      rfl
  rw [Text.trim, hstays h, Text.trimEnd, hstays fun c hc => h c (List.mem_reverse.mp hc),
    List.reverse_reverse]

/-- A text with a character that is no blank is not trimmed to nothing. -/
theorem trim_ne_nil {chars : List Char} (hmem : c ∈ chars) (hc : Text.isBlank c = false) :
    Text.trim chars ≠ [] := by
  intro htrim
  have hbehind : ∀ d ∈ chars.dropWhile Text.isBlank, Text.isBlank d = true := by
    rw [Text.trim, Text.trimEnd, List.reverse_eq_nil_iff, List.dropWhile_eq_nil_iff] at htrim
    exact fun d hd => htrim d (List.mem_reverse.mpr hd)
  rw [← List.takeWhile_append_dropWhile (p := Text.isBlank) (l := chars), List.mem_append] at hmem
  rcases hmem with hfront | hrest
  · cases hc.symm.trans (List.mem_takeWhile_imp hfront)
  · cases hc.symm.trans (hbehind c hrest)

/-- There are no blanks in the text of an integer. -/
theorem isBlank_of_mem_toString {z : ℤ} (h : c ∈ (toString z).toList) :
    Text.isBlank c = false := by
  have hdigits := (digits_toString z.natAbs).all
  rw [toList_toString] at h
  split at h
  · rcases List.mem_cons.mp h with rfl | hc
    · decide
    · exact isBlank_of_isDigit (hdigits c hc)
  · exact isBlank_of_isDigit (hdigits c h)

/-- The text of an integer stays when it is trimmed. -/
theorem trim_toString (z : ℤ) : Text.trim (toString z).toList = (toString z).toList :=
  trim_of_forall_isBlank fun _ => isBlank_of_mem_toString

/-! ### Whole numbers -/

/-- The text of a whole number is read as the whole number. -/
theorem toInteger_toString (n : Int64) : (Value.string (toString n.toInt)).toInteger = .ok n := by
  have hwrites := writesInteger_toString n.toInt
  rw [← trim_toString] at hwrites
  rw [Value.toInteger, stringInteger?_of_writesInteger hwrites,
    if_pos ⟨n.le_toInt, n.toInt_lt⟩, Int64.ofInt_toInt]
  rfl

end TypedFormula
