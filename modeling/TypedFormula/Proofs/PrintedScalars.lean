import TypedFormula.Expr.Parse
import TypedFormula.Proofs.Binary64.Decimals
import TypedFormula.Proofs.Decimal.Positional
import TypedFormula.Proofs.Grammar.Acceptance

/-!
# Printed scalars read back

A number is printed as an integer if it is one below `10 ^ 15` in magnitude, and as its shortest
decimal otherwise. In both cases the text is that of a decimal which rounds to the number
(`exists_writesNumber_numberText`): the integer because it is the number itself, the shortest
decimal because it was chosen so. It is read in two places, in a text that is converted to a number
and in a formula, where a minus would be an operator, and in both places the decimal is rounded
once. Only the sign of zero is not printed.

Main statements:

* `stringNumber?_of_writesNumber`, `parseFormula_of_writesNumber` — the two places;
* `exists_writesNumber_numberText` — what is printed for a number;
* `printed_scalars_read_back` — numbers, whole numbers and truth values are read back.
-/

namespace TypedFormula

open Binary64 Decimal Float.Model Float.Model.UnpackedFloat

variable {x : Float} {s : Sign} {m : ℕ} {q k : ℤ} {r : ℚ} {c : Char}

/-! ### Texts of numbers -/

/-- The text of a decimal, behind a minus or not, that is nearest to a number. -/
inductive WritesNumber (negative : Bool) : List Char → Float → Prop
  /-- The text of a decimal. -/
  | mk {body : List Char} {n : ℕ} {e : ℤ} (h : WritesDecimal body n e) :
      WritesNumber negative (signText negative body) (nearest negative n e)

private theorem readFinite?_of_writesNumber {negative : Bool} {chars : List Char}
    (h : WritesNumber negative chars x) (hx : x.isFinite = true) : readFinite? chars = some x := by
  cases h with
  | mk h =>
    rw [readFinite?, readNumber?_signText negative h, Option.map_some, Option.filter_some]
    exact if_pos hx

/-- A text that is converted to a number is read as this number. -/
theorem stringNumber?_of_writesNumber {negative : Bool} {text : String}
    (h : WritesNumber negative text.toList x) (hx : x.isFinite = true) :
    stringNumber? text = some x := by
  have hread := readFinite?_of_writesNumber h hx
  rw [stringNumber?]
  generalize text.toList = chars at h hread ⊢
  cases h with
  | mk h => rwa [trim_signText negative h]

/-! ### Numbers in formulas -/

private theorem singleMark?_of_isDigit (h : c.isDigit = true) : singleMark? c = none := by
  have hne : ∀ d : Char, d.isDigit = false → c ≠ d := by
    rintro d hd rfl
    cases h.symm.trans hd
  rw [singleMark?, if_neg (hne '+' rfl), if_neg (hne '-' rfl), if_neg (hne '*' rfl),
    if_neg (hne '/' rfl), if_neg (hne '^' rfl), if_neg (hne '&' rfl), if_neg (hne '=' rfl),
    if_neg (hne ',' rfl), if_neg (hne '(' rfl), if_neg (hne ')' rfl)]

private theorem scan_of_isDigit (start : ℕ) (h : c.isDigit = true) (rest : List Char) :
    scan start c rest = scanNumber start (c :: rest) := by
  have hne : ∀ d : Char, d.isDigit = false → c ≠ d := by
    rintro d hd rfl
    cases h.symm.trans hd
  rw [scan, singleMark?_of_isDigit h]
  simp only
  rw [if_neg (not_or.mpr ⟨hne '<' rfl, hne '>' rfl⟩), if_neg (hne '\x22' rfl), if_neg (hne '$' rfl),
    if_pos (by rw [h, Bool.true_or])]

/-- The text of a decimal has no exponent. -/
private theorem splitPlaces_of_writesDecimal {body : List Char} {n : ℕ} {e : ℤ}
    (h : WritesDecimal body n e) :
    splitPlaces (body.dropWhile Char.isDigit) = (body.dropWhile Char.isDigit, []) := by
  cases h with
  | whole h => rw [List.dropWhile_eq_nil_iff.mpr h.all, splitPlaces]
  | point h h' =>
    rw [List.dropWhile_append_of_pos h.all, List.dropWhile_cons_of_neg (by decide), splitPlaces,
      if_pos rfl, List.takeWhile_eq_self_iff.mpr h'.all, List.dropWhile_eq_nil_iff.mpr h'.all]

/-- The text of a number without a minus is scanned up to its end. -/
private theorem scanNumber_of_writesNumber (start : ℕ) {body : List Char}
    (h : WritesNumber false body x) (hx : x.isFinite = true) :
    scanNumber start body = .ok ⟨.number x, start + body.length, []⟩ := by
  have hread := readFinite?_of_writesNumber h hx
  have hplaces : splitPlaces (body.dropWhile Char.isDigit) = (body.dropWhile Char.isDigit, []) := by
    cases h with
    | mk h => exact splitPlaces_of_writesDecimal h
  rw [scanNumber]
  simp only [hplaces, splitExponent, List.append_nil, List.takeWhile_append_dropWhile, if_true,
    hread]

/-- A formula that is the text of a number is the number. -/
theorem parseFormula_of_writesNumber (scope : Scope) {text : String}
    (h : WritesNumber false text.toList x) (hx : x.isFinite = true) :
    parseFormula scope ("=" ++ text) = .ok (.number 1 x) := by
  obtain ⟨c, rest, htext, hdigit⟩ : ∃ c rest, text.toList = c :: rest ∧ c.isDigit = true := by
    generalize text.toList = chars at h
    cases h with
    | mk h => exact h.exists_cons
  have hscan : scan 1 c rest = .ok ⟨.number x, 1 + text.toList.length, []⟩ := by
    rw [scan_of_isDigit 1 hdigit, ← htext]
    exact scanNumber_of_writesNumber 1 h hx
  have hskip : skipBlanks 1 (c :: rest) = (1, c :: rest) := by
    rw [skipBlanks, isBlank_of_isDigit hdigit]
    rfl
  have htokens : tokenize 1 (c :: rest) =
      ⟨[⟨.number x, 1⟩], .ok (1 + text.toList.length)⟩ := by
    rw [tokenize_cons hskip hscan, tokenize_nil rfl]
  have hder : Derives (.chain .comparison) [⟨.number x, 1⟩] (.number 1 x) :=
    .operand (.operand (.operand (.operand (.signed (.single (.number 1 x))))))
  refine parseFormula_ok_iff.mpr ⟨0, c :: rest, _, _, _, ?_, htokens, hder, .number 1 x,
    Nat.zero_le _⟩
  rw [String.toList_append, htext]
  rfl

/-! ### What is printed -/

/-- A number without the sign of zero. -/
def unsignedZero (x : Float) : Float := if x = -0 then 0 else x

/-- Both zeros become the one without a sign. -/
private theorem unsignedZero_of_eq_zero (h : toRat? x = some 0) : unsignedZero x = 0 := by
  obtain rfl | rfl := eq_zero_or_of_toRat?_eq_zero h
  · exact if_neg (by decide)
  · exact if_pos rfl

private theorem unsignedZero_of_ne_zero (h : toRat? x = some r) (hr : r ≠ 0) :
    unsignedZero x = x := by
  refine if_neg ?_
  rintro rfl
  exact hr (Option.some.inj h).symm

/-- A number stays finite without the sign of zero. -/
private theorem isFinite_unsignedZero (h : x.isFinite = true) :
    (unsignedZero x).isFinite = true := by
  rw [unsignedZero]
  split
  · rfl
  · exact h

/-- An integral number has the integer as its exact value. -/
private theorem toRat?_of_exactInt? (h : exactInt? x = some k) : toRat? x = some (k : ℚ) := by
  rw [exactInt?] at h
  rw [toRat?]
  cases hx : x.toModel.unpack with
  | zero s =>
    rw [hx] at h
    obtain rfl := Option.some.inj h
    exact congrArg some Int.cast_zero.symm
  | finite s m e hm =>
    rw [hx] at h
    simp only at h
    split at h
    · rename_i he
      obtain rfl := Option.some.inj h
      rw [ratOf?, signedValue_of_nonneg s m he]
    · split at h
      · rename_i he hzero
        obtain rfl := Option.some.inj h
        have hdvd : Nat.pow 2 (-e).toNat ∣ m := Nat.dvd_of_mod_eq_zero hzero
        have hvalue : (m : ℚ) * 2 ^ e = (m / Nat.pow 2 (-e).toNat : ℕ) := by
          rw [mul_zpow_of_nonpos m (by omega),
            Nat.cast_div hdvd (Nat.cast_ne_zero.mpr (Nat.two_pow_pos _).ne'), Nat.pow_eq,
            Nat.cast_pow, Nat.cast_ofNat]
        rw [ratOf?, signedValue_eq_withSign, hvalue]
        cases s with
        | positive => rfl
        | negative => exact congrArg some (Int.cast_neg _).symm
      · cases h
  | _ => rw [hx] at h; cases h

private theorem exactInt?_of_eq_zero (h : toRat? x = some 0) : exactInt? x = some 0 := by
  obtain rfl | rfl := eq_zero_or_of_toRat?_eq_zero h <;> rfl

/-- The text of an integer is one of a number that has this value. -/
private theorem writesNumber_toString (hx : toRat? x = some (k : ℚ)) :
    WritesNumber (decide (k < 0)) (toString k).toList (unsignedZero x) := by
  have htext : (toString k).toList = signText (decide (k < 0)) (toString k.natAbs).toList := by
    rw [toList_toString, signText]
    simp only [decide_eq_true_eq]
  have hnearest : nearest (decide (k < 0)) (denoted (toString k.natAbs).toList) 0 =
      unsignedZero x := by
    rw [denoted_toString]
    obtain rfl | hk := eq_or_ne k 0
    · rw [Int.cast_zero] at hx
      rw [unsignedZero_of_eq_zero hx]
      rfl
    · have hk' : (k : ℚ) ≠ 0 := Int.cast_ne_zero.mpr hk
      rw [unsignedZero_of_ne_zero hx hk']
      refine nearest_eq _ hx hk' ?_
      have hvalue : (if decide (k < 0) = true then -((k.natAbs : ℚ) * 10 ^ (0 : ℤ))
          else (k.natAbs : ℚ) * 10 ^ (0 : ℤ)) = k := by
        rw [zpow_zero, mul_one, Nat.cast_natAbs]
        split
        · rename_i hneg
          rw [abs_of_neg (of_decide_eq_true hneg), Int.cast_neg, neg_neg]
        · rename_i hnonneg
          rw [abs_of_nonneg (by simpa using hnonneg)]
      rw [hvalue, rounded_of_representable (representable_of_toRat? hx).1]
  rw [htext, ← hnearest]
  exact .mk (.whole (digits_toString _))

/-- The positional text of a number that is not zero is one of this number. -/
private theorem writesNumber_floatText {hm : 0 < m} (hx : x.toModel.unpack = .finite s m q hm) :
    WritesNumber (s == .negative) (floatText x).toList x := by
  obtain ⟨n, e, hwrites, hvalue⟩ := exists_writesDecimal_positional (shortest .up ⟨m, q⟩)
  have hrounded : rounded (n * 10 ^ e) = m * 2 ^ q :=
    hvalue ▸ rounded_shortest (b := ⟨m, q⟩) .up (canonical_of_unpack hx) hm
  have hexact : toRat? x = some (signedValue s m q) := by rw [toRat?, hx, ratOf?]
  have hpos := mul_zpow_pos hm q
  rw [floatText, hx]
  cases s with
  | positive =>
    rw [signedValue_positive] at hexact
    rw [← nearest_eq false hexact hpos.ne' hrounded]
    have htext : (signed .positive (positional [] (shortest .up ⟨m, q⟩))).toList =
        signText false (positional [] (shortest .up ⟨m, q⟩)) := String.toList_ofList
    exact htext ▸ .mk hwrites
  | negative =>
    rw [signedValue_negative] at hexact
    rw [← nearest_eq true hexact (neg_ne_zero.mpr hpos.ne')
      ((rounded_neg _).trans (congrArg Neg.neg hrounded))]
    have htext : (signed .negative (positional [] (shortest .up ⟨m, q⟩))).toList =
        signText true (positional [] (shortest .up ⟨m, q⟩)) := String.toList_ofList
    exact htext ▸ .mk hwrites

/-- The text of an integer has a minus for negative integers only. -/
private theorem exists_writesNumber_toString (hx : toRat? x = some (k : ℚ)) :
    ∃ negative, WritesNumber negative (toString k).toList (unsignedZero x) ∧
      (0 ≤ x → negative = false) := by
  refine ⟨_, writesNumber_toString hx, fun hnonneg => decide_eq_false ?_⟩
  have hk : (0 : ℚ) ≤ k := (le_iff_of_toRat? (p := 0) rfl hx).mp hnonneg
  exact not_lt.mpr (by exact_mod_cast hk)

/-- The positional text of a number has a minus for negative numbers only. -/
private theorem exists_writesNumber_floatText (hx : toRat? x = some r) (hr : r ≠ 0) :
    ∃ negative, WritesNumber negative (floatText x).toList (unsignedZero x) ∧
      (0 ≤ x → negative = false) := by
  rw [unsignedZero_of_ne_zero hx hr]
  obtain ⟨s, hu, rfl⟩ | ⟨s, m, q, hm, hu, rfl⟩ := exists_unpack_of_toRat? hx
  · exact absurd rfl hr
  refine ⟨_, writesNumber_floatText hu, fun hnonneg => ?_⟩
  cases s with
  | positive => rfl
  | negative =>
    have hvalue := (le_iff_of_toRat? (p := 0) rfl hx).mp hnonneg
    have hpos := mul_zpow_pos hm q
    rw [signedValue_negative] at hvalue
    linarith

/-- What is printed for a finite number is a text of the number without the sign of zero, and a
minus is printed for negative numbers only. -/
theorem exists_writesNumber_numberText (h : x.isFinite = true) :
    ∃ negative, WritesNumber negative (numberText x).toList (unsignedZero x) ∧
      (0 ≤ x → negative = false) := by
  obtain ⟨r, hx⟩ := exists_toRat?_of_isFinite h
  rw [numberText]
  cases hk : exactInt? x with
  | none =>
    refine exists_writesNumber_floatText hx ?_
    rintro rfl
    cases hk.symm.trans (exactInt?_of_eq_zero hx)
  | some k =>
    have hk' := toRat?_of_exactInt? hk
    simp only
    split
    · exact exists_writesNumber_toString hk'
    · rename_i hlarge
      refine exists_writesNumber_floatText hk' (Int.cast_ne_zero.mpr ?_)
      omega

/-! ### Reading back -/

/-- Printed scalars are read back. The text of a finite number is converted to this number, bit for
bit but for the sign of zero, and if the number is not negative, then its text as a formula is the
number alone. The texts of whole numbers and of truth values are converted to what was printed. -/
theorem printed_scalars_read_back :
    (∀ x : Float, x.isFinite = true →
      (Value.string (Value.float (.plain x)).text).toNumber = .ok (.plain (unsignedZero x))) ∧
    (∀ (scope : Scope) (x : Float), x.isFinite = true → 0 ≤ x →
      parseFormula scope ("=" ++ (Value.float (.plain x)).text) =
        .ok (.number 1 (unsignedZero x))) ∧
    (∀ n : Int64, (Value.string (Value.integer n).text).toInteger = .ok n) ∧
    ∀ b : Bool, (Value.string (Value.boolean b).text).toBoolean = .ok b := by
  refine ⟨fun x hx => ?_, fun scope x hx hnonneg => ?_, toInteger_toString, fun b => ?_⟩
  · obtain ⟨negative, hwrites, -⟩ := exists_writesNumber_numberText hx
    rw [Value.toNumber, Value.text, Number.value,
      stringNumber?_of_writesNumber hwrites (isFinite_unsignedZero hx)]
    rfl
  · obtain ⟨negative, hwrites, hsign⟩ := exists_writesNumber_numberText hx
    rw [hsign hnonneg] at hwrites
    exact parseFormula_of_writesNumber scope hwrites (isFinite_unsignedZero hx)
  · cases b <;> rfl

/-- A number that needs all seventeen digits is read back, and so is the least whole number; the
zero with a sign becomes the one without. -/
theorem printed_scalars_read_back_of_seventeen_digits :
    let x : Float := 0.30000000000000004
    let scope : Scope := ⟨Dict.ofList [], Registry.empty⟩
    (x.isFinite = true ∧ 0 ≤ x ∧ numberText x = "0.30000000000000004") ∧
      (Value.string (Value.float (.plain x)).text).toNumber = .ok (.plain x) ∧
      parseFormula scope ("=" ++ (Value.float (.plain x)).text) = .ok (.number 1 x) ∧
      ((-0 : Float).isFinite = true ∧ numberText (-0) = "0") ∧
      (Value.string (Value.float (.plain (-0))).text).toNumber = .ok (.plain 0) ∧
      (Value.string (Value.integer Int64.minValue).text).toInteger = .ok Int64.minValue ∧
      (Value.string (Value.boolean true).text).toBoolean = .ok true := by
  intro x scope
  obtain ⟨htexts, hformulas, hintegers, hbooleans⟩ := printed_scalars_read_back
  have hfinite : x.isFinite = true := by decide
  have hnonneg : 0 ≤ x := by decide
  have hsame : unsignedZero x = x := by decide
  have htext := htexts x hfinite
  have hformula := hformulas scope x hfinite hnonneg
  rw [hsame] at htext hformula
  exact ⟨⟨hfinite, hnonneg, by decide +kernel⟩, htext, hformula, ⟨by decide, by decide +kernel⟩,
    htexts (-0) (by decide), hintegers _, hbooleans true⟩

end TypedFormula
