import Mathlib
import TypedFormula.Proofs.LetterCase
import TypedFormula.Token.Scan

/-!
# Readings in any letter case

Two texts have the same letters if they differ at most in the case of ASCII letters, that is, if
they are the same in capitals (`SameLetters`). All that the scanners ask of a character is the same
for a letter and its capital (`CaseBlind`), but for the letters that stand behind a backslash. So
texts with the same letters are cut at the same places. A number has the same value, since the
letters in it only mark its exponent or name infinity and NaN, and a name has the same upper-case
form.

What is asked of characters is checked for the small ASCII letters one by one; all others are their
own capitals.

Main statements:

* `readFinite?_of_sameLetters`, `stringBoolean?_of_sameLetters`, `upper_of_sameLetters` — the
  number, the truth value and the name in a text;
* `scanNumber_of_sameLetters`, `scanIdentifier_of_sameLetters` — the words in front of a text.
-/

namespace TypedFormula

namespace Text

/-! ### Capitals -/

/-- A text with all ASCII letters in upper case. -/
def capitals (chars : List Char) : List Char := chars.map Char.toUpper

/-- Two texts differ at most in the case of ASCII letters. -/
def SameLetters (a b : List Char) : Prop := capitals a = capitals b

/-- What is the same for a letter and its capital. -/
def CaseBlind {β : Type} (f : Char → β) : Prop := ∀ c, f c.toUpper = f c

/-- Only a small ASCII letter is not its own capital. -/
private theorem toUpper_cases (c : Char) : c.toUpper = c ∨
    ∃ n < 26, c = Char.ofNat (0x61 + n) ∧ c.toUpper = Char.ofNat (0x41 + n) := by
  by_cases hc : 'a'.val ≤ c.val ∧ c.val ≤ 'z'.val
  · have hcapital : ∀ n < 26, (Char.ofNat (0x61 + n)).toUpper = Char.ofNat (0x41 + n) := by decide
    have hfirst : 0x61 ≤ c.toNat := UInt32.le_iff_toNat_le.mp hc.1
    have hlast : c.toNat ≤ 0x7A := UInt32.le_iff_toNat_le.mp hc.2
    have hself : c = Char.ofNat (0x61 + (c.toNat - 0x61)) := by
      rw [Nat.add_sub_cancel' hfirst, Char.ofNat_toNat]
    have hlt : c.toNat - 0x61 < 26 := by omega
    exact .inr ⟨_, hlt, hself, (congrArg Char.toUpper hself).trans (hcapital _ hlt)⟩
  · exact .inl (by rw [Char.toUpper, dif_neg hc])

/-- A character of a class without small ASCII letters is its own capital. -/
private theorem toUpper_of_class {P : Char → Prop}
    (hletters : ∀ n < 26, ¬ P (Char.ofNat (0x61 + n))) {c : Char} (h : P c) : c.toUpper = c := by
  obtain hself | ⟨n, hn, rfl, -⟩ := toUpper_cases c
  · exact hself
  · exact absurd h (hletters n hn)

private theorem toUpper_of_isAlpha {c : Char} (h : c.isAlpha = false) : c.toUpper = c :=
  toUpper_of_class (P := fun c => c.isAlpha = false) (by decide) h

private theorem toUpper_of_isDigit {c : Char} (h : c.isDigit = true) : c.toUpper = c :=
  toUpper_of_class (P := fun c => c.isDigit = true) (by decide) h

/-- What is the same for the small ASCII letters and their capitals does not depend on case. -/
private theorem caseBlind_of_letters {β : Type} {f : Char → β}
    (h : ∀ n < 26, f (Char.ofNat (0x41 + n)) = f (Char.ofNat (0x61 + n))) : CaseBlind f := by
  intro c
  obtain hself | ⟨n, hn, hsmall, hcapital⟩ := toUpper_cases c
  · rw [hself]
  · rw [hcapital, h n hn, ← hsmall]

theorem caseBlind_isDigit : CaseBlind Char.isDigit := caseBlind_of_letters (by decide)

theorem caseBlind_isAlpha : CaseBlind Char.isAlpha := caseBlind_of_letters (by decide)

theorem caseBlind_isNameChar : CaseBlind isNameChar := caseBlind_of_letters (by decide)

private theorem caseBlind_isIdentifierChar :
    CaseBlind isIdentifierChar := caseBlind_of_letters (by decide)

theorem caseBlind_isBlank : CaseBlind isBlank := caseBlind_of_letters (by decide)

theorem caseBlind_singleMark? : CaseBlind singleMark? := caseBlind_of_letters (by decide)

private theorem caseBlind_toLower : CaseBlind Char.toLower := caseBlind_of_letters (by decide)

private theorem caseBlind_upperChar : CaseBlind upperChar := by
  have hsmall : ∀ n < 26, upperChar (Char.ofNat (0x61 + n)) = [Char.ofNat (0x41 + n)] := by
    decide +kernel
  have hcapital : ∀ n < 26, (Char.ofNat (0x41 + n)).toNat < 0x61 := by decide
  refine caseBlind_of_letters fun n hn => ?_
  rw [hsmall n hn, upperChar_of_isUpper (isUpper_of_lt (hcapital n hn))]

/-! ### Texts with the same letters -/

section

variable {a b a' b' : List Char} {β : Type} {p : Char → Bool}

theorem SameLetters.refl (a : List Char) : SameLetters a a := rfl

theorem SameLetters.cons {c d : Char} (h : c.toUpper = d.toUpper) (h' : SameLetters a b) :
    SameLetters (c :: a) (d :: b) :=
  congrArg₂ List.cons h h'

theorem SameLetters.append (h : SameLetters a b) (h' : SameLetters a' b') :
    SameLetters (a ++ a') (b ++ b') := by
  rw [SameLetters, capitals, capitals, List.map_append, List.map_append]
  exact congrArg₂ (· ++ ·) h h'

theorem SameLetters.length_eq (h : SameLetters a b) : a.length = b.length := by
  simpa [capitals] using congrArg List.length h

theorem SameLetters.eq_nil (h : SameLetters [] b) : b = [] :=
  List.length_eq_zero_iff.mp h.length_eq.symm

theorem SameLetters.exists_cons {c : Char} (h : SameLetters (c :: a) b) :
    ∃ d b', b = d :: b' ∧ c.toUpper = d.toUpper ∧ SameLetters a b' := by
  cases b with
  | nil => cases h
  | cons d b => exact ⟨d, b, rfl, (List.cons.inj h).1, (List.cons.inj h).2⟩

theorem CaseBlind.eq_of_toUpper {f : Char → β} (hf : CaseBlind f) {c d : Char}
    (h : c.toUpper = d.toUpper) : f c = f d := by
  rw [← hf c, h, hf d]

private theorem CaseBlind.iff_of_toUpper {P : Char → Prop} (hP : CaseBlind P) {c d : Char}
    (h : c.toUpper = d.toUpper) : P c ↔ P d :=
  iff_of_eq (hP.eq_of_toUpper h)

/-- A character that is no letter is one of two characters with one capital, if it is the other
one. -/
theorem eq_iff_of_toUpper {c d e : Char} (he : e.isAlpha = false) (h : c.toUpper = d.toUpper) :
    c = e ↔ d = e := by
  have hsame : ∀ {x : Char}, x.toUpper = e.toUpper → x = e := by
    intro x hx
    have hletter : x.isAlpha = false := (caseBlind_isAlpha.eq_of_toUpper hx).trans he
    rwa [toUpper_of_isAlpha hletter, toUpper_of_isAlpha he] at hx
  constructor
  · rintro rfl
    exact hsame h.symm
  · rintro rfl
    exact hsame h

private theorem CaseBlind.map_eq {f : Char → β} (hf : CaseBlind f) (h : SameLetters a b) :
    a.map f = b.map f := by
  have hself : ∀ chars : List Char, chars.map f = (capitals chars).map f := fun chars => by
    rw [capitals, List.map_map]
    exact List.map_congr_left fun c _ => (hf c).symm
  rw [hself a, hself b, h]

theorem SameLetters.takeWhile (hp : CaseBlind p) (h : SameLetters a b) :
    SameLetters (a.takeWhile p) (b.takeWhile p) := by
  have hself : ∀ chars : List Char, capitals (chars.takeWhile p) = (capitals chars).takeWhile p :=
    fun chars => by
      rw [capitals, capitals, List.takeWhile_map]
      exact congrArg (fun q => (chars.takeWhile q).map Char.toUpper) (funext fun c => (hp c).symm)
  rw [SameLetters, hself a, hself b, h]

/-- What is left of a run of characters of a case blind class has the letters of what is left of the
other run. -/
private theorem SameLetters.dropWhile (hp : CaseBlind p) (h : SameLetters a b) :
    SameLetters (a.dropWhile p) (b.dropWhile p) := by
  have hself : ∀ chars : List Char, capitals (chars.dropWhile p) = (capitals chars).dropWhile p :=
    fun chars => by
      rw [capitals, capitals, List.dropWhile_map]
      exact congrArg (fun q => (chars.dropWhile q).map Char.toUpper) (funext fun c => (hp c).symm)
  rw [SameLetters, hself a, hself b, h]

private theorem SameLetters.takeWhile_isDigit (h : SameLetters a b) :
    a.takeWhile Char.isDigit = b.takeWhile Char.isDigit := by
  have hself : ∀ chars : List Char,
      capitals (chars.takeWhile Char.isDigit) = chars.takeWhile Char.isDigit := fun chars => by
    refine (List.map_congr_left fun c hc => ?_).trans (List.map_id _)
    exact toUpper_of_isDigit (List.all_eq_true.mp List.all_takeWhile c hc)
  rw [← hself a, ← hself b, h.takeWhile caseBlind_isDigit]

private theorem SameLetters.all_eq (hp : CaseBlind p) (h : SameLetters a b) :
    a.all p = b.all p := by
  have hmap := congrArg (List.all · id) (hp.map_eq h)
  simpa using hmap

private theorem SameLetters.eq_of_all_isDigit (h : SameLetters a b)
    (ha : a.all Char.isDigit = true) :
    a = b := by
  have hb : b.all Char.isDigit = true := h.all_eq caseBlind_isDigit ▸ ha
  rw [← List.takeWhile_eq_self_iff.mpr (List.all_eq_true.mp ha),
    ← List.takeWhile_eq_self_iff.mpr (List.all_eq_true.mp hb), h.takeWhile_isDigit]

/-- Texts with the same letters have one upper-case form. -/
theorem upper_of_sameLetters (h : SameLetters a b) :
    upper (String.ofList a) = upper (String.ofList b) := by
  rw [upper, upper, String.toList_ofList, String.toList_ofList, upperChars, upperChars,
    List.flatMap_def, List.flatMap_def, caseBlind_upperChar.map_eq h]

/-- Texts with the same letters name one truth value, if they name any. -/
theorem stringBoolean?_of_sameLetters (h : SameLetters a b) :
    stringBoolean? (String.ofList a) = stringBoolean? (String.ofList b) := by
  have hword : a.map Char.toUpper = b.map Char.toUpper := h
  rw [stringBoolean?, stringBoolean?, String.toList_ofList, String.toList_ofList, hword]

end

end Text

open Text (CaseBlind SameLetters)

/-! ### Numbers -/

section

variable {a b : List Char}

/-- A character that is no sign is not split off. -/
private theorem splitSign_of_ne {c : Char} (hminus : c ≠ '-') (hplus : c ≠ '+') (rest : List Char) :
    Decimal.splitSign (c :: rest) = (false, c :: rest) := by
  unfold Decimal.splitSign
  split
  · rename_i heq
    exact absurd (List.cons.inj heq).1 hminus
  · rename_i heq
    exact absurd (List.cons.inj heq).1 hplus
  · rfl

/-- The same sign is split off texts with the same letters. -/
private theorem splitSign_of_sameLetters (h : SameLetters a b) :
    (Decimal.splitSign a).1 = (Decimal.splitSign b).1 ∧
      SameLetters (Decimal.splitSign a).2 (Decimal.splitSign b).2 := by
  cases a with
  | nil =>
    obtain rfl := h.eq_nil
    exact ⟨rfl, h⟩
  | cons c a =>
    obtain ⟨d, b, rfl, hcd, hrest⟩ := h.exists_cons
    have hminus : c = '-' ↔ d = '-' := Text.eq_iff_of_toUpper (by decide) hcd
    have hplus : c = '+' ↔ d = '+' := Text.eq_iff_of_toUpper (by decide) hcd
    by_cases hc : c = '-'
    · obtain rfl := hc
      obtain rfl := hminus.mp rfl
      exact ⟨rfl, hrest⟩
    · by_cases hc' : c = '+'
      · obtain rfl := hc'
        obtain rfl := hplus.mp rfl
        exact ⟨rfl, hrest⟩
      · rw [splitSign_of_ne hc hc', splitSign_of_ne (mt hminus.mpr hc) (mt hplus.mpr hc')]
        exact ⟨rfl, h⟩

private theorem readName?_of_sameLetters (negative : Bool) (h : SameLetters a b) :
    Decimal.readName? negative a = Decimal.readName? negative b := by
  rw [Decimal.readName?, Decimal.readName?, Text.caseBlind_toLower.map_eq h]

private theorem caseBlind_exponentMark : CaseBlind fun c => c = 'e' ∨ c = 'E' := by
  have hletters : ∀ n < 26, (Char.ofNat (0x41 + n) = 'e' ∨ Char.ofNat (0x41 + n) = 'E') ↔
      (Char.ofNat (0x61 + n) = 'e' ∨ Char.ofNat (0x61 + n) = 'E') := by decide
  exact Text.caseBlind_of_letters fun n hn => propext (hletters n hn)

private theorem readExponent?_cons (c : Char) (rest : List Char) :
    Decimal.readExponent? (c :: rest) =
      let digits := (Decimal.splitSign rest).2
      let n := Decimal.exponentValue digits
      if (c = 'e' ∨ c = 'E') ∧ digits ≠ [] ∧ digits.all Char.isDigit = true then
        some (if (Decimal.splitSign rest).1 then -(n : Int) else n)
      else none := rfl

/-- Texts with the same letters write the same exponent, if they write any. -/
private theorem readExponent?_of_sameLetters (h : SameLetters a b) :
    Decimal.readExponent? a = Decimal.readExponent? b := by
  cases a with
  | nil =>
    obtain rfl := h.eq_nil
    rfl
  | cons c a =>
    obtain ⟨d, b, rfl, hcd, hrest⟩ := h.exists_cons
    obtain ⟨hsign, hdigits⟩ := splitSign_of_sameLetters hrest
    have hmark := caseBlind_exponentMark.iff_of_toUpper hcd
    rw [readExponent?_cons, readExponent?_cons, hsign]
    by_cases hall : (Decimal.splitSign a).2.all Char.isDigit = true
    · simp only [hdigits.eq_of_all_isDigit hall, hmark]
    · have hall' : ¬ (Decimal.splitSign b).2.all Char.isDigit = true :=
        hdigits.all_eq Text.caseBlind_isDigit ▸ hall
      rw [if_neg fun hboth => hall hboth.2.2, if_neg fun hboth => hall' hboth.2.2]

/-- The decimal places of a number text, without the point, and what is left. -/
private theorem readDecimal?_eq (chars : List Char) : Decimal.readDecimal? chars =
    let whole := chars.takeWhile Char.isDigit
    let places := (splitPlaces (chars.dropWhile Char.isDigit)).1.tail
    if whole.isEmpty && places.isEmpty then none
    else (Decimal.readExponent? (splitPlaces (chars.dropWhile Char.isDigit)).2).map fun e =>
      (Decimal.digitsValue (Decimal.digitsValue 0 whole) places, e - (places.length : ℤ)) := by
  rw [Decimal.readDecimal?]
  cases chars.dropWhile Char.isDigit with
  | nil => rfl
  | cons c rest =>
    by_cases hc : c = '.'
    · subst hc
      rfl
    · rw [splitPlaces, if_neg hc]
      split
      rename_i heq
      split at heq
      · rename_i hpoint
        exact absurd (List.cons.inj hpoint).1 hc
      · obtain ⟨rfl, rfl⟩ := Prod.mk.inj heq
        rfl

/-- Decimal places are cut off texts with the same letters at the same place. -/
private theorem splitPlaces_of_sameLetters (h : SameLetters a b) :
    SameLetters (splitPlaces a).1 (splitPlaces b).1 ∧
      SameLetters (splitPlaces a).2 (splitPlaces b).2 := by
  cases a with
  | nil =>
    obtain rfl := h.eq_nil
    exact ⟨h, h⟩
  | cons c a =>
    obtain ⟨d, b, rfl, hcd, hrest⟩ := h.exists_cons
    have hpoint : c = '.' ↔ d = '.' := Text.eq_iff_of_toUpper (by decide) hcd
    rw [splitPlaces, splitPlaces]
    by_cases hc : c = '.'
    · rw [if_pos hc, if_pos (hpoint.mp hc)]
      exact ⟨(hrest.takeWhile Text.caseBlind_isDigit).cons hcd,
        hrest.dropWhile Text.caseBlind_isDigit⟩
    · rw [if_neg hc, if_neg (mt hpoint.mpr hc)]
      exact ⟨.refl [], h⟩

/-- The sign of an exponent is cut off texts with the same letters at the same place. -/
private theorem splitExponentSign_of_sameLetters (h : SameLetters a b) :
    SameLetters (splitExponentSign a).1 (splitExponentSign b).1 ∧
      SameLetters (splitExponentSign a).2 (splitExponentSign b).2 := by
  cases a with
  | nil =>
    obtain rfl := h.eq_nil
    exact ⟨h, h⟩
  | cons c a =>
    obtain ⟨d, b, rfl, hcd, hrest⟩ := h.exists_cons
    have hsign : c = '+' ∨ c = '-' ↔ d = '+' ∨ d = '-' :=
      or_congr (Text.eq_iff_of_toUpper (by decide) hcd) (Text.eq_iff_of_toUpper (by decide) hcd)
    rw [splitExponentSign, splitExponentSign]
    by_cases hc : c = '+' ∨ c = '-'
    · rw [if_pos hc, if_pos (hsign.mp hc)]
      exact ⟨(SameLetters.refl []).cons hcd, hrest⟩
    · rw [if_neg hc, if_neg (mt hsign.mpr hc)]
      exact ⟨.refl [], h⟩

/-- Texts with the same letters both begin with a digit, or neither does. -/
theorem startsWithDigit_of_sameLetters (h : SameLetters a b) :
    startsWithDigit a = startsWithDigit b := by
  cases a with
  | nil =>
    obtain rfl := h.eq_nil
    rfl
  | cons c a =>
    obtain ⟨d, b, rfl, hcd, -⟩ := h.exists_cons
    exact Text.caseBlind_isDigit.eq_of_toUpper hcd

/-- An exponent is cut off texts with the same letters at the same place. -/
private theorem splitExponent_of_sameLetters (h : SameLetters a b) :
    SameLetters (splitExponent a).1 (splitExponent b).1 ∧
      SameLetters (splitExponent a).2.1 (splitExponent b).2.1 ∧
        (splitExponent a).2.2 = (splitExponent b).2.2 := by
  cases a with
  | nil =>
    obtain rfl := h.eq_nil
    exact ⟨h, h, rfl⟩
  | cons c a =>
    obtain ⟨d, b, rfl, hcd, hrest⟩ := h.exists_cons
    have hmark := caseBlind_exponentMark.iff_of_toUpper hcd
    obtain ⟨hsign, hdigits⟩ := splitExponentSign_of_sameLetters hrest
    rw [splitExponent, splitExponent]
    by_cases hc : c = 'e' ∨ c = 'E'
    · rw [if_pos hc, if_pos (hmark.mp hc)]
      exact ⟨(hsign.cons hcd).append (hdigits.takeWhile Text.caseBlind_isDigit),
        hdigits.dropWhile Text.caseBlind_isDigit, startsWithDigit_of_sameLetters hdigits⟩
    · rw [if_neg hc, if_neg (mt hmark.mpr hc)]
      exact ⟨.refl [], h, rfl⟩

/-- The decimal places of texts with the same letters are the same digits. -/
private theorem tail_splitPlaces_of_sameLetters (h : SameLetters a b) :
    (splitPlaces a).1.tail = (splitPlaces b).1.tail := by
  cases a with
  | nil =>
    obtain rfl := h.eq_nil
    rfl
  | cons c a =>
    obtain ⟨d, b, rfl, hcd, hrest⟩ := h.exists_cons
    have hpoint : c = '.' ↔ d = '.' := Text.eq_iff_of_toUpper (by decide) hcd
    rw [splitPlaces, splitPlaces]
    by_cases hc : c = '.'
    · rw [if_pos hc, if_pos (hpoint.mp hc)]
      exact hrest.takeWhile_isDigit
    · rw [if_neg hc, if_neg (mt hpoint.mpr hc)]

private theorem readDecimal?_of_sameLetters (h : SameLetters a b) :
    Decimal.readDecimal? a = Decimal.readDecimal? b := by
  have hrest := h.dropWhile Text.caseBlind_isDigit
  rw [readDecimal?_eq, readDecimal?_eq, h.takeWhile_isDigit, tail_splitPlaces_of_sameLetters hrest,
    readExponent?_of_sameLetters (splitPlaces_of_sameLetters hrest).2]

private theorem readNumber?_of_sameLetters (h : SameLetters a b) :
    Decimal.readNumber? a = Decimal.readNumber? b := by
  obtain ⟨hsign, hbody⟩ := splitSign_of_sameLetters h
  rw [Decimal.readNumber?, Decimal.readNumber?]
  simp only [hsign, readName?_of_sameLetters _ hbody, readDecimal?_of_sameLetters hbody]

/-- Texts with the same letters write the same finite number, if they write any. -/
theorem readFinite?_of_sameLetters (h : SameLetters a b) :
    Decimal.readFinite? a = Decimal.readFinite? b := by
  rw [Decimal.readFinite?, Decimal.readFinite?, readNumber?_of_sameLetters h]

end

/-! ### Words -/

/-- A token, a name in its upper-case form. -/
def Token.key : Token → Token
  | .identifier name => .identifier (Text.upper name)
  | t => t

/-- Two readings stop at the same byte before texts with the same letters, and their tokens are the
same up to the letter case of a name. -/
structure Scanned.Alike (s s' : Scanned Token) : Prop where
  /-- The tokens are the same in upper case. -/
  key : s'.value.key = s.value.key
  /-- The readings stop at the same byte. -/
  next : s'.next = s.next
  /-- The letters behind them are the same. -/
  rest : SameLetters s.rest s'.rest

section

variable {start : Nat} {a b : List Char} {c d : Char} {s : Scanned Token}

/-- The first characters of texts with the same letters are both a character that is no letter, or
neither is. -/
private theorem head?_eq_of_sameLetters (hc : c.isAlpha = false) (h : SameLetters a b) :
    a.head? = some c ↔ b.head? = some c := by
  cases a with
  | nil =>
    obtain rfl := h.eq_nil
    rfl
  | cons d a =>
    obtain ⟨d', b, rfl, hd, -⟩ := h.exists_cons
    rw [List.head?_cons, List.head?_cons, Option.some.injEq, Option.some.injEq]
    exact Text.eq_iff_of_toUpper hc hd

private theorem tail_of_sameLetters (h : SameLetters a b) : SameLetters a.tail b.tail := by
  cases a with
  | nil =>
    obtain rfl := h.eq_nil
    exact h
  | cons d a =>
    obtain ⟨d', b, rfl, -, hrest⟩ := h.exists_cons
    exact hrest

/-- A number is read in any letter case. -/
theorem scanNumber_of_sameLetters (h : SameLetters a b) (hs : scanNumber start a = .ok s) :
    ∃ s', scanNumber start b = .ok s' ∧ s.Alike s' := by
  have hwhole := h.takeWhile Text.caseBlind_isDigit
  obtain ⟨hplaces, hbehind⟩ :=
    splitPlaces_of_sameLetters (h.dropWhile Text.caseBlind_isDigit)
  obtain ⟨hexponent, hrest, hcomplete⟩ := splitExponent_of_sameLetters hbehind
  have htext := (hwhole.append hplaces).append hexponent
  rw [scanNumber] at hs ⊢
  simp only [hcomplete, readFinite?_of_sameLetters htext, htext.length_eq] at hs ⊢
  split at hs
  · rename_i x hx
    obtain rfl := Except.ok.inj hs
    rw [hx]
    exact ⟨_, rfl, rfl, rfl, hrest⟩
  · cases hs

/-- A name is read in any letter case. -/
theorem scanIdentifier_of_sameLetters (h : SameLetters a b) :
    (scanIdentifier start a).Alike (scanIdentifier start b) := by
  have hname := h.takeWhile Text.caseBlind_isIdentifierChar
  have hrest := h.dropWhile Text.caseBlind_isIdentifierChar
  have hparen := head?_eq_of_sameLetters (c := '(') (by decide) hrest
  refine ⟨?_, congrArg (start + ·) hname.length_eq.symm, hrest⟩
  rw [scanIdentifier, scanIdentifier, identifierToken, identifierToken,
    Text.stringBoolean?_of_sameLetters hname]
  simp only [hparen]
  split
  · rfl
  · rw [Token.key, Token.key, Text.upper_of_sameLetters hname]

/-- A mark with an angle bracket is read whatever letters are behind it. -/
theorem scanAngle_of_sameLetters (h : SameLetters a b) :
    (scanAngle start c a).Alike (scanAngle start c b) := by
  have hequal := head?_eq_of_sameLetters (c := '=') (by decide) h
  have hgreater := head?_eq_of_sameLetters (c := '>') (by decide) h
  have htail := tail_of_sameLetters h
  rw [scanAngle, scanAngle]
  simp only [hequal, hgreater]
  repeat' split
  all_goals exact ⟨rfl, rfl, by assumption⟩

end

end TypedFormula
