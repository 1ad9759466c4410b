import Mathlib
import TypedFormula.Evaluation
import TypedFormula.Library.Strings

/-!
# Parts of texts

Four functions on texts count characters, each in its own way: from the left, from the right, from a
start that counts from one, and all of them. They agree with each other for all counts, also where
these go beyond the end of the text: each part is a `take` of a `drop` of the characters, and what
is said of parts are laws of these two.

A count is a whole number of 64 bits, while characters are counted by naturals. So the laws say of a
count which number it is, and only ask for it where there is one with this number.

Main statement: `parts_fit_together`.
-/

namespace TypedFormula

open Library (takeLeft takeRight takeMiddle countArgument left right mid len)

/-! ### Parts of characters -/

section

variable {chars : List Char}

private theorem takeLeft_append_takeRight {n : Nat} (h : n ≤ chars.length) :
    takeLeft n chars ++ takeRight (chars.length - n) chars = chars := by
  rw [takeLeft, takeRight, Nat.sub_sub_self h, List.take_append_drop]

private theorem takeLeft_of_length_le {n : Nat} (h : chars.length ≤ n) : takeLeft n chars = chars :=
  List.take_of_length_le h

private theorem takeRight_of_length_le {n : Nat} (h : chars.length ≤ n) :
    takeRight n chars = chars := by
  rw [takeRight, Nat.sub_eq_zero_of_le h, List.drop_zero]

private theorem takeMiddle_eq (skip n : Nat) :
    takeMiddle skip n chars = takeLeft n (takeRight (chars.length - skip) chars) := by
  rw [takeMiddle, takeLeft, takeRight]
  rcases Nat.le_total skip chars.length with hskip | hskip
  · rw [Nat.sub_sub_self hskip]
  · rw [Nat.sub_eq_zero_of_le hskip, Nat.sub_zero, List.drop_length, List.drop_of_length_le hskip]

/-- Characters from the middle are as many as asked for, unless the text ends before. -/
private theorem length_takeMiddle (skip n : Nat) :
    (takeMiddle skip n chars).length = min n (chars.length - skip) := by
  rw [takeMiddle, List.length_take, List.length_drop]

private theorem takeMiddle_append (skip n m : Nat) :
    takeMiddle skip n chars ++ takeMiddle (skip + n) m chars = takeMiddle skip (n + m) chars := by
  rw [takeMiddle, takeMiddle, takeMiddle, List.take_add, List.drop_drop]

end

/-! ### Results on counts -/

private theorem toText_string (t : String) : (Value.string t).toText = .ok t := rfl

section

variable {v x y : Value} {t : String} {n m : Int64}

/-- A count is the number of an argument, unless it is negative. -/
private theorem countArgument_of_toInteger {args : List Value} {index : Nat}
    (hx : args[index]? = some x) (h : x.toInteger = .ok n) : countArgument args index =
      if n.toInt < 0 then .error (.argument (index + 1) .negativeCount)
      else .ok n.toInt.toNat := by
  have hindex : ¬ args.length ≤ index := by
    rw [Nat.not_le]
    exact (List.getElem?_eq_some_iff.mp hx).1
  rw [countArgument, if_neg hindex, integerArgument_of_toInteger hx h]
  rfl

private theorem left_of_toInteger (hv : v.toText = .ok t) (hx : x.toInteger = .ok n) :
    left [v, x] = if n.toInt < 0 then .error (.argument 2 .negativeCount)
      else .ok (.string (String.ofList (takeLeft n.toInt.toNat t.toList))) := by
  rw [left, textArgument_of_toText rfl hv, countArgument_of_toInteger rfl hx]
  split_ifs <;> rfl

private theorem right_of_toInteger (hv : v.toText = .ok t) (hx : x.toInteger = .ok n) :
    right [v, x] = if n.toInt < 0 then .error (.argument 2 .negativeCount)
      else .ok (.string (String.ofList (takeRight n.toInt.toNat t.toList))) := by
  rw [right, textArgument_of_toText rfl hv, countArgument_of_toInteger rfl hx]
  split_ifs <;> rfl

/-- Characters from the middle are given for a start from one on and a count that is not
negative. -/
private theorem mid_of_toInteger (hv : v.toText = .ok t) (hx : x.toInteger = .ok n)
    (hy : y.toInteger = .ok m) : mid [v, x, y] =
      if n.toInt < 1 then .error (.argument 2 .startBeforeFirst)
      else if m.toInt < 0 then .error (.argument 3 .negativeCount)
      else .ok (.string (String.ofList
        (takeMiddle (n.toInt - 1).toNat m.toInt.toNat t.toList))) := by
  rw [mid, textArgument_of_toText rfl hv, integerArgument_of_toInteger rfl hx,
    integerArgument_of_toInteger rfl hy]
  rfl

private theorem len_of_toText (hv : v.toText = .ok t) :
    len [v] = .ok (.integer (Int64.ofNat t.toList.length)) := by
  rw [len, textArgument_of_toText rfl hv]
  rfl

private theorem applyBinary_concat_ofList (a b : List Char) :
    applyBinary .concat (.string (String.ofList a)) (.string (String.ofList b)) =
      .ok (.string (String.ofList (a ++ b))) := by
  rw [String.ofList_append]
  rfl

end

/-! ### Laws of parts -/

/-- The laws of the functions on parts of a text `t` that the value `v` has. -/
structure PartsFit (v : Value) (t : String) : Prop where
  /-- The number of characters is given, if it has room in 64 bits. -/
  length : t.length < 2 ^ 63 → ∃ n, len [v] = .ok (.integer n) ∧ n.toInt = t.length
  /-- The first characters and all others make the text. -/
  halves : ∀ n m : Int64, 0 ≤ n.toInt → n.toInt ≤ t.length → m.toInt = t.length - n.toInt →
    ∃ a b, left [v, .integer n] = .ok a ∧ right [v, .integer m] = .ok b ∧
      applyBinary .concat a b = .ok (.string t)
  /-- For more characters than there are the text is given. -/
  beyond : ∀ n : Int64, t.length < n.toInt →
    left [v, .integer n] = .ok (.string t) ∧ right [v, .integer n] = .ok (.string t)
  /-- Characters from the middle are the first ones of the last ones. -/
  middle : ∀ start n m : Int64, 1 ≤ start.toInt → 0 ≤ n.toInt →
    m.toInt = max 0 (t.length - start.toInt + 1) →
      ∃ a b, right [v, .integer m] = .ok a ∧ left [a, .integer n] = .ok b ∧
        mid [v, .integer start, .integer n] = .ok b
  /-- Characters from the middle are as many as asked for, unless the text ends before. -/
  middleLength : ∀ start n : Int64, 1 ≤ start.toInt → 0 ≤ n.toInt →
    ∃ a k, mid [v, .integer start, .integer n] = .ok a ∧ len [a] = .ok (.integer k) ∧
      k.toInt = min n.toInt (max 0 (t.length - start.toInt + 1))
  /-- Characters from the middle and those behind them are characters from the middle. -/
  adjacent : ∀ start n m next sum : Int64, 1 ≤ start.toInt → 0 ≤ n.toInt → 0 ≤ m.toInt →
    next.toInt = start.toInt + n.toInt → sum.toInt = n.toInt + m.toInt →
      ∃ a b c, mid [v, .integer start, .integer n] = .ok a ∧
        mid [v, .integer next, .integer m] = .ok b ∧
          mid [v, .integer start, .integer sum] = .ok c ∧ applyBinary .concat a b = .ok c
  /-- A negative count is blamed. -/
  negative : ∀ n : Int64, n.toInt < 0 →
    left [v, .integer n] = .error (.argument 2 .negativeCount) ∧
      right [v, .integer n] = .error (.argument 2 .negativeCount) ∧
        ∀ start : Int64, 1 ≤ start.toInt →
          mid [v, .integer start, .integer n] = .error (.argument 3 .negativeCount)
  /-- A start before the first character is blamed, whatever the count is. -/
  before : ∀ start n : Int64, start.toInt < 1 →
    mid [v, .integer start, .integer n] = .error (.argument 2 .startBeforeFirst)

section

variable {v : Value} {t : String} {start n m : Int64}

private theorem left_eq (hv : v.toText = .ok t) (hn : 0 ≤ n.toInt) :
    left [v, .integer n] = .ok (.string (String.ofList (takeLeft n.toInt.toNat t.toList))) := by
  rw [left_of_toInteger hv rfl, if_neg (Int.not_lt.mpr hn)]

private theorem right_eq (hv : v.toText = .ok t) (hn : 0 ≤ n.toInt) :
    right [v, .integer n] = .ok (.string (String.ofList (takeRight n.toInt.toNat t.toList))) := by
  rw [right_of_toInteger hv rfl, if_neg (Int.not_lt.mpr hn)]

private theorem mid_eq (hv : v.toText = .ok t) (hstart : 1 ≤ start.toInt) (hn : 0 ≤ n.toInt) :
    mid [v, .integer start, .integer n] = .ok (.string (String.ofList
      (takeMiddle (start.toInt - 1).toNat n.toInt.toNat t.toList))) := by
  rw [mid_of_toInteger hv rfl rfl, if_neg (Int.not_lt.mpr hstart), if_neg (Int.not_lt.mpr hn)]

/-- The functions on parts of a text fit together. -/
theorem parts_fit_together (hv : v.toText = .ok t) : PartsFit v t := by
  have hlength : t.toList.length = t.length := String.length_toList
  constructor
  case length =>
    intro hlt
    refine ⟨_, len_of_toText hv, ?_⟩
    rw [hlength, Int64.toInt_ofNat_of_lt hlt]
  case halves =>
    intro n m hn hle hm
    have hcount : m.toInt.toNat = t.toList.length - n.toInt.toNat := by omega
    refine ⟨_, _, left_eq hv hn, right_eq hv (by omega), ?_⟩
    rw [applyBinary_concat_ofList, hcount, takeLeft_append_takeRight (by omega),
      String.ofList_toList]
  case beyond =>
    intro n hlt
    have hcount : t.toList.length ≤ n.toInt.toNat := by omega
    rw [left_eq hv (by omega), right_eq hv (by omega), takeLeft_of_length_le hcount,
      takeRight_of_length_le hcount, String.ofList_toList]
    exact ⟨rfl, rfl⟩
  case middle =>
    intro start n m hstart hn hm
    have hcount : m.toInt.toNat = t.toList.length - (start.toInt - 1).toNat := by omega
    refine ⟨_, _, right_eq hv (by omega), left_eq (toText_string _) hn, ?_⟩
    rw [mid_eq hv hstart hn, takeMiddle_eq, String.toList_ofList, hcount]
  case middleLength =>
    intro start n hstart hn
    refine ⟨_, _, mid_eq hv hstart hn, len_of_toText (toText_string _), ?_⟩
    have hlt := n.toInt_lt
    rw [String.toList_ofList, length_takeMiddle, Int64.toInt_ofNat_of_lt (by omega)]
    omega
  case adjacent =>
    intro start n m next sum hstart hn hm hnext hsum
    have hskip : (next.toInt - 1).toNat = (start.toInt - 1).toNat + n.toInt.toNat := by omega
    have hcount : sum.toInt.toNat = n.toInt.toNat + m.toInt.toNat := by omega
    refine ⟨_, _, _, mid_eq hv hstart hn, mid_eq hv (by omega) hm,
      mid_eq hv hstart (by omega), ?_⟩
    rw [applyBinary_concat_ofList, hskip, hcount, takeMiddle_append]
  case negative =>
    intro n hn
    refine ⟨?_, ?_, fun start hstart => ?_⟩
    · rw [left_of_toInteger hv rfl, if_pos hn]
    · rw [right_of_toInteger hv rfl, if_pos hn]
    · rw [mid_of_toInteger hv rfl rfl, if_neg (Int.not_lt.mpr hstart), if_pos hn]
  case before =>
    intro start n hstart
    rw [mid_of_toInteger hv rfl rfl, if_pos hstart]

/-- Three characters from the second one on and those from the fifth one on, where one is left, are
the four that there are from the second one on. -/
theorem parts_fit_together_of_accents :
    PartsFit (.string "héñô€") "héñô€" ∧
      ∃ a b c, mid [.string "héñô€", .integer 2, .integer 3] = .ok a ∧
        mid [.string "héñô€", .integer 5, .integer 3] = .ok b ∧
          mid [.string "héñô€", .integer 2, .integer 6] = .ok c ∧
            applyBinary .concat a b = .ok c ∧ c = .string "éñô€" := by
  have hfit : PartsFit (.string "héñô€") "héñô€" := parts_fit_together rfl
  obtain ⟨a, b, c, ha, hb, hc, hjoin⟩ := hfit.adjacent 2 3 3 5 6 (by decide) (by decide)
    (by decide) (by decide) (by decide)
  refine ⟨hfit, a, b, c, ha, hb, hc, hjoin, ?_⟩
  have hmid : mid [.string "héñô€", .integer 2, .integer 6] = .ok (.string "éñô€") := by
    decide +kernel
  exact Except.ok.inj (hc.symm.trans hmid)

end

end TypedFormula
