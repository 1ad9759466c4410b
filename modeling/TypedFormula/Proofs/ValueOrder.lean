import Mathlib
import TypedFormula.Value.Order
import TypedFormula.Proofs.Binary64.Arithmetic

/-!
# The order of single values

Every value that is neither a list nor NaN has an order with every other one, and the opposite order
if the two are exchanged (`exists_order`). The order is put together from four ones, though: whole
numbers are compared exactly, all other numbers and truth values by their place among the rational
numbers, texts as texts, and texts with anything else by kind. Where two of these meet, the order
need not be transitive, and it fails in two ways only (`order_laws`).

* Whole numbers are rounded when they are compared with other numbers, but not when they are
  compared with one another. Two different ones can be equal to the same number (`Blurred`). It has
  to be a number in between, since the truth values are too small for rounding to matter.
* Truth values are above all texts and texts above all numbers, but truth values and numbers are
  compared as `1` and `0`. A number, a text and a truth value can go round in a circle (`Cyclic`).

Main statements:

* `Binary64.order_eq_compare` — numbers that are not NaN are ordered by their places;
* `Value.exists_order`, `Value.order_self` — the order of two values;
* `Value.order_laws` — exactly when the order, and when equality, is not transitive.
-/

namespace TypedFormula

open Float.Model Float.Model.UnpackedFloat

namespace Binary64

variable {x y : Float}

/-- The place of a number among the rational ones; the infinities are just beyond the largest
number. -/
def place (x : Float) : ℚ :=
  match x.toModel.unpack with
  | .infinity s => withSign s (largest + 1)
  | u => (ratOf? u).getD 0

private theorem place_of_toRat? {q : ℚ} (h : toRat? x = some q) : place x = q := by
  rw [place]
  rw [toRat?] at h
  cases hx : x.toModel.unpack with
  | infinity s =>
    rw [hx] at h
    cases h
  | _ =>
    rw [hx] at h
    simp only [h, Option.getD_some]

/-- What is not NaN is an infinity or has an exact value. -/
private theorem infinity_or_exists_toRat? (h : x.isNaN = false) :
    (∃ s, x.toModel.unpack = .infinity s) ∨ ∃ q, toRat? x = some q := by
  rw [Float.isNaN, Float.Model.isNaN] at h
  rw [toRat?]
  cases hx : x.toModel.unpack with
  | infinity s => exact .inl ⟨s, rfl⟩
  | notANumber =>
    rw [hx] at h
    cases h
  | zero s => exact .inr ⟨_, rfl⟩
  | finite s m e hm => exact .inr ⟨_, rfl⟩

/-- An infinity is beyond every finite number. -/
private theorem compare_infinity {s : Sign} {q : ℚ} (hy : toRat? y = some q) :
    (UnpackedFloat.infinity s).compare y.toModel.unpack =
        some (compare (withSign s (largest + 1)) q) ∧
      y.toModel.unpack.compare (.infinity s) =
        some (compare q (withSign s (largest + 1))) := by
  obtain ⟨hlow, hhigh⟩ := abs_le.mp (representable_of_toRat? hy).2
  cases s with
  | positive =>
    rw [withSign, compare_gt_iff_gt.mpr (by linarith), compare_lt_iff_lt.mpr (by linarith)]
    obtain ⟨t, huy, -⟩ | ⟨t, n, f, hn, huy, -⟩ := exists_unpack_of_toRat? hy
    · rw [huy]
      exact ⟨rfl, rfl⟩
    · rw [huy]
      cases t <;> exact ⟨rfl, rfl⟩
  | negative =>
    rw [withSign, compare_lt_iff_lt.mpr (by linarith), compare_gt_iff_gt.mpr (by linarith)]
    obtain ⟨t, huy, -⟩ | ⟨t, n, f, hn, huy, -⟩ := exists_unpack_of_toRat? hy
    · rw [huy]
      exact ⟨rfl, rfl⟩
    · rw [huy]
      cases t <;> exact ⟨rfl, rfl⟩

/-- Numbers that are not NaN are ordered by their places. -/
theorem order_eq_compare (hx : x.isNaN = false) (hy : y.isNaN = false) :
    order x y = some (compare (place x) (place y)) := by
  have hplace : ∀ {z : Float} {s : Sign}, z.toModel.unpack = .infinity s →
      place z = withSign s (largest + 1) := by
    intro z s hz
    rw [place, hz]
  change x.toModel.unpack.compare y.toModel.unpack = _
  obtain ⟨s, hux⟩ | ⟨p, hp⟩ := infinity_or_exists_toRat? hx
  · obtain ⟨t, huy⟩ | ⟨q, hq⟩ := infinity_or_exists_toRat? hy
    · have hpos : -(largest + 1) < largest + 1 := by linarith [largest_pos]
      rw [hux, huy, hplace hux, hplace huy]
      cases s <;> cases t <;> simp only [withSign]
      · rw [compare_eq_iff_eq.mpr rfl]
        rfl
      · rw [compare_lt_iff_lt.mpr hpos]
        rfl
      · rw [compare_gt_iff_gt.mpr hpos]
        rfl
      · rw [compare_eq_iff_eq.mpr rfl]
        rfl
    · rw [hux, hplace hux, place_of_toRat? hq, (compare_infinity hq).1]
  · obtain ⟨t, huy⟩ | ⟨q, hq⟩ := infinity_or_exists_toRat? hy
    · rw [huy, hplace huy, place_of_toRat? hp, (compare_infinity hp).2]
    · rw [place_of_toRat? hp, place_of_toRat? hq, compare_unpack hp hq]

/-- NaN has no order. -/
private theorem order_of_isNaN (h : x.isNaN = true ∨ y.isNaN = true) : order x y = none := by
  have hnan : ∀ {z : Float}, z.isNaN = true → z.toModel.unpack = .notANumber := by
    intro z hz
    rw [Float.isNaN, Float.Model.isNaN] at hz
    cases hu : z.toModel.unpack with
    | notANumber => rfl
    | _ => rw [hu] at hz; cases hz
  change x.toModel.unpack.compare y.toModel.unpack = none
  obtain hx | hy := h
  · rw [hnan hx]
    rfl
  · rw [hnan hy]
    cases x.toModel.unpack <;> rfl

private theorem place_ofInt {n : ℤ} (h : |n| ≤ 2 ^ 63) :
    (ofInt n).isNaN = false ∧ place (ofInt n) = rounded n := by
  have hn : |(n : ℚ)| ≤ 2 ^ (63 : ℤ) := by exact_mod_cast h
  have hle : |rounded n| ≤ largest := by
    refine (abs_rounded_le (representable_two_zpow (by decide)) hn).trans ?_
    calc (2 : ℚ) ^ (63 : ℤ) ≤ 2 ^ (971 : ℤ) := zpow_le_zpow_right₀ (by norm_num) (by decide)
      _ ≤ largest := le_mul_of_one_le_left (by positivity) (by norm_num)
  have hvalue : toRat? (ofInt n) = some (rounded n) :=
    (toRat?_ofInt n).trans (inRange?_eq_some_iff.mpr ⟨hle, rfl⟩)
  refine ⟨isNaN_of_isFinite ?_, place_of_toRat? hvalue⟩
  rw [isFinite_eq_isSome_toRat?, hvalue]
  rfl

/-- Of all integers only an integer of 53 digits itself is rounded to it. -/
private theorem eq_of_rounded_eq {m n : ℤ} (h : rounded m = n) (hn : |n| < 2 ^ 53) : m = n := by
  rw [abs_lt] at hn
  obtain hlt | heq | hgt := lt_trichotomy m n
  · have hle : (m : ℚ) ≤ (n - 1 : ℤ) := by exact_mod_cast Int.le_sub_one_of_lt hlt
    have hrounded := rounded_le (representable_intCast (by rw [abs_le]; omega)) hle
    rw [h] at hrounded
    have : n ≤ n - 1 := by exact_mod_cast hrounded
    omega
  · exact heq
  · have hle : ((n + 1 : ℤ) : ℚ) ≤ m := by exact_mod_cast Int.add_one_le_of_lt hgt
    have hrounded := le_rounded (representable_intCast (by rw [abs_le]; omega)) hle
    rw [h] at hrounded
    have : n + 1 ≤ n := by exact_mod_cast hrounded
    omega

end Binary64

namespace Value

variable {u v w : Value}

/-! ### Places -/

/-- Whether a value is NaN. -/
def isNaN : Value → Bool
  | float x => x.isNaN
  | _ => false

/-- Whether a value is a whole or another number. -/
def isNumber : Value → Bool
  | float _ | integer _ => true
  | _ => false

/-- Neither a list nor NaN. -/
def Comparable (v : Value) : Prop := v.isList = false ∧ v.isNaN = false

/-- The place of a value that is neither a text nor a list among the rational numbers. -/
def place : Value → ℚ
  | float x => Binary64.place x.value
  | integer n => Binary64.rounded n.toInt
  | boolean b => if b then 1 else 0
  | _ => 0

/-- Whether a value is ordered by a number, and this number is not NaN. -/
private def Ranked (v : Value) : Prop := v.rankNumber?.isSome = true ∧ v.isNaN = false

/-- The number by which a value is ordered is at the place of the value. -/
private theorem Ranked.exists_rankNumber? (h : v.Ranked) :
    ∃ x, v.rankNumber? = some x ∧ x.isNaN = false ∧ Binary64.place x = v.place := by
  obtain ⟨hsome, hnan⟩ := h
  cases v with
  | float x => exact ⟨_, rfl, hnan, rfl⟩
  | integer n =>
    have hn : |n.toInt| ≤ 2 ^ 63 := by
      have hlow := n.le_toInt
      have hhigh := n.toInt_lt
      rw [abs_le]
      omega
    obtain ⟨hnan, hplace⟩ := Binary64.place_ofInt hn
    exact ⟨_, rfl, hnan, hplace⟩
  | boolean b =>
    cases b with
    | false => exact ⟨0, rfl, by decide, Binary64.place_of_toRat? rfl⟩
    | true => exact ⟨1, rfl, by decide, Binary64.place_of_toRat? (by decide +kernel)⟩
  | _ => cases hsome

private theorem orderByRank_eq (hv : v.Ranked) (hw : w.Ranked) :
    orderByRank v w = some (compare v.place w.place) := by
  obtain ⟨x, hx, hxnan, hxplace⟩ := hv.exists_rankNumber?
  obtain ⟨y, hy, hynan, hyplace⟩ := hw.exists_rankNumber?
  rw [orderByRank, hx, hy, ← hxplace, ← hyplace]
  exact Binary64.order_eq_compare hxnan hynan

/-! ### Pairs of kinds -/

section

variable {m n : Int64} {s t : String}

@[simp] theorem order_integer_integer :
    (integer m).order (integer n) = some (compare m.toInt n.toInt) := rfl

@[simp] theorem order_string_string : (string s).order (string t) = some (compare s t) := rfl

end

/-- Values with numbers are ordered by these numbers, unless both are whole numbers. -/
private theorem order_eq_orderByRank (hv : v.rankNumber?.isSome = true)
    (hw : w.rankNumber?.isSome = true) (h : v.kind = .integer → w.kind ≠ .integer) :
    v.order w = orderByRank v w := by
  cases v with
  | list items => cases hv
  | string s => cases hv
  | integer m =>
    cases w with
    | list items => cases hw
    | string t => cases hw
    | integer n => exact absurd rfl (h rfl)
    | _ => rfl
  | _ =>
    cases w with
    | list items => cases hw
    | string t => cases hw
    | _ => rfl

/-- Values with numbers are ordered by their places, unless both are whole numbers. -/
private theorem order_of_ranked (hv : v.Ranked) (hw : w.Ranked)
    (h : v.kind = .integer → w.kind ≠ .integer) : v.order w = some (compare v.place w.place) := by
  rw [order_eq_orderByRank hv.1 hw.1 h, orderByRank_eq hv hw]

/-- What is NaN is a number, which is NaN. -/
private theorem exists_float_of_isNaN (h : v.isNaN = true) : ∃ x, v = float x ∧ x.isNaN = true := by
  cases v with
  | float x => exact ⟨x, rfl, h⟩
  | _ => cases h

/-- Values with numbers have no order if one of them is NaN. -/
theorem order_of_isNaN (hv : v.rankNumber?.isSome = true) (hw : w.rankNumber?.isSome = true)
    (h : v.isNaN = true ∨ w.isNaN = true) : v.order w = none := by
  obtain ⟨x, hx⟩ := Option.isSome_iff_exists.mp hv
  obtain ⟨y, hy⟩ := Option.isSome_iff_exists.mp hw
  obtain h | h := h
  · obtain ⟨z, rfl, hz⟩ := exists_float_of_isNaN h
    rw [order_eq_orderByRank hv hw (fun h => by cases h), orderByRank, hy]
    exact Binary64.order_of_isNaN (.inl hz)
  · obtain ⟨z, rfl, hz⟩ := exists_float_of_isNaN h
    rw [order_eq_orderByRank hv hw (fun _ h => by cases h), orderByRank, hx]
    exact Binary64.order_of_isNaN (.inr hz)

/-- A value that is not NaN and not a list is a text or has a number. -/
private theorem Comparable.ranked_or_string (h : v.Comparable) : v.Ranked ∨ ∃ s, v = string s := by
  obtain ⟨hlist, hnan⟩ := h
  cases v with
  | list items => cases hlist
  | string s => exact .inr ⟨s, rfl⟩
  | _ => exact .inl ⟨rfl, hnan⟩

/-- A number that is not NaN is ordered by itself. -/
private theorem Comparable.ranked (h : v.Comparable) (hnumber : v.isNumber = true) : v.Ranked := by
  obtain hv | ⟨s, rfl⟩ := h.ranked_or_string
  · exact hv
  · cases hnumber

/-- What is not ordered by places are two whole numbers. -/
private theorem exists_integers (h : ¬ (v.kind = .integer → w.kind ≠ .integer)) :
    ∃ m, v = integer m ∧ ∃ n, w = integer n := by
  rw [Classical.not_imp, ne_eq, not_not] at h
  obtain ⟨hv, hw⟩ := h
  cases v with
  | integer m =>
    cases w with
    | integer n => exact ⟨m, rfl, n, rfl⟩
    | _ => cases hw
  | _ => cases hv

/-- Two values that are not NaN and not lists have an order, and the opposite one when they are
exchanged. -/
theorem exists_order (hv : v.Comparable) (hw : w.Comparable) :
    ∃ o, v.order w = some o ∧ w.order v = some o.swap := by
  obtain hv | ⟨s, rfl⟩ := hv.ranked_or_string
  · obtain hw | ⟨t, rfl⟩ := hw.ranked_or_string
    · by_cases hintegers : v.kind = .integer → w.kind ≠ .integer
      · refine ⟨_, order_of_ranked hv hw hintegers, ?_⟩
        rw [order_of_ranked hw hv fun hw hv => hintegers hv hw]
        exact congrArg some Std.OrientedCmp.eq_swap
      · obtain ⟨m, rfl, n, rfl⟩ := exists_integers hintegers
        exact ⟨_, rfl, congrArg some Std.OrientedCmp.eq_swap⟩
    · cases v with
      | list items => exact absurd hv.1 Bool.false_ne_true
      | string s => exact absurd hv.1 Bool.false_ne_true
      | _ => exact ⟨_, rfl, rfl⟩
  · cases w with
    | list items => cases hw.1
    | string t => exact ⟨_, rfl, congrArg some Std.OrientedCmp.eq_swap⟩
    | _ => exact ⟨_, rfl, rfl⟩

/-- Every value that is not NaN and not a list is equal to itself. -/
theorem order_self (hv : v.Comparable) : v.order v = some .eq := by
  obtain ⟨o, ho, hswap⟩ := exists_order hv hv
  rw [ho, Option.some_inj] at hswap
  cases o with
  | eq => exact ho
  | _ => cases hswap

/-! ### Three values -/

/-- A value is smaller than another one or equal. -/
def AtMost (v w : Value) : Prop := ∃ o, v.order w = some o ∧ o.isLE = true

/-- Two different whole numbers and, in between, a number to which both are rounded. -/
inductive Blurred : Value → Value → Value → Prop
  /-- Equality leads from one whole number to the other one by way of the number. -/
  | between {m n : Int64} {x : Number} : m ≠ n → (integer m).place = (float x).place →
      (float x).place = (integer n).place → Blurred (integer m) (float x) (integer n)

/-- Three values in a circle: a text is below a truth value, the truth value is at most a number,
and the number is below the text. -/
inductive Cyclic : Value → Value → Value → Prop
  /-- Beginning with the text. -/
  | fromText {s : String} {b : Bool} {x : Value} : x.isNumber = true →
      (boolean b).place ≤ x.place → Cyclic (string s) (boolean b) x
  /-- Beginning with the truth value. -/
  | fromBoolean {s : String} {b : Bool} {x : Value} : x.isNumber = true →
      (boolean b).place ≤ x.place → Cyclic (boolean b) x (string s)
  /-- Beginning with the number, which must not equal the truth value. -/
  | fromNumber {s : String} {b : Bool} {x : Value} : x.isNumber = true →
      (boolean b).place < x.place → Cyclic x (string s) (boolean b)

private theorem atMost_iff {o : Ordering} (h : v.order w = some o) :
    AtMost v w ↔ o.isLE = true := by
  rw [AtMost, h]
  simp only [Option.some_inj, exists_eq_left']

/-- Values with numbers are compared by their places, unless both are whole numbers. -/
private theorem atMost_iff_place_le (hv : v.Ranked) (hw : w.Ranked)
    (h : v.kind = .integer → w.kind ≠ .integer) : AtMost v w ↔ v.place ≤ w.place := by
  rw [atMost_iff (order_of_ranked hv hw h), ← compare_le_iff_le]
  cases compare v.place w.place <;> decide

private theorem atMost_integer {m n : Int64} :
    AtMost (integer m) (integer n) ↔ m.toInt ≤ n.toInt := by
  rw [atMost_iff order_integer_integer, ← compare_le_iff_le]
  cases compare m.toInt n.toInt <;> decide

/-- The numbers, and no truth values, are below the texts. -/
private theorem atMost_string_right {s : String} (hv : v.Ranked) :
    AtMost v (string s) ↔ v.isNumber = true := by
  cases v with
  | list items => exact absurd hv.1 Bool.false_ne_true
  | string t => exact absurd hv.1 Bool.false_ne_true
  | _ =>
    rw [atMost_iff rfl]
    simp [isNumber]

/-- The truth values, and no numbers, are above the texts. -/
private theorem atMost_string_left {s : String} (hv : v.Ranked) :
    AtMost (string s) v ↔ v.isNumber = false := by
  cases v with
  | list items => exact absurd hv.1 Bool.false_ne_true
  | string t => exact absurd hv.1 Bool.false_ne_true
  | _ =>
    rw [atMost_iff rfl]
    simp [isNumber]

/-- What is ordered by a number and is no number is a truth value. -/
private theorem exists_boolean (hv : v.Ranked) (h : v.isNumber = false) : ∃ b, v = boolean b := by
  cases v with
  | boolean b => exact ⟨b, rfl⟩
  | list items => exact absurd hv.1 Bool.false_ne_true
  | string t => exact absurd hv.1 Bool.false_ne_true
  | _ => cases h

private theorem place_le_of_atMost (hv : v.Ranked) (hw : w.Ranked) (h : AtMost v w) :
    v.place ≤ w.place := by
  by_cases hintegers : v.kind = .integer → w.kind ≠ .integer
  · exact (atMost_iff_place_le hv hw hintegers).mp h
  · obtain ⟨m, rfl, n, rfl⟩ := exists_integers hintegers
    have hle : (m.toInt : ℚ) ≤ n.toInt := by exact_mod_cast atMost_integer.mp h
    exact Binary64.rounded_mono hle

private theorem integer_eq_of_place_boolean {m : Int64} {b : Bool}
    (h : (integer m).place = (boolean b).place) : m.toInt = if b then 1 else 0 := by
  refine Binary64.eq_of_rounded_eq (h.trans ?_) ?_
  · cases b <;> simp [place]
  · cases b <;> decide

/-- If a whole number is at most a value and the value at most a smaller whole number, then both are
rounded to the value, which is no truth value. -/
private theorem blurred_of_atMost {m n : Int64} (hv : v.Ranked) (hmv : AtMost (integer m) v)
    (hvn : AtMost v (integer n)) (h : n.toInt < m.toInt) : Blurred (integer m) v (integer n) := by
  have hmn : (integer n).place ≤ (integer m).place := by
    have : (n.toInt : ℚ) ≤ m.toInt := by exact_mod_cast h.le
    exact Binary64.rounded_mono this
  have hm := place_le_of_atMost ⟨rfl, rfl⟩ hv hmv
  have hn := place_le_of_atMost hv ⟨rfl, rfl⟩ hvn
  have hleft : (integer m).place = v.place := le_antisymm hm (hn.trans hmn)
  have hright : v.place = (integer n).place := le_antisymm hn (hmn.trans hm)
  cases v with
  | list items => exact absurd hv.1 Bool.false_ne_true
  | string s => exact absurd hv.1 Bool.false_ne_true
  | integer k =>
    have hmk := atMost_integer.mp hmv
    have hkn := atMost_integer.mp hvn
    omega
  | boolean b =>
    have hm := integer_eq_of_place_boolean hleft
    have hn := integer_eq_of_place_boolean hright.symm
    omega
  | float x => exact .between (by rintro rfl; exact h.false) hleft hright

/-- Where the order is not transitive, there is a number between two whole numbers that are rounded
to it, or there are a number, a text and a truth value. -/
private theorem blurred_or_cyclic (hu : u.Comparable) (hv : v.Comparable) (hw : w.Comparable)
    (huv : AtMost u v) (hvw : AtMost v w) (huw : ¬ AtMost u w) :
    (Blurred u v w ∧ w.order u = some .lt) ∨ Cyclic u v w := by
  obtain hu | ⟨s, rfl⟩ := hu.ranked_or_string
  · obtain hv | ⟨t, rfl⟩ := hv.ranked_or_string
    · obtain hw | ⟨t, rfl⟩ := hw.ranked_or_string
      · -- The places are ordered transitively, so that only whole numbers can be at fault.
        have hintegers : ¬ (u.kind = .integer → w.kind ≠ .integer) :=
          fun h => huw ((atMost_iff_place_le hu hw h).mpr
            ((place_le_of_atMost hu hv huv).trans (place_le_of_atMost hv hw hvw)))
        obtain ⟨m, rfl, n, rfl⟩ := exists_integers hintegers
        have hlt : n.toInt < m.toInt := not_le.mp fun hle => huw (atMost_integer.mpr hle)
        refine .inl ⟨blurred_of_atMost hv huv hvw hlt, ?_⟩
        rw [order_integer_integer, compare_lt_iff_lt.mpr hlt]
      · have hnumber := (atMost_string_right hv).mp hvw
        obtain ⟨b, rfl⟩ := exists_boolean hu
          (Bool.eq_false_iff.mpr (mt (atMost_string_right hu).mpr huw))
        exact .inr (.fromBoolean hnumber (place_le_of_atMost hu hv huv))
    · have hnumber := (atMost_string_right hu).mp huv
      obtain hw | ⟨t', rfl⟩ := hw.ranked_or_string
      · obtain ⟨b, rfl⟩ := exists_boolean hw ((atMost_string_left hw).mp hvw)
        rw [atMost_iff_place_le hu hw (fun _ h => by cases h), not_le] at huw
        exact .inr (.fromNumber hnumber huw)
      · exact absurd ((atMost_string_right hu).mpr hnumber) huw
  · obtain hv | ⟨t, rfl⟩ := hv.ranked_or_string
    · obtain ⟨b, rfl⟩ := exists_boolean hv ((atMost_string_left hv).mp huv)
      obtain hw | ⟨t, rfl⟩ := hw.ranked_or_string
      · have hnumber := mt (atMost_string_left (s := s) hw).mpr huw
        exact .inr (.fromText (Bool.eq_true_of_not_eq_false hnumber)
          (place_le_of_atMost hv hw hvw))
      · exact absurd ((atMost_string_right hv).mp hvw) Bool.false_ne_true
    · obtain hw | ⟨t', rfl⟩ := hw.ranked_or_string
      · exact absurd ((atMost_string_left hw).mpr ((atMost_string_left hw).mp hvw)) huw
      · rw [atMost_iff order_string_string] at huv hvw huw
        exact absurd (Std.TransCmp.isLE_trans huv hvw) huw

/-- A number is equal to both whole numbers that are rounded to it, which are different. -/
private theorem Blurred.order_eq (h : Blurred u v w) (hv : v.isNaN = false) :
    u.order v = some .eq ∧ v.order w = some .eq ∧ u.order w ≠ some .eq := by
  obtain ⟨hne, hleft, hright⟩ := h
  refine ⟨?_, ?_, ?_⟩
  · rw [order_of_ranked ⟨rfl, rfl⟩ ⟨rfl, hv⟩ (fun _ h => by cases h), hleft,
      compare_eq_iff_eq.mpr rfl]
  · rw [order_of_ranked ⟨rfl, hv⟩ ⟨rfl, rfl⟩ (fun h => by cases h), hright,
      compare_eq_iff_eq.mpr rfl]
  · rw [order_integer_integer, ne_eq, Option.some_inj, compare_eq_iff_eq, Int64.toInt_inj]
    exact hne

/-- Each one of three values in cyclic order is at most the next one, but the first one is not at
most the last one. -/
private theorem Cyclic.atMost (h : Cyclic u v w) (hu : u.Comparable) (hv : v.Comparable)
    (hw : w.Comparable) : AtMost u v ∧ AtMost v w ∧ ¬ AtMost u w := by
  have hboolean : ∀ {b}, (boolean b).Ranked := ⟨rfl, rfl⟩
  cases h with
  | fromText hnumber hle =>
    have hw := hw.ranked hnumber
    refine ⟨(atMost_string_left hboolean).mpr rfl,
      (atMost_iff_place_le hboolean hw fun h => by cases h).mpr hle, ?_⟩
    rw [atMost_string_left hw, hnumber]
    exact Bool.noConfusion
  | fromBoolean hnumber hle =>
    have hv := hv.ranked hnumber
    refine ⟨(atMost_iff_place_le hboolean hv fun h => by cases h).mpr hle,
      (atMost_string_right hv).mpr hnumber, ?_⟩
    rw [atMost_string_right hboolean]
    exact Bool.noConfusion
  | fromNumber hnumber hlt =>
    have hu := hu.ranked hnumber
    refine ⟨(atMost_string_right hu).mpr hnumber, (atMost_string_left hboolean).mpr rfl, ?_⟩
    rw [atMost_iff_place_le hu hboolean (fun _ h => by cases h)]
    exact hlt.not_ge

private theorem order_eq_iff_atMost (hv : v.Comparable) (hw : w.Comparable) :
    v.order w = some .eq ↔ AtMost v w ∧ AtMost w v := by
  obtain ⟨o, ho, hswap⟩ := exists_order hv hw
  rw [atMost_iff ho, atMost_iff hswap, ho]
  cases o <;> decide

private theorem Cyclic.not_atMost (h : Cyclic u v w) (hu : u.Comparable) (hv : v.Comparable) :
    ¬ (AtMost v u ∧ AtMost w v) := by
  rintro ⟨hvu, hwv⟩
  cases h with
  | fromText hnumber hle =>
    exact absurd ((atMost_string_right ⟨rfl, rfl⟩).mp hvu) Bool.false_ne_true
  | fromBoolean hnumber hle =>
    rw [atMost_string_left (hv.ranked hnumber), hnumber] at hwv
    cases hwv
  | fromNumber hnumber hlt =>
    rw [atMost_string_left (hu.ranked hnumber), hnumber] at hvu
    cases hvu

private theorem Blurred.symm (h : Blurred u v w) : Blurred w v u := by
  obtain ⟨hne, hleft, hright⟩ := h
  exact .between hne.symm hright.symm hleft.symm

/-- Where equality is not transitive, there is a number between two whole numbers that are rounded
to it. -/
private theorem blurred_of_order_eq (hu : u.Comparable) (hv : v.Comparable) (hw : w.Comparable)
    (huv : u.order v = some .eq) (hvw : v.order w = some .eq) (huw : u.order w ≠ some .eq) :
    Blurred u v w := by
  obtain ⟨huv, hvu⟩ := (order_eq_iff_atMost hu hv).mp huv
  obtain ⟨hvw, hwv⟩ := (order_eq_iff_atMost hv hw).mp hvw
  by_cases hle : AtMost u w
  · have hnot : ¬ AtMost w u := fun hwu => huw ((order_eq_iff_atMost hu hw).mpr ⟨hle, hwu⟩)
    obtain ⟨hblurred, -⟩ | hcyclic := blurred_or_cyclic hw hv hu hwv hvu hnot
    · exact hblurred.symm
    · exact absurd ⟨hvw, huv⟩ (hcyclic.not_atMost hw hv)
  · obtain ⟨hblurred, -⟩ | hcyclic := blurred_or_cyclic hu hv hw huv hvw hle
    · exact hblurred
    · exact absurd ⟨hvu, hwv⟩ (hcyclic.not_atMost hu hv)

/-- Values that are not NaN and not lists always have an order, which is the opposite one when they
are exchanged. It is transitive, but for three values of which the one between two different whole
numbers is a number to which both are rounded, and for a number, a text and a truth value. The
latter are no exception for equality. -/
theorem order_laws (hu : u.Comparable) (hv : v.Comparable) (hw : w.Comparable) :
    (∃ o, u.order v = some o ∧ v.order u = some o.swap) ∧
      (AtMost u v ∧ AtMost v w ∧ ¬ AtMost u w ↔
        (Blurred u v w ∧ w.order u = some .lt) ∨ Cyclic u v w) ∧
      (u.order v = some .eq ∧ v.order w = some .eq ∧ u.order w ≠ some .eq ↔ Blurred u v w) := by
  refine ⟨exists_order hu hv, ⟨fun ⟨huv, hvw, huw⟩ => ?_, ?_⟩, fun ⟨huv, hvw, huw⟩ => ?_, ?_⟩
  · exact blurred_or_cyclic hu hv hw huv hvw huw
  · rintro (⟨hblurred, hlt⟩ | hcyclic)
    · obtain ⟨huv, hvw, -⟩ := hblurred.order_eq hv.2
      obtain ⟨o, ho, hswap⟩ := exists_order hw hu
      rw [hlt, Option.some_inj] at ho
      rw [atMost_iff huv, atMost_iff hvw, atMost_iff hswap, ← ho]
      decide
    · exact hcyclic.atMost hu hv hw
  · exact blurred_of_order_eq hu hv hw huv hvw huw
  · exact fun hblurred => hblurred.order_eq hv.2

/-- The whole numbers 2⁵³ + 1 and 2⁵³ with the number 2⁵³ in between, to which both are rounded. -/
theorem order_laws_of_large :
    (integer 9007199254740993).Comparable ∧ (float (.plain 9007199254740992)).Comparable ∧
      (integer 9007199254740992).Comparable ∧
      Blurred (integer 9007199254740993) (float (.plain 9007199254740992))
        (integer 9007199254740992) ∧
      AtMost (integer 9007199254740993) (float (.plain 9007199254740992)) ∧
      AtMost (float (.plain 9007199254740992)) (integer 9007199254740992) ∧
      ¬ AtMost (integer 9007199254740993) (integer 9007199254740992) := by
  have hu : (integer 9007199254740993).Comparable := ⟨rfl, rfl⟩
  have hv : (float (.plain 9007199254740992)).Comparable := ⟨rfl, by decide +kernel⟩
  have hw : (integer 9007199254740992).Comparable := ⟨rfl, rfl⟩
  obtain ⟨-, hle, heq⟩ := order_laws hu hv hw
  have hblurred : Blurred (integer 9007199254740993) (float (.plain 9007199254740992))
      (integer 9007199254740992) :=
    heq.mp (by decide +kernel)
  exact ⟨hu, hv, hw, hblurred, hle.mpr (.inl ⟨hblurred, by decide⟩)⟩

/-- A truth value is at most 1, which is below a text, which is below the truth value. Two different
whole numbers are equal to the same number. -/
theorem order_of_exceptions :
    (boolean true).order (integer 1) = some .eq ∧
      (integer 1).order (string "a") = some .lt ∧
      (boolean true).order (string "a") = some .gt ∧
      (integer 9007199254740993).order (float (.plain 9007199254740992)) = some .eq ∧
      (float (.plain 9007199254740992)).order (integer 9007199254740992) = some .eq ∧
      (integer 9007199254740993).order (integer 9007199254740992) = some .gt := by
  decide +kernel

end Value

end TypedFormula
