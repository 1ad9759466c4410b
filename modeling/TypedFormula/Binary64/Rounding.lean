/-!
# Rounding binary64 numbers to integers

A finite binary64 number is `± m · 2 ^ e` for naturals `m` and integers `e`. This module rounds
it to an integer in exact natural-number arithmetic, in one of four directions, and gives the
result either as an `Int` (`toInt?`) or as a number again (`integral`).

Main statements:

* `Rounding.magnitude_of_dvd` — a magnitude that is an integer already is kept in every direction;
* `Rounding.magnitude_le` — the result is no larger than the integer above the magnitude.
-/

namespace TypedFormula.Binary64

open Float.Model Float.Model.UnpackedFloat

/-! ### Directions -/

/-- The direction in which a number is rounded to an integer. -/
inductive Rounding where
  /-- To the integer below. -/
  | down
  /-- To the integer on the side of zero. -/
  | towardZero
  /-- To the nearest integer, a tie away from zero. -/
  | halfAway
  /-- To the nearest integer, a tie to the even one. -/
  | halfEven
deriving DecidableEq

namespace Rounding

/-- The integer magnitude for `m / 2 ^ k`, the magnitude of a negative number if `negative`. -/
def magnitude (direction : Rounding) (negative : Bool) (m k : Nat) : Nat :=
  let whole := m / Nat.pow 2 k
  let part := m % Nat.pow 2 k
  match direction with
  | down => if negative && part != 0 then whole + 1 else whole
  | towardZero => whole
  | halfAway => if 2 * part < Nat.pow 2 k then whole else whole + 1
  | halfEven =>
    if 2 * part < Nat.pow 2 k then whole
    else if Nat.pow 2 k < 2 * part then whole + 1
    else whole + whole % 2

/-- A magnitude that is an integer already is kept. -/
theorem magnitude_of_dvd (direction : Rounding) (negative : Bool) {m k : Nat}
    (h : Nat.pow 2 k ∣ m) : direction.magnitude negative m k = m / Nat.pow 2 k := by
  have hpart : m % Nat.pow 2 k = 0 := Nat.mod_eq_zero_of_dvd h
  have hpos : 0 < Nat.pow 2 k := Nat.two_pow_pos k
  cases direction <;> simp [magnitude, hpart, hpos, -Nat.pow_eq]

/-- The result is at most the integer above the magnitude. -/
theorem magnitude_le (direction : Rounding) (negative : Bool) (m k : Nat) :
    direction.magnitude negative m k ≤ m / Nat.pow 2 k + 1 := by
  cases direction <;> simp only [magnitude] <;> repeat' split
  all_goals omega

end Rounding

/-! ### Integers as numbers -/

/-- The number nearest to a natural number. -/
def ofNat (n : Nat) : Float := .ofModel (.ofNat n)

/-- The number nearest to an integer. -/
def ofInt (n : Int) : Float := .ofModel (.ofInt n)

/-- The number of a magnitude with a sign, which zero keeps as well. -/
def ofMagnitude (sign : Sign) (n : Nat) : Float :=
  match sign with
  | .negative => -ofNat n
  | .positive => ofNat n

/-! ### Numbers as integers -/

/-- The magnitude of `m · 2 ^ e` rounded to an integer. -/
def roundedMagnitude (direction : Rounding) (sign : Sign) (m : Nat) (e : Int) : Nat :=
  if 0 ≤ e then m * Nat.pow 2 e.toNat else direction.magnitude (sign == .negative) m (-e).toNat

/-- The integer that a finite number rounds to; infinities and NaN have none. -/
def toInt? (direction : Rounding) (x : Float) : Option Int :=
  match x.toModel.unpack with
  | .zero _ => some 0
  | .finite sign m e _ => some (sign.apply (roundedMagnitude direction sign m e))
  | .infinity _ | .notANumber => none

/-- The integer that a number is equal to, if it has no fraction. -/
def exactInt? (x : Float) : Option Int :=
  match x.toModel.unpack with
  | .zero _ => some 0
  | .finite sign m e _ =>
    if 0 ≤ e then some (sign.apply (m * Nat.pow 2 e.toNat : Nat))
    else if m % Nat.pow 2 (-e).toNat = 0 then some (sign.apply (m / Nat.pow 2 (-e).toNat : Nat))
    else none
  | .infinity _ | .notANumber => none

/-- A number rounded to an integral number. Numbers without a fraction, infinities and NaN stay
as they are, and a result of zero keeps the sign. -/
def integral (direction : Rounding) (x : Float) : Float :=
  match x.toModel.unpack with
  | .finite sign m e _ =>
    if 0 ≤ e then x else ofMagnitude sign (direction.magnitude (sign == .negative) m (-e).toNat)
  | .zero _ | .infinity _ | .notANumber => x

end TypedFormula.Binary64
