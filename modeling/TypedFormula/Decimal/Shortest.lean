/-!
# Shortest decimals of binary64 numbers

A positive number `m · 2 ^ q` stands for all reals that round to it, an interval around it. This
module finds the decimal with the fewest digits in that interval, and of those the one nearest to
the number, by comparing the two neighbours of the number on each decimal grid, coarsest first,
in exact natural-number arithmetic. All bounds are counted in quarters of `2 ^ q`, which makes
them integers.

Main statement: `holds_of_nearby?` — a decimal that is chosen lies in the interval.
-/

namespace TypedFormula

/-- The decimal `digits · 10 ^ exponent`. -/
structure Decimal where
  /-- The digits, read as one number. -/
  digits : Nat
  /-- The power of ten. -/
  exponent : Int
deriving DecidableEq

namespace Decimal

/-- The number of decimal digits of a natural number, none for zero. -/
def digitCount (n : Nat) : Nat :=
  if h : n = 0 then 0 else digitCount (n / 10) + 1
termination_by n
decreasing_by omega

/-- Takes trailing zero digits into the power of ten. -/
def strip (d : Decimal) : Decimal :=
  if h : d.digits ≠ 0 ∧ d.digits % 10 = 0 then strip ⟨d.digits / 10, d.exponent + 1⟩ else d
termination_by d.digits
decreasing_by omega

/-! ### The interval -/

/-- Which of two decimals is taken when a number lies half way between them. -/
inductive Tie where
  /-- The larger one. -/
  | up
  /-- The one whose last digit is even. -/
  | even
deriving DecidableEq

/-- The positive binary64 number `m · 2 ^ q`, with `q` the least exponent that `m` allows. -/
structure Binary where
  /-- The significand. -/
  m : Nat
  /-- The power of two. -/
  q : Int

namespace Binary

/-- The number in quarters of `2 ^ q`. -/
def centre (b : Binary) : Nat := 4 * b.m

/-- The upper end of the interval, half way to the next number, in quarters of `2 ^ q`. -/
def upper (b : Binary) : Nat := 4 * b.m + 2

/-- The lower end of the interval in quarters of `2 ^ q`. Below a power of two, whose significand
is `2 ^ 52`, the next number is only half as far away, except among the smallest numbers. -/
def lower (b : Binary) : Nat :=
  if b.m = 4503599627370496 ∧ -1074 < b.q then 4 * b.m - 1 else 4 * b.m - 2

/-- Whether the ends of the interval round to the number as well. -/
def closed (b : Binary) : Bool := b.m % 2 == 0

/-- The factor that brings quarters of `2 ^ q` and the grid `10 ^ g` to one unit, for the
quarters. -/
def binaryFactor (b : Binary) (g : Int) : Nat :=
  Nat.pow 10 (-g).toNat * Nat.pow 2 (b.q - 2).toNat

/-- The factor that brings quarters of `2 ^ q` and the grid `10 ^ g` to one unit, for the grid. -/
def decimalFactor (b : Binary) (g : Int) : Nat :=
  Nat.pow 10 g.toNat * Nat.pow 2 (2 - b.q).toNat

/-- Whether `c · 10 ^ g` lies in the interval. -/
def holds (b : Binary) (g : Int) (c : Nat) : Bool :=
  let x := c * b.decimalFactor g
  let low := b.lower * b.binaryFactor g
  let high := b.upper * b.binaryFactor g
  if b.closed then decide (low ≤ x ∧ x ≤ high) else decide (low < x ∧ x < high)

/-- The power of ten of the leading digit of the number. -/
def leading (b : Binary) : Int :=
  if 0 ≤ b.q then (digitCount (b.m * Nat.pow 2 b.q.toNat) : Int) - 1
  else
    let den := Nat.pow 2 (-b.q).toNat
    if den ≤ b.m then (digitCount (b.m / den) : Int) - 1
    else -(digitCount ((den + b.m - 1) / b.m - 1) : Int)

end Binary

/-! ### The search -/

/-- The multiple of `10 ^ g` just below the number or the one above it, whichever lies in the
interval and is nearer. -/
def nearby? (tie : Tie) (b : Binary) (g : Int) : Option Nat :=
  let x := b.centre * b.binaryFactor g
  let unit := b.decimalFactor g
  let c := x / unit
  match b.holds g c, b.holds g (c + 1) with
  | true, true =>
    if 2 * x < (2 * c + 1) * unit then some c
    else if (2 * c + 1) * unit < 2 * x then some (c + 1)
    else match tie with
      | .up => some (c + 1)
      | .even => some (c + c % 2)
  | true, false => some c
  | false, true => some (c + 1)
  | false, false => none

/-- The first grid, from `10 ^ g` down through `steps` finer ones, with a decimal in the
interval. -/
def search (tie : Tie) (b : Binary) : Nat → Int → Option Decimal
  | 0, _ => none
  | steps + 1, g =>
    match nearby? tie b g with
    | some c => some ⟨c, g⟩
    | none => search tie b steps (g - 1)

/-- The shortest decimal that reads back as `b`, and the nearest of those. Seventeen digits are
always enough. -/
def shortest (tie : Tie) (b : Binary) : Decimal :=
  ((search tie b 17 b.leading).getD ⟨0, 0⟩).strip

/-- A multiple that is chosen lies in the interval. -/
theorem holds_of_nearby? {tie : Tie} {b : Binary} {g : Int} {c : Nat}
    (h : nearby? tie b g = some c) : b.holds g c = true := by
  simp only [nearby?] at h
  generalize hc : b.centre * b.binaryFactor g / b.decimalFactor g = d at h
  cases h0 : b.holds g d <;> cases h1 : b.holds g (d + 1) <;> simp only [h0, h1] at h
  · simp at h
  · rw [← Option.some.inj h]; exact h1
  · rw [← Option.some.inj h]; exact h0
  · split at h
    · rw [← Option.some.inj h]; exact h0
    · split at h
      · rw [← Option.some.inj h]; exact h1
      · cases tie
        · rw [← Option.some.inj h]; exact h1
        · rcases Nat.mod_two_eq_zero_or_one d with hd | hd <;>
            simp only [hd, Option.some.injEq] at h <;> rw [← h]
          · exact h0
          · exact h1

end Decimal

end TypedFormula
