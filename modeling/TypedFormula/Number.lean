import TypedFormula.Binary64.Order

/-!
# Numbers of formulas

A number is a binary64 number together with the sign of NaN. The sign shows in sorting alone, where
a negative NaN comes before all other numbers and a positive one behind them; every other question
about a number is one about its `value`. A calculation hands a NaN through with its sign, and a NaN
that arises from other numbers is negative.

Main statements: `sorted_perm`, `sorted_pairwise` — sorting keeps the numbers and brings them into
order.
-/

namespace TypedFormula

/-- A number of a formula. -/
inductive Number where
  /-- A binary64 number; if it is NaN, then the positive one. -/
  | plain (x : Float)
  /-- The negative NaN. -/
  | negativeNaN
deriving DecidableEq

namespace Number

/-- The binary64 number, which knows no sign of NaN. -/
def value : Number → Float
  | plain x => x
  | negativeNaN => 0 / 0

/-- Whether a number is NaN, of either sign. -/
def isNaN (x : Number) : Bool := x.value.isNaN

/-- Whether two numbers are equal in binary64, where NaN equals nothing. -/
def equals (x y : Number) : Bool := Float.beq x.value y.value

/-! ### Calculations -/

/-- A number with the other sign. -/
def negate : Number → Number
  | plain x => if x.isNaN then negativeNaN else plain (-x)
  | negativeNaN => plain (0 / 0)

/-- The result of a calculation with numbers that are not NaN. -/
def ofResult (x : Float) : Number := if x.isNaN then negativeNaN else plain x

/-- A function of one number, with NaN handed through. -/
def map (f : Float → Float) (x : Number) : Number := if x.isNaN then x else ofResult (f x.value)

/-- An operation on two numbers, with NaN handed through; of two, the left one. -/
def combine (op : Float → Float → Float) (x y : Number) : Number :=
  if x.isNaN then x else if y.isNaN then y else ofResult (op x.value y.value)

/-! ### Sorting -/

/-- The place of a number in the total order, in which a number and the one of the other sign
stand at opposite places. -/
def rank : Number → Int
  | plain x => Binary64.rank x
  | negativeNaN => -1 - Binary64.rank (0 / 0)

/-- The numbers from first to last in the total order. -/
def sorted (xs : List Number) : List Number := xs.mergeSort fun x y => decide (x.rank ≤ y.rank)

/-- Sorting keeps the numbers. -/
theorem sorted_perm (xs : List Number) : (sorted xs).Perm xs := List.mergeSort_perm _ _

/-- A sorted list ascends in the total order. -/
theorem sorted_pairwise (xs : List Number) : (sorted xs).Pairwise fun x y => x.rank ≤ y.rank := by
  have htrans : ∀ x y z : Number, decide (x.rank ≤ y.rank) = true →
      decide (y.rank ≤ z.rank) = true → decide (x.rank ≤ z.rank) = true := by
    intro x y z hxy hyz
    simp only [decide_eq_true_eq] at hxy hyz ⊢
    omega
  have htotal : ∀ x y : Number,
      (decide (x.rank ≤ y.rank) || decide (y.rank ≤ x.rank)) = true := by
    intro x y
    simp only [Bool.or_eq_true, decide_eq_true_eq]
    omega
  exact (List.pairwise_mergeSort htrans htotal xs).imp of_decide_eq_true

end Number

end TypedFormula
