import TypedFormula.Binary64.Order
import TypedFormula.Conversion

/-!
# The order of scalar values

Scalars of all kinds compare with one another: numbers, whole numbers and truth values by their
numeric value (whole numbers among themselves exactly), texts by code points, every number below
every text, and every text below every truth value. Lists and NaN compare with nothing.
-/

namespace TypedFormula.Value

/-- The number by which a scalar that is no text is ordered. -/
def rankNumber? : Value → Option Float
  | float x => some x.value
  | integer n => some (Binary64.ofInt n.toInt)
  | boolean b => some (booleanNumber b)
  | _ => none

/-- The numeric order of two values that have a rank, if neither rank is NaN. -/
def orderByRank (v w : Value) : Option Ordering := do
  let x ← v.rankNumber?
  let y ← w.rankNumber?
  Binary64.order x y

/-- How two values compare; lists and NaN compare with nothing. -/
def order : Value → Value → Option Ordering
  | list _, _ | _, list _ => none
  | integer m, integer n => some (compare m.toInt n.toInt)
  | string s, string t => some (compare s t)
  | string _, boolean _ => some .lt
  | boolean _, string _ => some .gt
  | string _, _ => some .gt
  | _, string _ => some .lt
  | v, w => orderByRank v w

end TypedFormula.Value
