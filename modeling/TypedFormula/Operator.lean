/-!
# Operators

A formula has two unary operators and twelve binary ones: five for arithmetic, one that joins
texts, and six comparisons.
-/

namespace TypedFormula

/-- An operator in front of its operand. -/
inductive UnaryOperator where
  /-- The number itself. -/
  | plus
  /-- The number with the other sign. -/
  | negate
deriving DecidableEq

/-- An operator on two numbers. -/
inductive Arithmetic where
  /-- The sum. -/
  | add
  /-- The difference. -/
  | subtract
  /-- The product. -/
  | multiply
  /-- The quotient. -/
  | divide
  /-- The left number raised to the right one. -/
  | power
deriving DecidableEq

/-- A comparison of two scalars. -/
inductive Comparison where
  /-- The scalars compare as equal. -/
  | equal
  /-- The scalars do not compare as equal. -/
  | notEqual
  /-- The left scalar is smaller. -/
  | less
  /-- The left scalar is smaller or equal. -/
  | lessEqual
  /-- The left scalar is larger. -/
  | greater
  /-- The left scalar is larger or equal. -/
  | greaterEqual
deriving DecidableEq

/-- An operator between its operands. -/
inductive BinaryOperator where
  /-- An operator on two numbers. -/
  | arithmetic (op : Arithmetic)
  /-- The operator that joins two texts. -/
  | concat
  /-- A comparison of two scalars. -/
  | comparison (op : Comparison)
deriving DecidableEq

/-- The sign of a unary operator. -/
def UnaryOperator.symbol : UnaryOperator → String
  | plus => "+"
  | negate => "-"

/-- The sign of an operator on numbers. -/
def Arithmetic.symbol : Arithmetic → String
  | add => "+"
  | subtract => "-"
  | multiply => "*"
  | divide => "/"
  | power => "^"

/-- The sign of a comparison. -/
def Comparison.symbol : Comparison → String
  | equal => "="
  | notEqual => "<>"
  | less => "<"
  | lessEqual => "<="
  | greater => ">"
  | greaterEqual => ">="

/-- The sign of a binary operator. -/
def BinaryOperator.symbol : BinaryOperator → String
  | arithmetic op => op.symbol
  | concat => "&"
  | comparison op => op.symbol

/-- Whether a comparison holds of scalars that compare in this way. Scalars that do not compare
are unequal, and no other comparison holds of them. -/
def Comparison.holds : Comparison → Option Ordering → Bool
  | notEqual, none => true
  | _, none => false
  | equal, some o => o == .eq
  | notEqual, some o => o != .eq
  | less, some o => o == .lt
  | lessEqual, some o => o != .gt
  | greater, some o => o == .gt
  | greaterEqual, some o => o != .lt

end TypedFormula
