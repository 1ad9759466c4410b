import TypedFormula.Operator
import TypedFormula.Value

/-!
# Expressions

The tree of a formula. Every node knows the byte offset it was read from; the kind of a node
follows from the tree, except that a call keeps the kind that its function resolved.
-/

namespace TypedFormula

/-- An expression. -/
inductive Expr where
  /-- A number. -/
  | number (offset : Nat) (x : Float)
  /-- A text. -/
  | string (offset : Nat) (s : String)
  /-- A truth value. -/
  | boolean (offset : Nat) (b : Bool)
  /-- A variable with its declared kind, and the default given here. -/
  | reference (offset : Nat) (name : String) (kind : Kind) (default : Option Value)
  /-- An operator in front of its operand. -/
  | unary (offset : Nat) (op : UnaryOperator) (operand : Expr)
  /-- An operator between its operands. -/
  | binary (offset : Nat) (op : BinaryOperator) (left right : Expr)
  /-- A call of a function, by its name in upper case, with the kind of the result. -/
  | call (offset : Nat) (name : String) (kind : StaticKind) (args : List Expr)

namespace Expr

/-- The byte offset of the node: of the operator, or of the name of a function. -/
def offset : Expr → Nat
  | number offset _ => offset
  | string offset _ => offset
  | boolean offset _ => offset
  | reference offset _ _ _ => offset
  | unary offset _ _ => offset
  | binary offset _ _ _ => offset
  | call offset _ _ _ => offset

/-- The kind of the value of a binary operator. -/
def binaryKind : BinaryOperator → Kind
  | .arithmetic _ => .float
  | .concat => .string
  | .comparison _ => .boolean

/-- What is known of the kind of the value. -/
def kind : Expr → StaticKind
  | number _ _ => .known .float
  | string _ _ => .known .string
  | boolean _ _ => .known .boolean
  | reference _ _ kind _ => .known kind
  | unary _ _ _ => .known .float
  | binary _ op _ _ => .known (binaryKind op)
  | call _ _ kind _ => kind

mutual

/-- The number of operators and calls on the longest path into the tree. -/
def height : Expr → Nat
  | number _ _ => 0
  | string _ _ => 0
  | boolean _ _ => 0
  | reference _ _ _ _ => 0
  | unary _ _ operand => operand.height + 1
  | binary _ _ left right => Nat.max left.height right.height + 1
  | call _ _ _ args => heights args + 1

/-- The largest height of some trees. -/
def heights : List Expr → Nat
  | [] => 0
  | e :: es => Nat.max e.height (heights es)

end

end Expr

end TypedFormula
