import TypedFormula.Expr.Parse

/-!
# Compiled formulas

A formula is compiled into code for a stack machine: every node becomes one instruction behind
the code of its operands, with the offset of the node. Along with the code a formula keeps the
variables it refers to, with their kinds and in the order of their first references, and the
defaults given for them. References to one variable may repeat its default but not contradict it.

Main statement: `Formula.matchesTypes_iff` — a formula fits declarations exactly when all its
variables have the same kinds there.
-/

namespace TypedFormula

/-! ### Code -/

/-- A step of the machine. -/
inductive Instruction where
  /-- Pushes a literal. -/
  | push (v : Value)
  /-- Pushes the value of a variable. -/
  | load (name : String) (kind : Kind)
  /-- Replaces the operand on top by the result of a unary operator. -/
  | unary (op : UnaryOperator)
  /-- Replaces the two operands on top, the right one uppermost, by the result. -/
  | binary (op : BinaryOperator)
  /-- Replaces the arguments on top, the last one uppermost, by the result of a function. -/
  | call (name : String) (arity : Nat)
deriving DecidableEq

/-- An instruction and the offset of the node it was compiled from. -/
structure CodeUnit where
  /-- The instruction. -/
  instruction : Instruction
  /-- The byte offset. -/
  offset : Nat
deriving DecidableEq

namespace Expr

mutual

/-- The code of an expression, operands before operators. -/
def code : Expr → List CodeUnit
  | number offset x => [⟨.push (.float (.plain x)), offset⟩]
  | string offset s => [⟨.push (.string s), offset⟩]
  | boolean offset b => [⟨.push (.boolean b), offset⟩]
  | reference offset name kind _ => [⟨.load name kind, offset⟩]
  | unary offset op operand => operand.code ++ [⟨.unary op, offset⟩]
  | binary offset op left right => left.code ++ right.code ++ [⟨.binary op, offset⟩]
  | call offset name _ args => codes args ++ [⟨.call name args.length, offset⟩]

/-- The code of expressions, one after the other. -/
def codes : List Expr → List CodeUnit
  | [] => []
  | e :: es => e.code ++ codes es

end

/-- A reference to a variable in an expression. -/
structure Occurrence where
  /-- The variable. -/
  name : String
  /-- Its kind. -/
  kind : Kind
  /-- The default given here. -/
  default : Option Value
  /-- The byte offset. -/
  offset : Nat
deriving DecidableEq

mutual

/-- The references in an expression, in the order of the text. -/
def occurrences : Expr → List Occurrence
  | number _ _ => []
  | string _ _ => []
  | boolean _ _ => []
  | reference offset name kind default => [⟨name, kind, default, offset⟩]
  | unary _ _ operand => operand.occurrences
  | binary _ _ left right => left.occurrences ++ right.occurrences
  | call _ _ _ args => allOccurrences args

/-- The references in expressions, in the order of the text. -/
def allOccurrences : List Expr → List Occurrence
  | [] => []
  | e :: es => e.occurrences ++ allOccurrences es

end

end Expr

/-! ### Variables -/

/-- What is known of the variables of a formula. -/
structure Variables where
  /-- Their kinds, in the order of their first references. -/
  kinds : Dict Kind
  /-- Their defaults. -/
  defaults : Dict Value

namespace Variables

/-- No variables. -/
def empty : Variables := ⟨Dict.empty, Dict.empty⟩

/-- The kinds with those of one more reference. -/
def addKind (kinds : Dict Kind) (o : Expr.Occurrence) : Dict Kind :=
  if kinds.contains o.name then kinds else kinds.insert o.name o.kind

/-- The defaults with that of one more reference, which must not contradict an earlier one. -/
def addDefault (defaults : Dict Value) (o : Expr.Occurrence) : Except CompileError (Dict Value) :=
  match o.default with
  | none => .ok defaults
  | some v =>
    match defaults.get? o.name with
    | none => .ok (defaults.insert o.name v)
    | some first =>
      if first.equals v then .ok defaults
      else .error ⟨.conflictingDefaults o.name first v, o.offset⟩

/-- The variables with those of more references. -/
def add (vs : Variables) : List Expr.Occurrence → Except CompileError Variables
  | [] => .ok vs
  | o :: os =>
    match addDefault vs.defaults o with
    | .error e => .error e
    | .ok defaults => add ⟨addKind vs.kinds o, defaults⟩ os

end Variables

/-! ### Formulas -/

/-- A compiled formula. -/
structure Formula where
  /-- The text. -/
  text : String
  /-- The kinds of its variables, in the order of their first references. -/
  kinds : Dict Kind
  /-- The defaults of its variables. -/
  defaults : Dict Value
  /-- The code. -/
  code : List CodeUnit
  /-- What is known of the kind of the value. -/
  resultKind : StaticKind

namespace Formula

/-- The formula of a tree that was read from a text. -/
def ofExpr (text : String) (e : Expr) : Except CompileError Formula :=
  match Variables.empty.add e.occurrences with
  | .error err => .error err
  | .ok vs => .ok ⟨text, vs.kinds, vs.defaults, e.code, e.kind⟩

/-- Reads and compiles a text. -/
def compile (scope : Scope) (text : String) : Except CompileError Formula :=
  match parseFormula scope text with
  | .error err => .error err
  | .ok e => ofExpr text e

/-- Whether all variables of a formula have the same kinds in other declarations. -/
def matchesTypes (f : Formula) (types : Declarations) : Bool :=
  f.kinds.entries.all fun v => decide (types.get? v.1 = some v.2)

/-- A formula fits declarations exactly when all its variables have the same kinds there. -/
theorem matchesTypes_iff {f : Formula} {types : Declarations} :
    f.matchesTypes types = true ↔ ∀ v ∈ f.kinds.entries, types.get? v.1 = some v.2 := by
  simp [matchesTypes]

end Formula

end TypedFormula
