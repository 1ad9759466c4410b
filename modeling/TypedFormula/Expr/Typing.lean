import TypedFormula.CompileError
import TypedFormula.Decimal.Reader
import TypedFormula.Expr
import TypedFormula.Registry
import TypedFormula.Text.Blank

/-!
# Typing of expressions

Nodes of expressions are built under rules on the kinds of their parts, within a scope that
declares variables and functions: arithmetic takes single numbers and truth values, the other
operators take no lists, a default must write a value of its variable's kind, and arguments must
match the signature of the function. An unknown kind is taken until the run.

Main statements:

* `checkNumber_ok_iff`, `checkSingle_ok_iff` — which operands the operators take;
* `kind_of_readDefault?` — a default has the kind of its variable.
-/

namespace TypedFormula

/-- The kinds of the variables that a formula may refer to. -/
abbrev Declarations := Dict Kind

/-- What a formula may refer to. -/
structure Scope where
  /-- The variables. -/
  types : Declarations
  /-- The functions. -/
  functions : Registry

/-! ### Operators -/

/-- Refuses an operand that is no single number or truth value. -/
def checkNumber (symbol : String) (operand : Expr) : Except CompileError Unit :=
  if operand.kind.acceptedBy .number then .ok ()
  else .error ⟨.operandKind symbol operand.kind, operand.offset⟩

/-- Refuses an operand that is a list. -/
def checkSingle (symbol : String) (operand : Expr) : Except CompileError Unit :=
  if operand.kind.isList then .error ⟨.operandKind symbol operand.kind, operand.offset⟩
  else .ok ()

/-- Refuses an operand that a binary operator does not take. -/
def checkOperand : BinaryOperator → Expr → Except CompileError Unit
  | .arithmetic op => checkNumber op.symbol
  | .concat => checkSingle BinaryOperator.concat.symbol
  | .comparison op => checkSingle op.symbol

/-- The node of a unary operator. -/
def typedUnary (offset : Nat) (op : UnaryOperator) (operand : Expr) : Except CompileError Expr :=
  match checkNumber op.symbol operand with
  | .error e => .error e
  | .ok _ => .ok (.unary offset op operand)

/-- The node of a binary operator. -/
def typedBinary (offset : Nat) (op : BinaryOperator) (left right : Expr) :
    Except CompileError Expr :=
  match checkOperand op left with
  | .error e => .error e
  | .ok _ =>
    match checkOperand op right with
    | .error e => .error e
    | .ok _ => .ok (.binary offset op left right)

/-! ### Variables -/

/-- The value that the text of a default writes. -/
def readDefault? (kind : ScalarKind) (text : String) : Option Value :=
  let body := Text.trim text.toList
  match kind with
  | .float => (Decimal.readFinite? body).map fun x => .float (.plain x)
  | .integer => (Decimal.readInteger? body).map .integer
  | .boolean => (stringBoolean? (String.ofList body)).map .boolean
  | .string => some (.string text)

/-- The default of a variable, from the text given in a reference. -/
def typedDefault (offset : Nat) (name : String) (kind : Kind) :
    Option String → Except CompileError (Option Value)
  | none => .ok none
  | some text =>
    match kind with
    | .list _ => .error ⟨.listDefault name kind, offset⟩
    | .scalar k =>
      match readDefault? k text with
      | some v => .ok (some v)
      | none => .error ⟨.invalidDefault text name kind, offset⟩

/-- The node of a reference to a variable. -/
def typedReference (scope : Scope) (offset : Nat) (name : String) (default : Option String) :
    Except CompileError Expr :=
  match scope.types.get? name with
  | none => .error ⟨.unknownVariable name, offset⟩
  | some kind =>
    match typedDefault offset name kind default with
    | .error e => .error e
    | .ok d => .ok (.reference offset name kind d)

/-! ### Calls -/

/-- The place that a mismatch is about: the argument that does not fit or is too much, or the
name of the function. -/
def mismatchOffset (offset : Nat) (args : List Expr) : ArgumentMismatch → Nat
  | .wrongKind ordinal _ => ((args[ordinal - 1]?).map Expr.offset).getD offset
  | .tooMany max _ => ((args[max]?).map Expr.offset).getD offset
  | .tooFew _ _ => offset

/-- The node of a call of a function under some name. -/
def typedCall (offset : Nat) (name : String) (f : Function) (args : List Expr) :
    Except CompileError Expr :=
  match f.checkArguments (args.map Expr.kind) with
  | .ok kind => .ok (.call offset (Text.upper name) kind args)
  | .error m => .error ⟨.arguments (f.callMismatch m), mismatchOffset offset args m⟩

/-! ### What the rules accept -/

/-- Arithmetic takes numbers, whole numbers, truth values and values of unknown kind. -/
theorem checkNumber_ok_iff (symbol : String) (operand : Expr) :
    checkNumber symbol operand = .ok () ↔
      operand.kind = .dynamic ∨ operand.kind = .known .float ∨
        operand.kind = .known .integer ∨ operand.kind = .known .boolean := by
  unfold checkNumber
  rcases hk : operand.kind with ⟨⟨⟨⟩⟩ | ⟨⟨⟩⟩⟩ | _ <;>
    simp [StaticKind.acceptedBy, KindSet.accepts, KindSet.number, KindSet.numeric, KindSet.single,
      Union.union]

/-- The other operators take everything that is not known to be a list. -/
theorem checkSingle_ok_iff (symbol : String) (operand : Expr) :
    checkSingle symbol operand = .ok () ↔ operand.kind.isList = false := by
  unfold checkSingle
  cases operand.kind.isList <;> simp

/-- A default has the kind of its variable. -/
theorem kind_of_readDefault? {kind : ScalarKind} {text : String} {v : Value}
    (h : readDefault? kind text = some v) : v.kind = .scalar kind := by
  cases kind <;> simp only [readDefault?, Option.map_eq_some_iff, Option.some.injEq] at h
  · obtain ⟨_, _, rfl⟩ := h; rfl
  · obtain ⟨_, _, rfl⟩ := h; rfl
  · rw [← h]; rfl
  · obtain ⟨_, _, rfl⟩ := h; rfl

end TypedFormula
