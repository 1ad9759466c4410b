import TypedFormula.Function.Argument

/-!
# Library functions on conditions

Choice between two values and the logical connectives. All arguments have values before a
function sees them, so a choice only selects.
-/

namespace TypedFormula.Library

/-! ### Bodies -/

/-- The second or the third argument, as the first one is true or false. -/
def choose (args : List Value) : Except FunctionError Value := do
  let condition ← booleanArgument args 0
  argument args (if condition then 1 else 2)

/-- The kind of a choice, known when both alternatives have the same known kind. -/
def choiceKind (kinds : List StaticKind) : StaticKind :=
  match kinds[1]?, kinds[2]? with
  | some (StaticKind.known a), some (StaticKind.known b) => if a = b then .known a else .dynamic
  | _, _ => .dynamic

/-- Whether all conditions are true. -/
def all (args : List Value) : Except FunctionError Value := do
  let bs ← booleanArguments args
  return .boolean (bs.all id)

/-- Whether a condition is true. -/
def any (args : List Value) : Except FunctionError Value := do
  let bs ← booleanArguments args
  return .boolean (bs.any id)

/-- Whether a condition is false. -/
def negation (args : List Value) : Except FunctionError Value := do
  let b ← booleanArgument args 0
  return .boolean !b

/-! ### Signatures -/

/-- Kinds that count as conditions: numbers and truth values, single or in lists. -/
def conditions : KindSet := .numbers ∪ .single (.list .boolean)

/-- The library functions on conditions. -/
def conditionFunctions : List Function :=
  [⟨"AND", "Returns TRUE if every condition is true.", [.atLeastOne "conditions" conditions],
     .known .boolean, none, all⟩,
   ⟨"IF", "Returns one of two values depending on a condition.",
     [.one "condition" .scalar, .one "if_true" .any, .one "if_false" .any],
     .dynamic, some choiceKind, choose⟩,
   ⟨"NOT", "Reverses a condition.", [.one "condition" .scalar], .known .boolean, none, negation⟩,
   ⟨"OR", "Returns TRUE if any condition is true.", [.atLeastOne "conditions" conditions],
     .known .boolean, none, any⟩]

end TypedFormula.Library
