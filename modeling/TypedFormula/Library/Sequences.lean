import TypedFormula.Function.Argument

/-!
# Library functions on lists

Four functions build a list over one scalar kind from any mix of scalars and lists; the others
give one element, whose kind is the element kind of the list, or join the elements.
-/

namespace TypedFormula.Library

/-! ### Bodies -/

/-- The scalars of all arguments as a list over a scalar kind. -/
def build (target : ScalarKind) (args : List Value) : Except FunctionError Value :=
  match flatten target args with
  | .ok items => .ok (.list items)
  | .error e => .error (.ofFlatten e)

/-- An element of a list, or the fault of its absence at the argument with this number. -/
def elementOr (element : Option Value) (ordinal : Nat) (fault : ArgumentFault) :
    Except FunctionError Value :=
  match element with
  | some v => .ok v
  | none => .error (.argument ordinal fault)

/-- The first element of a list. -/
def first (args : List Value) : Except FunctionError Value := do
  let items ← listArgument args 0
  elementOr (items.get? 0) 1 .emptyList

/-- The last element of a list. -/
def last (args : List Value) : Except FunctionError Value := do
  let items ← listArgument args 0
  elementOr items.values.getLast? 1 .emptyList

/-- The element of a list at a position that counts from one. -/
def nth (args : List Value) : Except FunctionError Value := do
  let items ← listArgument args 0
  let position ← integerArgument args 1
  if position < 1 then .error (.argument 2 .positionBeforeFirst)
  else elementOr (items.get? (position - 1).toNat) 2 (.positionPastEnd position items.size)

/-- The texts of the elements of a list with a separator in between. -/
def joinElements (args : List Value) : Except FunctionError Value := do
  let items ← listArgument args 0
  let separator ← textArgument args 1
  return .string (String.intercalate separator (items.values.map Value.text))

/-- The kind of an element of the first argument, if that is known to be a list. -/
def elementKind (kinds : List StaticKind) : StaticKind :=
  match kinds.head? with
  | some (StaticKind.known (.list k)) => .known (.scalar k)
  | _ => .dynamic

/-! ### Signatures -/

/-- A function that builds a list over a scalar kind. -/
def builder (name summary : String) (target : ScalarKind) : Function :=
  ⟨name, summary, [.anyNumber "values" .any], .known (.list target), none, build target⟩

/-- The library functions on lists. -/
def sequenceFunctions : List Function :=
  [builder "BLIST" "Builds a list of booleans from values and lists." .boolean,
   ⟨"FIRST", "Returns the first element of a list.", [.one "list" .list], .dynamic,
     some elementKind, first⟩,
   builder "FLIST" "Builds a list of floating point numbers from values and lists." .float,
   builder "ILIST" "Builds a list of integers from values and lists." .integer,
   ⟨"LAST", "Returns the last element of a list.", [.one "list" .list], .dynamic,
     some elementKind, last⟩,
   ⟨"LISTTOSTRING", "Joins the elements of a list with a separator.",
     [.one "list" .list, .one "separator" .scalar], .known .string, none, joinElements⟩,
   ⟨"NTH", "Returns the element at a 1-based position of a list.",
     [.one "list" .list, .one "position" .number], .dynamic, some elementKind, nth⟩,
   builder "SLIST" "Builds a list of strings from values and lists." .string]

end TypedFormula.Library
