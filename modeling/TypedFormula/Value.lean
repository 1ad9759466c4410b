import TypedFormula.Binary64.Rounding
import TypedFormula.Decimal.Layout
import TypedFormula.Kind
import TypedFormula.Number
import TypedFormula.Text.Quoted

/-!
# Values

A value is a number, a whole number, a text, a truth value, or a list over one of these four; a
list always holds elements of one scalar kind. This module also fixes how a value reads as text
and when two values count as equal: numbers by the equality of binary64, under which `0` equals
`-0` and NaN equals nothing.

Main statement: `Items.element_of_mem_values` — every element of a list has the element kind of the
list.
-/

namespace TypedFormula

/-- The elements of a list, all of one scalar kind. -/
inductive Items where
  /-- A list of numbers. -/
  | floats (xs : List Number)
  /-- A list of whole numbers. -/
  | integers (xs : List Int64)
  /-- A list of texts. -/
  | strings (xs : List String)
  /-- A list of truth values. -/
  | booleans (xs : List Bool)
deriving DecidableEq

/-- A value of a formula. -/
inductive Value where
  /-- A number. -/
  | float (x : Number)
  /-- A whole number. -/
  | integer (n : Int64)
  /-- A text. -/
  | string (s : String)
  /-- A truth value. -/
  | boolean (b : Bool)
  /-- A list. -/
  | list (items : Items)
deriving DecidableEq

/-! ### Lists -/

namespace Items

/-- The scalar kind of the elements. -/
def element : Items → ScalarKind
  | floats _ => .float
  | integers _ => .integer
  | strings _ => .string
  | booleans _ => .boolean

/-- The kind of the list. -/
def kind (items : Items) : Kind := .list items.element

/-- The list without elements of a scalar kind. -/
def empty : ScalarKind → Items
  | .float => floats []
  | .integer => integers []
  | .string => strings []
  | .boolean => booleans []

/-- The elements as values. -/
def values : Items → List Value
  | floats xs => xs.map .float
  | integers xs => xs.map .integer
  | strings xs => xs.map .string
  | booleans xs => xs.map .boolean

/-- The number of elements. -/
def size (items : Items) : Nat := items.values.length

/-- The element at an index that counts from zero. -/
def get? (items : Items) (index : Nat) : Option Value := items.values[index]?

/-- Whole numbers as the nearest numbers; other lists stay. -/
def widen : Items → Items
  | integers xs => floats (xs.map fun n => .plain (Binary64.ofInt n.toInt))
  | items => items

/-- Whether two lists have the same kind and equal elements in the same order. -/
def equals : Items → Items → Bool
  | floats xs, floats ys => xs.length == ys.length && (List.zipWith Number.equals xs ys).all id
  | integers xs, integers ys => decide (xs = ys)
  | strings xs, strings ys => decide (xs = ys)
  | booleans xs, booleans ys => decide (xs = ys)
  | _, _ => false

end Items

/-! ### Values -/

namespace Value

/-- The kind of a value. -/
def kind : Value → Kind
  | float _ => .float
  | integer _ => .integer
  | string _ => .string
  | boolean _ => .boolean
  | list items => items.kind

@[simp] theorem kind_float (x : Number) : (float x).kind = .float := rfl

@[simp] theorem kind_integer (n : Int64) : (integer n).kind = .integer := rfl

@[simp] theorem kind_string (s : String) : (string s).kind = .string := rfl

@[simp] theorem kind_boolean (b : Bool) : (boolean b).kind = .boolean := rfl

@[simp] theorem kind_list (items : Items) : (list items).kind = .list items.element := rfl

/-- Whether a value is a list. -/
def isList : Value → Bool
  | list _ => true
  | _ => false

/-- The elements of a list. -/
def asItems? : Value → Option Items
  | list items => some items
  | _ => none

/-- A number, or the nearest number to a whole number. -/
def asNumber? : Value → Option Number
  | float x => some x
  | integer n => some (.plain (Binary64.ofInt n.toInt))
  | _ => none

/-- A text. -/
def asString? : Value → Option String
  | string s => some s
  | _ => none

/-- The single values that a value contributes to a flattened list: its elements, or itself. -/
def scalars : Value → List Value
  | list items => items.values
  | v => [v]

/-- Whether two values have the same kind and are equal, numbers by binary64 equality. -/
def equals : Value → Value → Bool
  | float x, float y => x.equals y
  | integer m, integer n => decide (m = n)
  | string s, string t => decide (s = t)
  | boolean a, boolean b => decide (a = b)
  | list xs, list ys => xs.equals ys
  | _, _ => false

end Value

/-! ### Texts of values -/

/-- The text of a number: integral numbers below `10 ^ 15` in magnitude as integers, without a
sign on zero, all others in positional notation. -/
def numberText (x : Float) : String :=
  match Binary64.exactInt? x with
  | some n => if n.natAbs < 1000000000000000 then toString n else Decimal.floatText x
  | none => Decimal.floatText x

/-- The text of a truth value. -/
def booleanText (b : Bool) : String := if b then "TRUE" else "FALSE"

/-- The texts of the elements of a list, texts in quotes. -/
def Items.elementTexts : Items → List String
  | floats xs => xs.map fun x => numberText x.value
  | integers xs => xs.map fun n => toString n.toInt
  | strings xs => xs.map Text.quoted
  | booleans xs => xs.map booleanText

/-- The text of a list: its elements between brackets. -/
def Items.text (items : Items) : String :=
  "[" ++ String.intercalate ", " items.elementTexts ++ "]"

/-- The text of a value. A single text stands for itself; within a list texts are quoted. -/
def Value.text : Value → String
  | float x => numberText x.value
  | integer n => toString n.toInt
  | string s => s
  | boolean b => booleanText b
  | list items => items.text

/-! ### Kinds of elements -/

/-- Every element of a list has the element kind of the list. -/
theorem Items.element_of_mem_values {items : Items} {v : Value} (h : v ∈ items.values) :
    v.kind = .scalar items.element := by
  cases items <;> simp only [values, List.mem_map] at h <;> obtain ⟨_, _, rfl⟩ := h <;> rfl

end TypedFormula
