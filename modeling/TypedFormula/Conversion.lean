import TypedFormula.Decimal.Reader
import TypedFormula.Text.Blank
import TypedFormula.Value

/-!
# Conversions between scalar kinds

Every scalar value may be asked for as a number, a whole number, a text or a truth value:

* a truth value is 1 or 0 as a number, and a number is true unless it is zero;
* a text is read after trimming, and must write a finite number;
* a number becomes a whole number by rounding, a tie going to the even one, if the result fits
  into 64 bits;
* any value but a list has a text, and a list converts to nothing.

A failed conversion tells the value as it is shown and the kind that was asked for.

Main statement: `Value.kind_of_convert` — a conversion gives a value of the kind asked for.
-/

namespace TypedFormula

/-- A value that has no counterpart of the kind asked for. -/
structure ConversionError where
  /-- The value as it is shown, a text between quotes but without escapes. -/
  shown : String
  /-- The kind that was asked for. -/
  target : Kind
deriving DecidableEq

/-- The text of a failed conversion. -/
def ConversionError.message (e : ConversionError) : String :=
  "Cannot convert " ++ e.shown ++ " to " ++ e.target.name

/-- A text as it is shown in a failed conversion. -/
def shownString (s : String) : String := "\"" ++ s ++ "\""

/-- An optional result, with the error for its absence. -/
def orConversionError {α : Type} (result : Option α) (shown : String) (target : Kind) :
    Except ConversionError α :=
  match result with
  | some a => .ok a
  | none => .error ⟨shown, target⟩

/-! ### Numbers -/

/-- The whole number nearest to a number, a tie going to the even one, if it fits. The rounded
number is compared as a number: `2 ^ 63` is the first one that is too large. -/
def nearestInteger? (x : Float) : Option Int64 :=
  let rounded := Binary64.integral .halfEven x
  if rounded.isNaN || rounded < -9223372036854775808 || 9223372036854775808 ≤ rounded then none
  else (Binary64.toInt? .towardZero rounded).map Int64.ofInt

/-- A number as a whole number. -/
def floatToInteger (x : Float) : Except ConversionError Int64 :=
  orConversionError (nearestInteger? x) (numberText x) .integer

/-- A truth value as a number. -/
def booleanNumber (b : Bool) : Float := if b then 1 else 0

/-- The finite number that a text writes between blanks. -/
def stringNumber? (s : String) : Option Float := Decimal.readFinite? (Text.trim s.toList)

/-- The whole number that a text writes between blanks, either as such or as a number that is
rounded. -/
def stringInteger? (s : String) : Option Int64 :=
  let body := Text.trim s.toList
  match Decimal.readInteger? body with
  | some n => some n
  | none => (Decimal.readNumber? body).bind fun x => nearestInteger? x.value

/-- The truth value that a text names, in any ASCII letter case. -/
def stringBoolean? (s : String) : Option Bool :=
  let word := s.toList.map Char.toUpper
  if word = ['T', 'R', 'U', 'E'] then some true
  else if word = ['F', 'A', 'L', 'S', 'E'] then some false
  else none

/-! ### Values -/

namespace Value

/-- A value as a number. -/
def toNumber : Value → Except ConversionError Number
  | float x => .ok x
  | integer n => .ok (.plain (Binary64.ofInt n.toInt))
  | boolean b => .ok (.plain (booleanNumber b))
  | string s => orConversionError ((stringNumber? s).map .plain) (shownString s) .float
  | list items => .error ⟨items.text, .float⟩

/-- A value as a whole number. -/
def toInteger : Value → Except ConversionError Int64
  | integer n => .ok n
  | float x => floatToInteger x.value
  | boolean b => .ok (if b then 1 else 0)
  | string s => orConversionError (stringInteger? s) (shownString s) .integer
  | list items => .error ⟨items.text, .integer⟩

/-- A value as a truth value. -/
def toBoolean : Value → Except ConversionError Bool
  | boolean b => .ok b
  | float x => .ok (!Float.beq x.value 0)
  | integer n => .ok (decide (n ≠ 0))
  | string s => orConversionError (stringBoolean? s) (shownString s) .boolean
  | list items => .error ⟨items.text, .boolean⟩

/-- A value as a text. -/
def toText : Value → Except ConversionError String
  | list items => .error ⟨items.text, .string⟩
  | v => .ok v.text

/-- A value as a value of a scalar kind. -/
def convert (target : ScalarKind) (v : Value) : Except ConversionError Value :=
  match target with
  | .float => v.toNumber.map float
  | .integer => v.toInteger.map integer
  | .string => v.toText.map string
  | .boolean => v.toBoolean.map boolean

/-- A value as a value of any kind; nothing converts to a list kind. -/
def convertTo (target : Kind) (v : Value) : Except ConversionError Value :=
  match target with
  | .scalar k => v.convert k
  | .list k => .error ⟨v.text, .list k⟩

/-- A conversion gives a value of the kind asked for. -/
theorem kind_of_convert {target : ScalarKind} {v w : Value} (h : v.convert target = .ok w) :
    w.kind = .scalar target := by
  cases target
  · simp only [convert] at h
    cases hv : v.toNumber <;> simp [hv, Except.map] at h
    rw [← h]; rfl
  · simp only [convert] at h
    cases hv : v.toInteger <;> simp [hv, Except.map] at h
    rw [← h]; rfl
  · simp only [convert] at h
    cases hv : v.toText <;> simp [hv, Except.map] at h
    rw [← h]; rfl
  · simp only [convert] at h
    cases hv : v.toBoolean <;> simp [hv, Except.map] at h
    rw [← h]; rfl

theorem convert_of_kind {target : ScalarKind} {v : Value} (h : v.kind = .scalar target) :
    v.convert target = .ok v := by
  cases v <;> cases target <;> simp_all [kind, Items.kind] <;> rfl

end Value

end TypedFormula
