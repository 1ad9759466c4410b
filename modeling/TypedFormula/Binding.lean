import TypedFormula.Dict
import TypedFormula.Value

/-!
# Bindings

The values that variables have in one evaluation. A variable may be known without having a
value, which is the same to a formula as being unknown.

Main statement: `Binding.get?_set`, `Binding.get?_unset` — what a variable has after it is set or
unset, and that others keep what they have.
-/

namespace TypedFormula

/-- Values of variables; no value stands for a variable that is known but not set. -/
structure Binding where
  /-- The variables. -/
  values : Dict (Option Value)

namespace Binding

/-- The binding without variables. -/
def empty : Binding := ⟨Dict.empty⟩

/-- Sets the value of a variable. -/
def set (b : Binding) (name : String) (v : Value) : Binding := ⟨b.values.insert name (some v)⟩

/-- Marks a variable as known but not set. -/
def unset (b : Binding) (name : String) : Binding := ⟨b.values.insert name none⟩

/-- The value of a variable, if it is set. -/
def get? (b : Binding) (name : String) : Option Value := (b.values.get? name).join

/-- Whether a variable is set. -/
def isDefined (b : Binding) (name : String) : Bool := (b.get? name).isSome

/-- The number of variables, set or not. -/
def size (b : Binding) : Nat := b.values.size

/-- Whether there is no variable. -/
def isEmpty (b : Binding) : Bool := b.values.isEmpty

/-- A variable that is set has its value, and others keep theirs. -/
theorem get?_set (b : Binding) (name other : String) (v : Value) :
    (b.set name v).get? other = if other = name then some v else b.get? other := by
  by_cases h : other = name <;> simp [get?, set, Dict.get?_insert, h]

/-- A variable that is unset has no value, and others keep theirs. -/
theorem get?_unset (b : Binding) (name other : String) :
    (b.unset name).get? other = if other = name then none else b.get? other := by
  by_cases h : other = name <;> simp [get?, unset, Dict.get?_insert, h]

end Binding

end TypedFormula
