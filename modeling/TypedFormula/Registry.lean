import TypedFormula.Dict
import TypedFormula.Function
import TypedFormula.Text.LetterCase

/-!
# Registries of functions

A registry holds functions under their names in upper case, so that letter case does not matter
for look ups; a later function replaces an earlier one of the same name. Only functions with a
well-formed signature are taken.

Main statement: `Registry.lookup?_register` — after a registration a name finds the new function
exactly when it agrees with its name in upper case, and what it found before otherwise.
-/

namespace TypedFormula

/-- A function that was not taken, for its signature. -/
structure RegistrationError where
  /-- The name of the function in upper case. -/
  function : String
  /-- What is wrong with the signature. -/
  fault : SignatureFault
deriving DecidableEq

/-- The text of a failed registration. -/
def RegistrationError.message (e : RegistrationError) : String :=
  "Invalid signature for " ++ e.function ++ ": " ++ e.fault.message

/-- The refusal of a call of a function. -/
def Function.callMismatch (f : Function) (m : ArgumentMismatch) : CallMismatch :=
  ⟨Text.upper f.name, f.usage, m⟩

/-- Functions by their names in upper case. -/
structure Registry where
  /-- The functions under their keys. -/
  functions : Dict Function

namespace Registry

/-- The registry without functions. -/
def empty : Registry := ⟨Dict.empty⟩

/-- The function that a name means, in any letter case. -/
def lookup? (r : Registry) (name : String) : Option Function :=
  r.functions.get? (Text.upper name)

/-- Adds a function if its signature is well formed: gives the function that it replaces, if
there is one, and the new registry. -/
def register (r : Registry) (f : Function) :
    Except RegistrationError (Option Function × Registry) :=
  match checkParameters f.parameters with
  | .ok _ =>
    .ok (r.functions.get? (Text.upper f.name), ⟨r.functions.insert (Text.upper f.name) f⟩)
  | .error fault => .error ⟨Text.upper f.name, fault⟩

/-- The registry with more functions, leaving out those with a malformed signature. -/
def registerAll (r : Registry) (functions : List Function) : Registry :=
  functions.foldl (fun r f => match r.register f with | .ok (_, r') => r' | .error _ => r) r

/-- The keys in ascending order. -/
def names (r : Registry) : List String := r.functions.names.mergeSort fun a b => decide (a ≤ b)

/-- The functions in the order of their keys. -/
def toList (r : Registry) : List Function := r.names.filterMap r.lookup?

/-- The number of functions. -/
def size (r : Registry) : Nat := r.functions.size

/-- Whether there is no function. -/
def isEmpty (r : Registry) : Bool := r.functions.isEmpty

/-- After a registration a name finds the new function exactly when it agrees with its name in
upper case, and what it found before otherwise. -/
theorem lookup?_register {r r' : Registry} {f : Function} {replaced : Option Function}
    (h : r.register f = .ok (replaced, r')) (name : String) :
    r'.lookup? name = if Text.upper name = Text.upper f.name then some f else r.lookup? name := by
  unfold register at h
  cases hcheck : checkParameters f.parameters with
  | error fault => simp [hcheck] at h
  | ok _ =>
    simp only [hcheck, Except.ok.injEq, Prod.mk.injEq] at h
    rw [← h.2]
    exact Dict.get?_insert r.functions (Text.upper f.name) (Text.upper name) f

end Registry

end TypedFormula
