import TypedFormula.Library.Conditions
import TypedFormula.Library.Numbers
import TypedFormula.Library.Samples
import TypedFormula.Library.Sequences
import TypedFormula.Library.Strings
import TypedFormula.Registry

/-!
# The library

The forty functions that every formula can call, and the registry that holds them.
-/

namespace TypedFormula

open Binary64 (Logarithms)

/-- The functions of the library. -/
def Library.functions [Logarithms] : List Function :=
  Library.numberFunctions ++ Library.sampleFunctions ++ Library.stringFunctions ++
    Library.conditionFunctions ++ Library.sequenceFunctions

/-- The registry of the library. -/
def Registry.library [Logarithms] : Registry := Registry.empty.registerAll Library.functions

end TypedFormula
