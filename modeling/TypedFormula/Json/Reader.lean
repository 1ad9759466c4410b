import TypedFormula.Json.Number
import TypedFormula.Json.Read
import TypedFormula.Json.Text

/-!
# The reader of JSON

The reader that programs run with: trees as the standard of JSON gives them, texts with the escapes
of the standard, and numbers with several roundings.
-/

namespace TypedFormula

/-- The reader that programs run with. -/
instance JsonReader.standard : JsonReader := ⟨readJson?, decodeText?, NumberLiteral.value?⟩

end TypedFormula
