import TypedFormula.Command.BindingsFile
import TypedFormula.Formula.Listing
import TypedFormula.Json.Text

/-!
# Answers of the command

The texts that the command prints: a value, either as it reads or as JSON with the formula and the
kind, and the description of a formula.
-/

namespace TypedFormula

/-! ### Values as JSON -/

/-- A number as JSON; there is none for NaN and the infinities. -/
def jsonNumber (x : Float) : String := (Decimal.jsonFloat? x).getD "null"

/-- A truth value as JSON. -/
def jsonBoolean (b : Bool) : String := if b then "true" else "false"

/-- The elements of a list as JSON. -/
def Items.jsonElements : Items → List String
  | floats xs => xs.map fun x => jsonNumber x.value
  | integers xs => xs.map fun n => toString n.toInt
  | strings xs => xs.map jsonText
  | booleans xs => xs.map jsonBoolean

/-- A list as JSON: every element on a line of its own, four blanks in. -/
def Items.json (items : Items) : String :=
  match items.jsonElements with
  | [] => "[]"
  | elements =>
    "[\n" ++ String.intercalate ",\n" (elements.map fun e => "    " ++ e) ++ "\n  ]"

/-- A value as JSON. -/
def Value.json : Value → String
  | float x => jsonNumber x.value
  | integer n => toString n.toInt
  | string s => jsonText s
  | boolean b => jsonBoolean b
  | list items => items.json

/-- The answer in JSON to a formula. -/
def jsonAnswer (formula : String) (v : Value) : String :=
  let member := fun (name value : String) => "  " ++ jsonText name ++ ": " ++ value
  "\x7b\n" ++
    String.intercalate ",\n"
      [member "equation" (jsonText formula), member "kind" (jsonText v.kind.word),
        member "value" v.json] ++
    "\n\x7d\n"

/-! ### Descriptions of formulas -/

/-- The line of a variable. -/
def variableLine (defaults : Dict Value) (v : String × Kind) : String :=
  let default := match defaults.get? v.1 with
    | some d => " (default " ++ d.text ++ ")"
    | none => ""
  "  " ++ referenceText v.1 ++ " : " ++ v.2.name ++ default ++ "\n"

/-- The lines of the variables of a formula. -/
def Formula.variableLines (f : Formula) : String :=
  if f.kinds.isEmpty then "Variables: none\n"
  else "Variables:\n" ++ String.join (f.kinds.entries.map (variableLine f.defaults))

/-- The description of a formula: its text, the kind of its value, its variables and its code. -/
def Formula.description (f : Formula) : String :=
  "Equation: " ++ f.text ++ "\nResult:   " ++ f.resultKind.name ++ "\n" ++ f.variableLines ++
    "\n" ++ f.listing

/-- The line of a function: how it is called, filled up to forty columns, and what it does. -/
def Function.line (f : Function) : String := padRight 40 f.usage ++ " " ++ f.summary ++ "\n"

end TypedFormula
