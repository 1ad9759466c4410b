import TypedFormula.Command.Answer
import TypedFormula.Command.Variables
import TypedFormula.Formula.Machine
import TypedFormula.Json.Reader
import TypedFormula.Library

/-!
# The command

The command evaluates a formula, describes it, or lists the functions of the library. What it
prints and the code it exits with follow from the request alone, where a request holds what
reading the file of bindings gave. The variables come first: an error in them hides errors of the
formula.

The logarithms of the library and the reader of the file are parameters throughout.
-/

namespace TypedFormula

/-- What the command is asked for. -/
inductive Request where
  /-- The value of a formula, as JSON if so asked. -/
  | eval (formula : String) (sources : VariableSources) (json : Bool)
  /-- The description of a formula. -/
  | check (formula : String) (sources : VariableSources)
  /-- The list of functions. -/
  | functions

/-- What the command leaves behind. -/
structure Outcome where
  /-- The exit code. -/
  code : Nat
  /-- The answer. -/
  output : String
  /-- The report of an error. -/
  report : String
deriving DecidableEq

section

variable [Binary64.Logarithms] [JsonReader]

/-- A text compiled with the variables from some sources, and the values of these variables. -/
def compileWith (formula : String) (sources : VariableSources) :
    Except CommandError (Formula × Binding) := do
  let a ← sources.assignment
  match Formula.compile ⟨a.types, .library⟩ formula with
  | .error e => throw (.compile formula e)
  | .ok f => return (f, a.binding)

namespace Request

/-- The answer to a request. -/
def answer : Request → Except CommandError String
  | eval formula sources json => do
    let (f, binding) ← compileWith formula sources
    match f.run .library binding with
    | .error e => throw (.evaluation formula e)
    | .ok v => return if json then jsonAnswer formula v else v.text ++ "\n"
  | check formula sources => do
    let (f, _) ← compileWith formula sources
    return f.description
  | functions => return String.join (Registry.library.toList.map Function.line)

/-- What the command leaves behind after a request. -/
def outcome (r : Request) : Outcome :=
  match r.answer with
  | .ok output => ⟨0, output, ""⟩
  | .error e => ⟨1, "", e.report⟩

end Request

end

end TypedFormula
