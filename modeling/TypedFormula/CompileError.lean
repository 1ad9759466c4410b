import TypedFormula.Function
import TypedFormula.Token

/-!
# Errors of formulas

Why a text is no formula: a word that cannot be read, words in the wrong order, a name that is
not known, or operands and arguments of the wrong kind. Every error knows the byte offset in the
text that it is about.
-/

namespace TypedFormula

/-- Why a text is refused. -/
inductive CompileCause where
  /-- The first character that is no blank is not the equals sign. -/
  | missingEquals
  /-- A character starts no token. -/
  | unexpectedCharacter (c : Char)
  /-- A text has no closing quote. -/
  | unterminatedString
  /-- A backslash in a text stands before a character without that meaning. -/
  | invalidEscape (c : Char)
  /-- A dollar sign has no name after it. -/
  | missingVariableName
  /-- A reference has no closing brace. -/
  | unterminatedReference
  /-- The name between braces is empty. -/
  | emptyVariableName
  /-- A number is cut short or beyond the range of numbers. -/
  | invalidNumber (text : String)
  /-- The formula ends where an operand should start. -/
  | unexpectedEnd
  /-- A token stands where an operand should start. -/
  | unexpectedToken (found : Token)
  /-- A mark is missing before the next token or the end. -/
  | expected (mark : Mark) (found : Option Token)
  /-- A token follows the complete expression. -/
  | trailingToken (found : Token)
  /-- There are too many levels of nesting. -/
  | nestedTooDeeply
  /-- A name is neither a truth value nor followed by arguments. -/
  | unknownIdentifier (name : String)
  /-- No function has this name. -/
  | unknownFunction (name : String)
  /-- No variable has this name. -/
  | unknownVariable (name : String)
  /-- A variable that holds a list has a default. -/
  | listDefault (name : String) (kind : Kind)
  /-- The text of a default does not write a value of the variable's kind. -/
  | invalidDefault (text name : String) (kind : Kind)
  /-- Two references to a variable give different defaults. -/
  | conflictingDefaults (name : String) (first second : Value)
  /-- An operator does not take an operand of this kind. -/
  | operandKind (symbol : String) (kind : StaticKind)
  /-- The arguments do not match the function. -/
  | arguments (mismatch : CallMismatch)
deriving DecidableEq

/-- Why a text is refused, and where. -/
structure CompileError where
  /-- The cause. -/
  cause : CompileCause
  /-- The byte offset. -/
  offset : Nat
deriving DecidableEq

/-- The text of a cause. -/
def CompileCause.message : CompileCause → String
  | missingEquals => "Equation must start with '='"
  | unexpectedCharacter c => "Unexpected character '" ++ c.toString ++ "'"
  | unterminatedString => "Unterminated string"
  | invalidEscape c => "Invalid escape sequence '\\" ++ c.toString ++ "'"
  | missingVariableName => "Expected a variable name after '$'"
  | unterminatedReference => "Unterminated variable reference"
  | emptyVariableName => "Empty variable name"
  | invalidNumber text => "Invalid number '" ++ text ++ "'"
  | unexpectedEnd => "Unexpected end of equation"
  | unexpectedToken found => "Unexpected " ++ found.describe
  | expected mark found =>
    "Expected '" ++ mark.text ++ "', found " ++ describeNext found
  | trailingToken found => "Unexpected " ++ found.describe ++ " after expression"
  | nestedTooDeeply => "Equation is nested too deeply"
  | unknownIdentifier name => "Unknown identifier " ++ name
  | unknownFunction name => "Unknown function " ++ name
  | unknownVariable name => "Unknown variable reference \"" ++ referenceText name ++ "\""
  | listDefault name kind =>
    "Variable " ++ referenceText name ++ " is a " ++ kind.name ++ " and cannot have a default"
  | invalidDefault text name kind =>
    "Invalid default \"" ++ text ++ "\" for " ++ referenceText name ++ " of type " ++ kind.name
  | conflictingDefaults name first second =>
    "Conflicting defaults for " ++ referenceText name ++ ": " ++ first.text ++ " and " ++
      second.text
  | operandKind symbol kind =>
    "Operator " ++ symbol ++ " cannot be applied to a " ++ kind.name
  | arguments mismatch => mismatch.message

namespace CompileError

/-- The text of the cause. -/
def message (e : CompileError) : String := e.cause.message

/-- The text of the cause with the place. -/
def located (e : CompileError) : String :=
  e.message ++ " (at offset " ++ toString e.offset ++ ")"

end CompileError

end TypedFormula
