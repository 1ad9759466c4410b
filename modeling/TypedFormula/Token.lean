import TypedFormula.Decimal.Layout
import TypedFormula.Operator
import TypedFormula.Text.Quoted

/-!
# Tokens

The words of a formula: literals, references to variables, names of functions, and marks. A mark
may stand for an operator, depending on the place where it is found.
-/

namespace TypedFormula

/-- An operator sign or a sign that structures a formula. -/
inductive Mark where
  /-- The sign `+`. -/
  | plus
  /-- The sign `-`. -/
  | minus
  /-- The sign `*`. -/
  | star
  /-- The sign `/`. -/
  | slash
  /-- The sign `^`. -/
  | caret
  /-- The sign `&`. -/
  | ampersand
  /-- The sign `=`. -/
  | equal
  /-- The sign `<>`. -/
  | notEqual
  /-- The sign `<`. -/
  | less
  /-- The sign `<=`. -/
  | lessEqual
  /-- The sign `>`. -/
  | greater
  /-- The sign `>=`. -/
  | greaterEqual
  /-- The sign `,`. -/
  | comma
  /-- The sign `(`. -/
  | leftParen
  /-- The sign `)`. -/
  | rightParen
deriving DecidableEq

/-- How a mark is written. -/
def Mark.text : Mark → String
  | plus => "+"
  | minus => "-"
  | star => "*"
  | slash => "/"
  | caret => "^"
  | ampersand => "&"
  | equal => "="
  | notEqual => "<>"
  | less => "<"
  | lessEqual => "<="
  | greater => ">"
  | greaterEqual => ">="
  | comma => ","
  | leftParen => "("
  | rightParen => ")"

/-- A word of a formula. -/
inductive Token where
  /-- A number. -/
  | number (x : Float)
  /-- A text between quotes. -/
  | string (s : String)
  /-- A truth value. -/
  | boolean (b : Bool)
  /-- A reference to a variable, perhaps with the text of a default. -/
  | reference (name : String) (default : Option String)
  /-- A name that is no truth value. -/
  | identifier (name : String)
  /-- A mark. -/
  | mark (m : Mark)
deriving DecidableEq

/-- A variable as formulas refer to it. -/
def referenceText (name : String) : String := "$\x7b" ++ name ++ "\x7d"

/-- A token as messages describe it. -/
def Token.describe : Token → String
  | number x => "number " ++ Decimal.floatText x
  | string s => "string " ++ Text.quoted s
  | boolean b => if b then "TRUE" else "FALSE"
  | reference name _ => "variable " ++ referenceText name
  | identifier name => "identifier " ++ name
  | mark m => "'" ++ m.text ++ "'"

/-- A token, or the end of the formula, as messages describe it. -/
def describeNext : Option Token → String
  | some t => t.describe
  | none => "end of equation"

end TypedFormula
