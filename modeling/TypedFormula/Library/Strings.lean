import TypedFormula.Function.Argument
import TypedFormula.Library.Numbers
import TypedFormula.Text.LetterCase
import TypedFormula.Text.Occurrences

/-!
# Library functions on texts

Joining, cutting, letter case, replacement and reading of texts. Positions and counts are in
characters; positions count from one.
-/

namespace TypedFormula.Library

/-! ### Parts of texts -/

/-- The first characters of a text. -/
def takeLeft (n : Nat) (chars : List Char) : List Char := chars.take n

/-- The last characters of a text. -/
def takeRight (n : Nat) (chars : List Char) : List Char := chars.drop (chars.length - n)

/-- Characters of a text from a place on that counts from zero. -/
def takeMiddle (skip n : Nat) (chars : List Char) : List Char := (chars.drop skip).take n

/-- The argument at an index as a count, which is 1 when it is left out. -/
def countArgument (args : List Value) (index : Nat) : Except FunctionError Nat :=
  if args.length ≤ index then .ok 1
  else do
    let n ← integerArgument args index
    if n < 0 then .error (.argument (index + 1) .negativeCount) else return n.toNat

/-! ### Bodies -/

/-- The texts of arguments from a number on, joined. -/
def concatenateFrom : Nat → List Value → Except FunctionError String
  | _, [] => .ok ""
  | index, v :: vs => do
    let s ← blame index v.toText
    let t ← concatenateFrom (index + 1) vs
    return s ++ t

/-- The texts of all arguments, joined. -/
def concatenate (args : List Value) : Except FunctionError Value := do
  let s ← concatenateFrom 0 args
  return .string s

/-- The first characters of a text. -/
def left (args : List Value) : Except FunctionError Value := do
  let s ← textArgument args 0
  let n ← countArgument args 1
  return .string (String.ofList (takeLeft n s.toList))

/-- The last characters of a text. -/
def right (args : List Value) : Except FunctionError Value := do
  let s ← textArgument args 0
  let n ← countArgument args 1
  return .string (String.ofList (takeRight n s.toList))

/-- The number of characters of a text. -/
def len (args : List Value) : Except FunctionError Value := do
  let s ← textArgument args 0
  return .integer (Int64.ofNat s.toList.length)

/-- A text in lower case. -/
def lower (args : List Value) : Except FunctionError Value := do
  let s ← textArgument args 0
  return .string (Text.lower s)

/-- A text in upper case. -/
def upper (args : List Value) : Except FunctionError Value := do
  let s ← textArgument args 0
  return .string (Text.upper s)

/-- Characters from the middle of a text. -/
def mid (args : List Value) : Except FunctionError Value := do
  let s ← textArgument args 0
  let start ← integerArgument args 1
  let n ← integerArgument args 2
  if start < 1 then .error (.argument 2 .startBeforeFirst)
  else if n < 0 then .error (.argument 3 .negativeCount)
  else return .string (String.ofList (takeMiddle (start - 1).toNat n.toNat s.toList))

/-- The number of the occurrence to replace, if one is given. -/
def instanceArgument (args : List Value) : Except FunctionError (Option Nat) :=
  if 3 < args.length then do
    let n ← integerArgument args 3
    if n < 1 then .error (.argument 4 .instanceBeforeFirst) else return some (n - 1).toNat
  else .ok none

/-- A text with all occurrences of another text replaced, or with one of them. -/
def substitute (args : List Value) : Except FunctionError Value := do
  let s ← textArgument args 0
  let old ← textArgument args 1
  let new ← textArgument args 2
  match ← instanceArgument args with
  | none => return .string (String.ofList (Text.replaceAll old.toList new.toList s.toList))
  | some n => return .string (String.ofList (Text.replaceNth old.toList new.toList n s.toList))

/-- The number that a text writes. -/
def value (args : List Value) : Except FunctionError Value := do
  let x ← numberArgument args 0
  return .float x

/-! ### Signatures -/

/-- A function that gives a text. -/
def stringFunction (name summary : String) (parameters : List Parameter)
    (body : List Value → Except FunctionError Value) : Function :=
  ⟨name, summary, parameters, .known .string, none, body⟩

/-- The library functions on texts. -/
def stringFunctions : List Function :=
  [stringFunction "CONCATENATE" "Joins the text of several values."
     [.atLeastOne "values" .scalar] concatenate,
   stringFunction "LEFT" "Returns the first characters of a text (default 1)."
     [.one "text" .scalar, .atMostOne "count" .number] left,
   ⟨"LEN", "Returns the number of characters in a text.", [.one "text" .scalar],
     .known .integer, none, len⟩,
   stringFunction "LOWER" "Converts a text to lowercase." [.one "text" .scalar] lower,
   stringFunction "MID" "Returns count characters of a text starting at a 1-based position."
     [.one "text" .scalar, .one "start" .number, .one "count" .number] mid,
   stringFunction "RIGHT" "Returns the last characters of a text (default 1)."
     [.one "text" .scalar, .atMostOne "count" .number] right,
   stringFunction "SUBSTITUTE"
     "Replaces occurrences of a text (or only the nth one) with another."
     [.one "text" .scalar, .one "old" .scalar, .one "new" .scalar, .atMostOne "instance" .number]
     substitute,
   stringFunction "UPPER" "Converts a text to uppercase." [.one "text" .scalar] upper,
   floatFunction "VALUE" "Converts a text to a number." [.one "text" .scalar] value]

end TypedFormula.Library
