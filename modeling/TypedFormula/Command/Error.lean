import TypedFormula.CompileError
import TypedFormula.Evaluation
import TypedFormula.Flatten

/-!
# Errors of the command

Why the command cannot answer, and the report that it prints then: a message, and behind it the
chain of causes, each on a line of its own and numbered if there are several. An error of a
formula is shown under the formula, with a mark at the column of its offset.
-/

namespace TypedFormula

/-! ### Causes -/

/-- Why a value given for a variable cannot be its value. -/
inductive ValueFault where
  /-- The value does not convert to the scalar kind. -/
  | scalar (source : ConversionError)
  /-- An element does not convert to the scalar kind of the list. -/
  | element (source : FlattenError)
  /-- A list was asked for. -/
  | notList (expected actual : Kind)
deriving DecidableEq

/-- Why a file cannot be read. -/
inductive FileFault where
  /-- There is no file. -/
  | missing
  /-- The file may not be read. -/
  | denied
  /-- The path leads to a directory. -/
  | directory
  /-- The bytes of the file are no text. -/
  | notText
  /-- A reason of the system. -/
  | other (text : String)
deriving DecidableEq

/-- Why the command cannot answer. -/
inductive CommandError where
  /-- A variable is given without an equals sign. -/
  | expectedValue (given : String)
  /-- A variable is declared without a colon. -/
  | expectedKind (given : String)
  /-- A variable is declared without a name. -/
  | emptyName (given : String)
  /-- A word names no kind. -/
  | unknownKind (word name : String)
  /-- The value given for a variable cannot be its value. -/
  | badValue (name : String) (fault : ValueFault)
  /-- The value in the file for a variable cannot be its value. -/
  | badFileValue (name : String) (fault : ValueFault)
  /-- The file of bindings cannot be read. -/
  | unreadableFile (path : String) (fault : FileFault)
  /-- The file of bindings does not hold bindings. -/
  | malformedFile (path : String)
  /-- The formula does not compile. -/
  | compile (formula : String) (source : CompileError)
  /-- The formula does not evaluate. -/
  | evaluation (formula : String) (source : EvalError)
deriving DecidableEq

/-! ### Messages -/

/-- The text of a fault, and the text of its cause if that is another one. -/
def ValueFault.messages : ValueFault → List String
  | scalar source => [source.message]
  | element source => [source.message, source.source.message]
  | notList expected actual => ["expected a " ++ expected.name ++ ", got " ++ actual.name]

/-- The text of a fault. -/
def FileFault.message : FileFault → String
  | missing => "No such file or directory (os error 2)"
  | denied => "Permission denied (os error 13)"
  | directory => "Is a directory (os error 21)"
  | notText => "stream did not contain valid UTF-8"
  | other text => text

/-- The number of characters before a byte offset, if the offset lies between characters. -/
def columnAt? (offset : Nat) : List Char → Option Nat
  | [] => if offset = 0 then some 0 else none
  | c :: cs =>
    if offset = 0 then some 0
    else if offset < c.utf8Size then none
    else (columnAt? (offset - c.utf8Size) cs).map (· + 1)

/-- A message above a formula with a mark under the character at an offset. -/
def underlined (message formula : String) (offset : Nat) : String :=
  let column := (columnAt? offset formula.toList).getD offset
  message ++ "\n  " ++ formula ++ "\n  " ++ String.ofList (List.replicate column ' ') ++ "^"

namespace CommandError

/-- The message of an error. -/
def message : CommandError → String
  | expectedValue given => "Expected NAME:KIND=VALUE, got '" ++ given ++ "'"
  | expectedKind given => "Expected NAME:KIND, got '" ++ given ++ "'"
  | emptyName given => "Empty variable name in '" ++ given ++ "'"
  | unknownKind word name => "Unknown kind '" ++ word ++ "' for '" ++ name ++ "'"
  | badValue name _ => "Invalid value for '" ++ name ++ "'"
  | badFileValue name _ => "Invalid value for '" ++ name ++ "' in bindings file"
  | unreadableFile path _ => "Failed to read '" ++ path ++ "'"
  | malformedFile path => "Failed to parse '" ++ path ++ "'"
  | compile formula source => underlined source.located formula source.offset
  | evaluation formula source =>
    match source.offset? with
    | some offset => underlined source.message formula offset
    | none => source.message

/-- The causes of an error, from the nearest on. -/
def causes : CommandError → List String
  | badValue _ fault => fault.messages
  | badFileValue _ fault => fault.messages
  | unreadableFile _ fault => [fault.message]
  | _ => []

end CommandError

/-! ### Reports -/

/-- A text with blanks before every line but the first. -/
def indentLines (width : Nat) (s : String) : String :=
  let more := fun c => if c = '\n' then '\n' :: List.replicate width ' ' else [c]
  String.ofList (s.toList.flatMap more)

/-- The lines of several causes, numbered from a number on. -/
def numberedCauses : Nat → List String → String
  | _, [] => ""
  | n, cause :: more =>
    let number := toString n
    "\n" ++ String.ofList (List.replicate (5 - number.length) ' ') ++ number ++ ": " ++
      indentLines 7 cause ++ numberedCauses (n + 1) more

/-- The lines of causes: one alone has no number. -/
def causeLines : List String → String
  | [] => ""
  | [cause] => "\n\nCaused by:\n    " ++ indentLines 4 cause
  | causes => "\n\nCaused by:" ++ numberedCauses 0 causes

/-- The report of an error. -/
def CommandError.report (e : CommandError) : String :=
  "Error: " ++ e.message ++ causeLines e.causes ++ "\n"

end TypedFormula
