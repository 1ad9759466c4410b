import TypedFormula.Formula

/-!
# Listings of code

A listing has a line for every instruction: its index in four columns, its offset in four columns
behind `@`, and the instruction with its operands. Texts are quoted, so that they stay on the
line.
-/

namespace TypedFormula

/-- An instruction as listings show it. -/
def Instruction.text : Instruction → String
  | push (.string s) => "PUSH " ++ Text.quoted s
  | push v => "PUSH " ++ v.text
  | load name kind => "LOAD " ++ referenceText name ++ " : " ++ kind.name
  | unary op => "UNARY " ++ op.symbol
  | binary op => "BINARY " ++ op.symbol
  | call name arity => "CALL " ++ name ++ "/" ++ toString arity

/-- A text filled up with blanks on the left. -/
def padLeft (width : Nat) (s : String) : String :=
  String.ofList (List.replicate (width - s.toList.length) ' ') ++ s

/-- A text filled up with blanks on the right. -/
def padRight (width : Nat) (s : String) : String :=
  s ++ String.ofList (List.replicate (width - s.toList.length) ' ')

/-- The line of an instruction. -/
def CodeUnit.line (index : Nat) (u : CodeUnit) : String :=
  padLeft 4 (toString index) ++ "  @" ++ padRight 4 (toString u.offset) ++ " " ++
    u.instruction.text

/-- The lines of code whose first instruction has an index. -/
def listingFrom (index : Nat) : List CodeUnit → String
  | [] => ""
  | u :: us => u.line index ++ "\n" ++ listingFrom (index + 1) us

/-- The listing of a formula. -/
def Formula.listing (f : Formula) : String := listingFrom 0 f.code

end TypedFormula
