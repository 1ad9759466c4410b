import TypedFormula.Expr.Typing
import TypedFormula.Token.Stream

/-!
# Parsing

From the tokens of a formula to its tree. Operators bind, from loose to tight: the comparisons,
`&`, `+` and `-`, `*` and `/`, all of them from the left; `^` from the right; the signs; and then
literals, references, calls and parentheses.

The parser may open a limited number of levels. Parentheses, the arguments of a call, a sign and
the right side of `^` need one level each while they are read, and so does every operator of a
chain until the chain ends. The procedures for some number of levels are made from those for one
level less, and only arguments behind commas recur at one level; so the parser ends.

The parser looks one token ahead: an error of reading a word appears when the token before it is
taken.
-/

namespace TypedFormula

/-! ### Taking tokens -/

/-- Moves on to the remaining tokens; a word that cannot be read and is next is an error. -/
def advance (ending : Except CompileError Nat) (rest : List Located) :
    Except CompileError (List Located) :=
  match rest, ending with
  | [], .error e => .error e
  | rest, _ => .ok rest

/-- An error at the end of the tokens. -/
def endError (ending : Except CompileError Nat) (cause : CompileCause) : CompileError :=
  match ending with
  | .ok offset => ⟨cause, offset⟩
  | .error e => e

/-- Takes a mark that must come next. -/
def expectMark (ending : Except CompileError Nat) (m : Mark) (tokens : List Located) :
    Except CompileError (List Located) :=
  match tokens with
  | [] => .error (endError ending (.expected m none))
  | t :: rest =>
    if t.token = .mark m then advance ending rest
    else .error ⟨.expected m (some t.token), t.offset⟩

/-- Whether a mark comes next. -/
def nextIs (m : Mark) (tokens : List Located) : Bool :=
  match tokens with
  | [] => false
  | t :: _ => decide (t.token = .mark m)

/-! ### Operators by precedence -/

/-- The levels of precedence of the operators that chain from the left. -/
inductive Precedence where
  /-- The comparisons. -/
  | comparison
  /-- The operator `&`. -/
  | concat
  /-- The operators `+` and `-`. -/
  | sum
  /-- The operators `*` and `/`. -/
  | product
deriving DecidableEq

/-- The operator of a precedence that a token is. -/
def Precedence.operator? : Precedence → Token → Option BinaryOperator
  | comparison, .mark .equal => some (.comparison .equal)
  | comparison, .mark .notEqual => some (.comparison .notEqual)
  | comparison, .mark .less => some (.comparison .less)
  | comparison, .mark .lessEqual => some (.comparison .lessEqual)
  | comparison, .mark .greater => some (.comparison .greater)
  | comparison, .mark .greaterEqual => some (.comparison .greaterEqual)
  | concat, .mark .ampersand => some .concat
  | sum, .mark .plus => some (.arithmetic .add)
  | sum, .mark .minus => some (.arithmetic .subtract)
  | product, .mark .star => some (.arithmetic .multiply)
  | product, .mark .slash => some (.arithmetic .divide)
  | _, _ => none

/-- The sign that a token is. -/
def sign? : Token → Option UnaryOperator
  | .mark .minus => some .negate
  | .mark .plus => some .plus
  | _ => none

/-! ### Procedures -/

/-- What a procedure of the parser gives: a tree and the tokens behind it. -/
abbrev Parsed := Except CompileError (Expr × List Located)

/-- The procedures of the parser for some number of levels. -/
structure Procedures where
  /-- Reads an expression. -/
  expression : List Located → Parsed
  /-- Reads an operand of the operators of a precedence. -/
  operand : Precedence → List Located → Parsed
  /-- Reads the operators of a precedence and their right operands, behind a left operand. -/
  chain : Precedence → Expr → List Located → Parsed
  /-- Reads an operand of `^`. -/
  signed : List Located → Parsed

/-- Opens a level: gives the procedures for one level less, if there is one. -/
def openLevel (inner : Option Procedures) (offset : Nat) : Except CompileError Procedures :=
  match inner with
  | none => .error ⟨.nestedTooDeeply, offset⟩
  | some procedures => .ok procedures

section

variable (scope : Scope) (ending : Except CompileError Nat) (inner : Option Procedures)

/-! ### Single operands -/

/-- Reads arguments that are separated by commas, one and at most `more` others. -/
def parseArguments (expression : List Located → Parsed) (more : Nat) (tokens : List Located) :
    Except CompileError (List Expr × List Located) :=
  match expression tokens with
  | .error e => .error e
  | .ok (arg, rest) =>
    if nextIs .comma rest then
      match more with
      | 0 => .ok ([arg], rest)
      | more + 1 =>
        match expectMark ending .comma rest with
        | .error e => .error e
        | .ok rest =>
          match parseArguments expression more rest with
          | .error e => .error e
          | .ok (args, rest) => .ok (arg :: args, rest)
    else .ok ([arg], rest)

/-- Reads arguments up to a closing parenthesis; there are fewer of them than tokens. -/
def parseOptionalArguments (expression : List Located → Parsed) (tokens : List Located) :
    Except CompileError (List Expr × List Located) :=
  if nextIs .rightParen tokens then .ok ([], tokens)
  else parseArguments ending expression tokens.length tokens

/-- Reads the arguments of a call between parentheses, behind the name of the function. -/
def parseCall (offset : Nat) (name : String) (tokens : List Located) : Parsed :=
  match scope.functions.lookup? name with
  | none => .error ⟨.unknownFunction name, offset⟩
  | some f =>
    match expectMark ending .leftParen tokens with
    | .error e => .error e
    | .ok rest =>
      match openLevel inner offset with
      | .error e => .error e
      | .ok level =>
        match parseOptionalArguments ending level.expression rest with
        | .error e => .error e
        | .ok (args, rest) =>
          match expectMark ending .rightParen rest with
          | .error e => .error e
          | .ok rest =>
            match typedCall offset name f args with
            | .error e => .error e
            | .ok node => .ok (node, rest)

/-- Reads an expression and the closing parenthesis behind it; the opening one is at an offset. -/
def parseParenthesized (offset : Nat) (tokens : List Located) : Parsed :=
  match openLevel inner offset with
  | .error e => .error e
  | .ok level =>
    match level.expression tokens with
    | .error e => .error e
    | .ok (node, rest) =>
      match expectMark ending .rightParen rest with
      | .error e => .error e
      | .ok rest => .ok (node, rest)

/-- Reads a literal, a reference, a call or an expression in parentheses. -/
def parseSingle (tokens : List Located) : Parsed :=
  match tokens with
  | [] => .error (endError ending .unexpectedEnd)
  | t :: rest =>
    match advance ending rest with
    | .error e => .error e
    | .ok rest =>
      match t.token with
      | .number x => .ok (.number t.offset x, rest)
      | .string s => .ok (.string t.offset s, rest)
      | .boolean b => .ok (.boolean t.offset b, rest)
      | .reference name default =>
        match typedReference scope t.offset name default with
        | .error e => .error e
        | .ok node => .ok (node, rest)
      | .identifier name =>
        if nextIs .leftParen rest then parseCall scope ending inner t.offset name rest
        else .error ⟨.unknownIdentifier name, t.offset⟩
      | .mark .leftParen => parseParenthesized ending inner t.offset rest
      | other => .error ⟨.unexpectedToken other, t.offset⟩

/-! ### Operators -/

/-- Reads an operand of `^`: signs in front of a single operand. -/
def parseSigned (tokens : List Located) : Parsed :=
  match tokens with
  | [] => parseSingle scope ending inner []
  | t :: rest =>
    match sign? t.token with
    | none => parseSingle scope ending inner (t :: rest)
    | some op =>
      match advance ending rest with
      | .error e => .error e
      | .ok rest =>
        match openLevel inner t.offset with
        | .error e => .error e
        | .ok level =>
          match level.signed rest with
          | .error e => .error e
          | .ok (operand, rest) =>
            match typedUnary t.offset op operand with
            | .error e => .error e
            | .ok node => .ok (node, rest)

/-- Reads an operand of `*` and `/`: a signed operand, perhaps raised to another such operand. -/
def parsePower (tokens : List Located) : Parsed :=
  match parseSigned scope ending inner tokens with
  | .error e => .error e
  | .ok (left, []) => .ok (left, [])
  | .ok (left, t :: rest) =>
    if t.token = .mark .caret then
      match advance ending rest with
      | .error e => .error e
      | .ok rest =>
        match openLevel inner t.offset with
        | .error e => .error e
        | .ok level =>
          match level.operand .product rest with
          | .error e => .error e
          | .ok (right, rest) =>
            match typedBinary t.offset (.arithmetic .power) left right with
            | .error e => .error e
            | .ok node => .ok (node, rest)
    else .ok (left, t :: rest)

/-- Reads the operators of a precedence and their right operands, behind a left operand. -/
def parseChain (p : Precedence) (left : Expr) (tokens : List Located) : Parsed :=
  match tokens with
  | [] => .ok (left, [])
  | t :: rest =>
    match p.operator? t.token with
    | none => .ok (left, t :: rest)
    | some op =>
      match advance ending rest with
      | .error e => .error e
      | .ok rest =>
        match openLevel inner t.offset with
        | .error e => .error e
        | .ok level =>
          match level.operand p rest with
          | .error e => .error e
          | .ok (right, rest) =>
            match typedBinary t.offset op left right with
            | .error e => .error e
            | .ok node => level.chain p node rest

/-- Reads an operand and what follows it of operators of a precedence. -/
def parseChained (p : Precedence) (operand : List Located → Parsed) (tokens : List Located) :
    Parsed :=
  match operand tokens with
  | .error e => .error e
  | .ok (left, rest) => parseChain ending inner p left rest

/-- Reads an operand of `+` and `-`. -/
def parseProduct : List Located → Parsed :=
  parseChained ending inner .product (parsePower scope ending inner)

/-- Reads an operand of `&`. -/
def parseSum : List Located → Parsed :=
  parseChained ending inner .sum (parseProduct scope ending inner)

/-- Reads an operand of the comparisons. -/
def parseConcat : List Located → Parsed :=
  parseChained ending inner .concat (parseSum scope ending inner)

/-- Reads an expression. -/
def parseComparison : List Located → Parsed :=
  parseChained ending inner .comparison (parseConcat scope ending inner)

/-- Reads an operand of the operators of a precedence. -/
def parseOperand : Precedence → List Located → Parsed
  | .comparison => parseConcat scope ending inner
  | .concat => parseSum scope ending inner
  | .sum => parseProduct scope ending inner
  | .product => parsePower scope ending inner

/-- The procedures that are made from those for one level less. -/
def proceduresAbove : Procedures :=
  ⟨parseComparison scope ending inner, parseOperand scope ending inner,
    parseChain ending inner, parseSigned scope ending inner⟩

/-- The procedures for some number of levels. -/
def procedures : Nat → Procedures
  | 0 => proceduresAbove scope ending none
  | levels + 1 => proceduresAbove scope ending (some (procedures levels))

end

/-! ### Formulas -/

/-- How many levels an expression may open. -/
def maxNesting : Nat := 256

/-- The tree of a formula: an equals sign behind blanks, and an expression up to the end. -/
def parseFormula (scope : Scope) (text : String) : Except CompileError Expr :=
  match skipBlanks 0 text.toList with
  | (offset, []) => .error ⟨.missingEquals, offset⟩
  | (offset, c :: rest) =>
    if c = '=' then
      let stream := tokenize (offset + 1) rest
      match advance stream.ending stream.tokens with
      | .error e => .error e
      | .ok tokens =>
        match (procedures scope stream.ending maxNesting).expression tokens with
        | .error e => .error e
        | .ok (node, []) => .ok node
        | .ok (_, t :: _) => .error ⟨.trailingToken t.token, t.offset⟩
    else .error ⟨.missingEquals, offset⟩

end TypedFormula
