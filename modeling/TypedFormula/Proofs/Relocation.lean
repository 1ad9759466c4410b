import Mathlib
import TypedFormula.Proofs.Code

/-!
# Offsets do not matter

Tokens carry offsets, and so do the nodes, the instructions and the errors that come from them. A
relocation gives every offset another one and leaves everything else as it is. Offsets are handed on
and never looked at: neither which token is taken, nor whether a level is left, nor whether operands
and arguments fit depends on one. So reading relocated tokens is relocating what is read, whether
this is a tree or an error, and for every function on offsets; and it is the same with compiling a
tree and with running code.

The offsets at which tokens stand are another matter, since they are counted by the scanners.

Main statements:

* `parseTokens_relocate` — trees and errors of relocated tokens;
* `Formula.ofExpr_relocate` — code and errors of a relocated tree;
* `Formula.run_relocate` — values and errors of relocated code.
-/

namespace TypedFormula

/-! ### Relocations -/

section

variable (g : Nat → Nat)

/-- A token at another offset. -/
def Located.relocate (t : Located) : Located := ⟨t.token, g t.offset⟩

/-- An error at another offset. -/
def CompileError.relocate (e : CompileError) : CompileError := ⟨e.cause, g e.offset⟩

/-- An instruction with another offset. -/
def CodeUnit.relocate (u : CodeUnit) : CodeUnit := ⟨u.instruction, g u.offset⟩

/-- A reference at another offset. -/
def Expr.Occurrence.relocate (o : Expr.Occurrence) : Expr.Occurrence :=
  { o with offset := g o.offset }

/-- An error of an evaluation at another offset. -/
def EvalError.relocate : EvalError → EvalError
  | .atOffset offset cause => .atOffset (g offset) cause
  | .malformed fault => .malformed fault

/-- A result that is mapped, or its error at another offset. -/
def relocateResult {α β : Type} (f : α → β) : Except CompileError α → Except CompileError β
  | .ok a => .ok (f a)
  | .error e => .error (e.relocate g)

/-- Tokens at other offsets, and what follows them. -/
def TokenStream.relocate (stream : TokenStream) : TokenStream :=
  ⟨stream.tokens.map (Located.relocate g), relocateResult g g stream.ending⟩

/-- A formula under another text, with other offsets in the code. -/
def Formula.relocate (text : String) (f : Formula) : Formula :=
  { f with text := text, code := f.code.map (CodeUnit.relocate g) }

namespace Expr

mutual

/-- A tree with other offsets. -/
def relocate : Expr → Expr
  | number offset x => number (g offset) x
  | string offset s => string (g offset) s
  | boolean offset b => boolean (g offset) b
  | reference offset name kind default => reference (g offset) name kind default
  | unary offset op operand => unary (g offset) op operand.relocate
  | binary offset op left right => binary (g offset) op left.relocate right.relocate
  | call offset name kind args => call (g offset) name kind (relocateAll args)

/-- Trees with other offsets. -/
def relocateAll : List Expr → List Expr
  | [] => []
  | e :: es => e.relocate :: relocateAll es

end

end Expr

/-- What a procedure of the parser gives, with other offsets. -/
def relocateParsed : Parsed → Parsed :=
  relocateResult g fun p => (p.1.relocate g, p.2.map (Located.relocate g))

end

variable {g : Nat → Nat}

@[simp] theorem relocateResult_ok {α β : Type} (f : α → β) (a : α) :
    relocateResult g f (.ok a) = .ok (f a) := rfl

@[simp] theorem relocateResult_error {α β : Type} (f : α → β) (e : CompileError) :
    relocateResult g f (.error e) = .error (e.relocate g) := rfl

@[simp] theorem relocateParsed_ok (p : Expr × List Located) : relocateParsed g (.ok p) =
    .ok (p.1.relocate g, p.2.map (Located.relocate g)) := rfl

@[simp] theorem relocateParsed_error (e : CompileError) :
    relocateParsed g (.error e) = .error (e.relocate g) := rfl

namespace Expr

private theorem relocateAll_eq_map (es : List Expr) : relocateAll g es = es.map (relocate g) := by
  induction es with
  | nil => rfl
  | cons e es ih => rw [relocateAll, ih, List.map_cons]

@[simp] theorem offset_relocate (e : Expr) : (e.relocate g).offset = g e.offset := by
  cases e <;> rfl

@[simp] theorem kind_relocate (e : Expr) : (e.relocate g).kind = e.kind := by
  cases e <;> rfl

private theorem map_kind_relocate (es : List Expr) :
    (es.map (relocate g)).map kind = es.map kind := by
  rw [List.map_map]
  exact List.map_congr_left fun e _ => e.kind_relocate

end Expr

/-! ### Typing -/

section

variable {scope : Scope} {offset : Nat} {name : String}

/-- Whether an operand is refused does not depend on offsets. -/
private theorem checkNumber_relocate (symbol : String) (operand : Expr) :
    checkNumber symbol (operand.relocate g) = relocateResult g id (checkNumber symbol operand) := by
  simp only [checkNumber, Expr.kind_relocate, Expr.offset_relocate]
  split <;> rfl

/-- Whether a binary operator refuses an operand does not depend on offsets. -/
private theorem checkOperand_relocate (op : BinaryOperator) (operand : Expr) :
    checkOperand op (operand.relocate g) = relocateResult g id (checkOperand op operand) := by
  have hsingle : ∀ symbol, checkSingle symbol (operand.relocate g) =
      relocateResult g id (checkSingle symbol operand) := by
    intro symbol
    simp only [checkSingle, Expr.kind_relocate, Expr.offset_relocate]
    split <;> rfl
  cases op with
  | arithmetic op => exact checkNumber_relocate op.symbol operand
  | concat => exact hsingle _
  | comparison op => exact hsingle _

private theorem typedUnary_relocate (op : UnaryOperator) (operand : Expr) :
    typedUnary (g offset) op (operand.relocate g) =
      relocateResult g (Expr.relocate g) (typedUnary offset op operand) := by
  rw [typedUnary, typedUnary, checkNumber_relocate]
  cases checkNumber op.symbol operand <;> rfl

private theorem typedBinary_relocate (op : BinaryOperator) (left right : Expr) :
    typedBinary (g offset) op (left.relocate g) (right.relocate g) =
      relocateResult g (Expr.relocate g) (typedBinary offset op left right) := by
  rw [typedBinary, typedBinary, checkOperand_relocate, checkOperand_relocate]
  cases checkOperand op left with
  | error e => rfl
  | ok _ => cases checkOperand op right <;> rfl

/-- A reference at another offset. -/
private theorem typedReference_relocate (default : Option String) :
    typedReference scope (g offset) name default =
      relocateResult g (Expr.relocate g) (typedReference scope offset name default) := by
  rw [typedReference, typedReference]
  cases scope.types.get? name with
  | none => rfl
  | some kind =>
    rcases default with _ | text
    · rfl
    · cases kind with
      | list k => rfl
      | scalar k =>
        simp only [typedDefault]
        cases readDefault? k text <;> rfl

/-- A mismatch is about a relocated argument, or about the name at its offset. -/
private theorem mismatchOffset_relocate (args : List Expr) (m : ArgumentMismatch) :
    mismatchOffset (g offset) (args.map (Expr.relocate g)) m =
      g (mismatchOffset offset args m) := by
  have hplace : ∀ index : Nat, (((args.map (Expr.relocate g))[index]?).map Expr.offset).getD
      (g offset) = g (((args[index]?).map Expr.offset).getD offset) := by
    intro index
    rw [List.getElem?_map]
    cases args[index]? with
    | none => rfl
    | some arg => exact arg.offset_relocate
  cases m with
  | tooFew _ _ => rfl
  | tooMany max _ => exact hplace max
  | wrongKind ordinal _ => exact hplace (ordinal - 1)

private theorem typedCall_relocate (f : Function) (args : List Expr) :
    typedCall (g offset) name f (args.map (Expr.relocate g)) =
      relocateResult g (Expr.relocate g) (typedCall offset name f args) := by
  simp only [typedCall, Expr.map_kind_relocate, mismatchOffset_relocate]
  cases f.checkArguments (args.map Expr.kind) with
  | error m => rfl
  | ok kind => simp only [relocateResult_ok, Expr.relocate, Expr.relocateAll_eq_map]

end

/-! ### Taking tokens -/

section

variable {ending : Except CompileError Nat} {tokens : List Located}

private theorem advance_relocate :
    advance (relocateResult g g ending) (tokens.map (Located.relocate g)) =
    relocateResult g (List.map (Located.relocate g)) (advance ending tokens) := by
  rcases tokens with _ | ⟨t, rest⟩ <;> cases ending <;> rfl

private theorem endError_relocate (cause : CompileCause) :
    endError (relocateResult g g ending) cause = (endError ending cause).relocate g := by
  cases ending <;> rfl

private theorem nextIs_relocate (m : Mark) :
    nextIs m (tokens.map (Located.relocate g)) = nextIs m tokens := by
  cases tokens <;> rfl

private theorem expectMark_relocate (m : Mark) :
    expectMark (relocateResult g g ending) m (tokens.map (Located.relocate g)) =
      relocateResult g (List.map (Located.relocate g)) (expectMark ending m tokens) := by
  rcases tokens with _ | ⟨t, rest⟩
  · simp only [List.map_nil, expectMark, endError_relocate, relocateResult_error]
  · simp only [List.map_cons, expectMark, Located.relocate]
    split
    · exact advance_relocate
    · rfl

end

/-! ### Procedures -/

/-- Procedures that give for relocated tokens what others give for the tokens, relocated. -/
structure Procedures.Relocate (g : Nat → Nat) (level level' : Procedures) : Prop where
  /-- Expressions. -/
  expression : ∀ tokens, level'.expression (tokens.map (Located.relocate g)) =
    relocateParsed g (level.expression tokens)
  /-- Operands. -/
  operand : ∀ p tokens, level'.operand p (tokens.map (Located.relocate g)) =
    relocateParsed g (level.operand p tokens)
  /-- Chains, behind a relocated left operand. -/
  chain : ∀ p left tokens, level'.chain p (left.relocate g) (tokens.map (Located.relocate g)) =
    relocateParsed g (level.chain p left tokens)
  /-- Signed operands. -/
  signed : ∀ tokens, level'.signed (tokens.map (Located.relocate g)) =
    relocateParsed g (level.signed tokens)

section

variable {scope : Scope} {ending : Except CompileError Nat} {inner inner' : Option Procedures}
  {expression expression' : List Located → Parsed}

/-- Arguments between relocated commas. -/
private theorem parseArguments_relocate
    (h : ∀ tokens, expression' (tokens.map (Located.relocate g)) =
      relocateParsed g (expression tokens)) (more : Nat) (tokens : List Located) :
    parseArguments (relocateResult g g ending) expression' more (tokens.map (Located.relocate g)) =
      relocateResult g (fun p => (p.1.map (Expr.relocate g), p.2.map (Located.relocate g)))
        (parseArguments ending expression more tokens) := by
  induction more generalizing tokens with
  | zero =>
    rw [parseArguments, parseArguments, h]
    cases expression tokens with
    | error e => rfl
    | ok p =>
      simp only [relocateParsed_ok, nextIs_relocate]
      split <;> rfl
  | succ more ih =>
    rw [parseArguments, parseArguments, h]
    cases expression tokens with
    | error e => rfl
    | ok p =>
      simp only [relocateParsed_ok, nextIs_relocate, expectMark_relocate]
      split
      · cases expectMark ending .comma p.2 with
        | error e => rfl
        | ok rest =>
          simp only [relocateResult_ok, ih]
          cases parseArguments ending expression more rest <;> rfl
      · rfl

private theorem parseOptionalArguments_relocate
    (h : ∀ tokens, expression' (tokens.map (Located.relocate g)) =
      relocateParsed g (expression tokens)) (tokens : List Located) :
    parseOptionalArguments (relocateResult g g ending) expression'
        (tokens.map (Located.relocate g)) =
      relocateResult g (fun p => (p.1.map (Expr.relocate g), p.2.map (Located.relocate g)))
        (parseOptionalArguments ending expression tokens) := by
  rw [parseOptionalArguments, parseOptionalArguments, nextIs_relocate]
  split
  · rfl
  · rw [List.length_map]
    exact parseArguments_relocate h _ tokens

variable (hinner : Option.Rel (Procedures.Relocate g) inner inner') (tokens : List Located)

include hinner

/-- A call of a function at another offset. -/
private theorem parseCall_relocate (offset : Nat) (name : String) :
    parseCall scope (relocateResult g g ending) inner' (g offset) name
        (tokens.map (Located.relocate g)) =
      relocateParsed g (parseCall scope ending inner offset name tokens) := by
  rw [parseCall, parseCall]
  cases scope.functions.lookup? name with
  | none => rfl
  | some f =>
    simp only [expectMark_relocate]
    cases expectMark ending .leftParen tokens with
    | error e => rfl
    | ok rest =>
      cases hinner with
      | none => rfl
      | some hlevel =>
        simp only [relocateResult_ok, openLevel, parseOptionalArguments_relocate hlevel.expression]
        rename_i level level'
        cases parseOptionalArguments ending level.expression rest with
        | error e => rfl
        | ok p =>
          simp only [relocateResult_ok, expectMark_relocate]
          cases expectMark ending .rightParen p.2 with
          | error e => rfl
          | ok rest =>
            simp only [relocateResult_ok, typedCall_relocate]
            cases typedCall offset name f p.1 <;> rfl

/-- An expression between relocated parentheses. -/
private theorem parseParenthesized_relocate (offset : Nat) :
    parseParenthesized (relocateResult g g ending) inner' (g offset)
        (tokens.map (Located.relocate g)) =
      relocateParsed g (parseParenthesized ending inner offset tokens) := by
  rw [parseParenthesized, parseParenthesized]
  cases hinner with
  | none => rfl
  | some hlevel =>
    rename_i level level'
    simp only [openLevel, hlevel.expression]
    cases level.expression tokens with
    | error e => rfl
    | ok p =>
      simp only [relocateParsed_ok, expectMark_relocate]
      cases expectMark ending .rightParen p.2 <;> rfl

/-- A single operand from relocated tokens. -/
private theorem parseSingle_relocate :
    parseSingle scope (relocateResult g g ending) inner' (tokens.map (Located.relocate g)) =
      relocateParsed g (parseSingle scope ending inner tokens) := by
  rcases tokens with _ | ⟨⟨t, offset⟩, rest⟩
  · simp only [List.map_nil, parseSingle, endError_relocate, relocateParsed_error]
  · rw [List.map_cons, parseSingle, parseSingle, advance_relocate]
    cases advance ending rest with
    | error e => rfl
    | ok rest =>
      simp only [relocateResult_ok, Located.relocate]
      cases t with
      | reference name default =>
        simp only [typedReference_relocate]
        cases typedReference scope offset name default <;> rfl
      | identifier name =>
        simp only [nextIs_relocate]
        split
        · exact parseCall_relocate hinner rest offset name
        · rfl
      | mark m =>
        cases m with
        | leftParen => exact parseParenthesized_relocate hinner rest offset
        | _ => rfl
      | _ => rfl

/-- Signs before an operand, on relocated tokens. -/
private theorem parseSigned_relocate :
    parseSigned scope (relocateResult g g ending) inner' (tokens.map (Located.relocate g)) =
      relocateParsed g (parseSigned scope ending inner tokens) := by
  rcases tokens with _ | ⟨⟨t, offset⟩, rest⟩
  · have hsingle : parseSingle scope (relocateResult g g ending) inner' [] =
        relocateParsed g (parseSingle scope ending inner []) := parseSingle_relocate hinner []
    exact hsingle
  · rw [List.map_cons, parseSigned, parseSigned, advance_relocate]
    simp only [Located.relocate]
    cases sign? t with
    | none => exact parseSingle_relocate hinner (⟨t, offset⟩ :: rest)
    | some op =>
      cases advance ending rest with
      | error e => rfl
      | ok rest =>
        cases hinner with
        | none => rfl
        | some hlevel =>
          rename_i level level'
          simp only [relocateResult_ok, openLevel, hlevel.signed]
          cases level.signed rest with
          | error e => rfl
          | ok p =>
            simp only [relocateParsed_ok, typedUnary_relocate]
            cases typedUnary offset op p.1 <;> rfl

/-- A power from relocated tokens. -/
private theorem parsePower_relocate :
    parsePower scope (relocateResult g g ending) inner' (tokens.map (Located.relocate g)) =
      relocateParsed g (parsePower scope ending inner tokens) := by
  rw [parsePower, parsePower, parseSigned_relocate hinner]
  cases parseSigned scope ending inner tokens with
  | error e => rfl
  | ok p =>
    obtain ⟨left, _ | ⟨⟨t, offset⟩, rest⟩⟩ := p
    · rfl
    · simp only [relocateParsed_ok, List.map_cons, Located.relocate]
      split
      · rw [advance_relocate]
        cases advance ending rest with
        | error e => rfl
        | ok rest =>
          cases hinner with
          | none => rfl
          | some hlevel =>
            rename_i level level'
            simp only [relocateResult_ok, openLevel, hlevel.operand]
            cases level.operand .product rest with
            | error e => rfl
            | ok p =>
              simp only [relocateParsed_ok, typedBinary_relocate]
              cases typedBinary offset (.arithmetic .power) left p.1 <;> rfl
      · rfl

/-- A chain behind a relocated left operand. -/
private theorem parseChain_relocate (p : Precedence) (left : Expr) :
    parseChain (relocateResult g g ending) inner' p (left.relocate g)
        (tokens.map (Located.relocate g)) =
      relocateParsed g (parseChain ending inner p left tokens) := by
  rcases tokens with _ | ⟨⟨t, offset⟩, rest⟩
  · rfl
  · rw [List.map_cons, parseChain, parseChain, advance_relocate]
    simp only [Located.relocate]
    cases p.operator? t with
    | none => rfl
    | some op =>
      cases advance ending rest with
      | error e => rfl
      | ok rest =>
        cases hinner with
        | none => rfl
        | some hlevel =>
          rename_i level level'
          simp only [relocateResult_ok, openLevel, hlevel.operand]
          cases level.operand p rest with
          | error e => rfl
          | ok q =>
            simp only [relocateParsed_ok, typedBinary_relocate]
            cases typedBinary offset op left q.1 with
            | error e => rfl
            | ok node => exact hlevel.chain p node q.2

private theorem parseChained_relocate {operand operand' : List Located → Parsed} (p : Precedence)
    (h : operand' (tokens.map (Located.relocate g)) = relocateParsed g (operand tokens)) :
    parseChained (relocateResult g g ending) inner' p operand' (tokens.map (Located.relocate g)) =
      relocateParsed g (parseChained ending inner p operand tokens) := by
  rw [parseChained, parseChained, h]
  cases operand tokens with
  | error e => rfl
  | ok q => exact parseChain_relocate hinner q.2 p q.1

/-- The procedures for one level more. -/
private theorem proceduresAbove_relocate :
    Procedures.Relocate g (proceduresAbove scope ending inner)
    (proceduresAbove scope (relocateResult g g ending) inner') := by
  have hpower : ∀ tokens, parsePower scope (relocateResult g g ending) inner'
      (tokens.map (Located.relocate g)) =
        relocateParsed g (parsePower scope ending inner tokens) := parsePower_relocate hinner
  have hproduct : ∀ tokens, parseProduct scope (relocateResult g g ending) inner'
      (tokens.map (Located.relocate g)) =
        relocateParsed g (parseProduct scope ending inner tokens) :=
    fun tokens => parseChained_relocate hinner tokens .product (hpower tokens)
  have hsum : ∀ tokens, parseSum scope (relocateResult g g ending) inner'
      (tokens.map (Located.relocate g)) =
        relocateParsed g (parseSum scope ending inner tokens) :=
    fun tokens => parseChained_relocate hinner tokens .sum (hproduct tokens)
  have hconcat : ∀ tokens, parseConcat scope (relocateResult g g ending) inner'
      (tokens.map (Located.relocate g)) =
        relocateParsed g (parseConcat scope ending inner tokens) :=
    fun tokens => parseChained_relocate hinner tokens .concat (hsum tokens)
  refine ⟨fun tokens => parseChained_relocate hinner tokens .comparison (hconcat tokens), ?_,
    fun p left tokens => parseChain_relocate hinner tokens p left, parseSigned_relocate hinner⟩
  intro p tokens
  cases p with
  | comparison => exact hconcat tokens
  | concat => exact hsum tokens
  | sum => exact hproduct tokens
  | product => exact hpower tokens

end

private theorem procedures_relocate (scope : Scope) (ending : Except CompileError Nat)
    (levels : Nat) :
    Procedures.Relocate g (procedures scope ending levels)
      (procedures scope (relocateResult g g ending) levels) := by
  induction levels with
  | zero => exact proceduresAbove_relocate .none
  | succ levels ih => exact proceduresAbove_relocate (.some ih)

/-! ### Trees -/

/-- Relocated tokens have the relocated tree, or the relocated error. -/
theorem parseTokens_relocate (scope : Scope) (stream : TokenStream) :
    parseTokens scope (stream.relocate g) =
      relocateResult g (Expr.relocate g) (parseTokens scope stream) := by
  rw [parseTokens, parseTokens, TokenStream.relocate, advance_relocate]
  cases advance stream.ending stream.tokens with
  | error e => rfl
  | ok tokens =>
    simp only [relocateResult_ok, (procedures_relocate scope stream.ending _).expression]
    cases (procedures scope stream.ending maxNesting).expression tokens with
    | error e => rfl
    | ok p => obtain ⟨node, _ | ⟨t, rest⟩⟩ := p <;> rfl

/-! ### Code -/

/-- The code of a relocated tree. -/
private theorem Expr.code_relocate (e : Expr) :
    (e.relocate g).code = e.code.map (CodeUnit.relocate g) := by
  induction e using Expr.induction with
  | unary offset op operand ih => rw [relocate, code, code, ih, List.map_append]; rfl
  | binary offset op left right ihleft ihright =>
    rw [relocate, code, code, ihleft, ihright, List.map_append, List.map_append]
    rfl
  | call offset name kind args ih =>
    have hargs : codes (args.map (relocate g)) = (codes args).map (CodeUnit.relocate g) := by
      rw [codes_eq_flatMap, codes_eq_flatMap, List.flatMap_map, List.map_flatMap]
      exact List.flatMap_congr ih
    rw [relocate, relocateAll_eq_map, code, code, hargs, List.length_map, List.map_append]
    rfl
  | _ => rfl

private theorem Expr.occurrences_relocate (e : Expr) :
    (e.relocate g).occurrences = e.occurrences.map (Occurrence.relocate g) := by
  induction e using Expr.induction with
  | unary offset op operand ih => exact ih
  | binary offset op left right ihleft ihright =>
    rw [relocate, occurrences, occurrences, ihleft, ihright, List.map_append]
  | call offset name kind args ih =>
    rw [relocate, relocateAll_eq_map, occurrences, occurrences, allOccurrences_eq_flatMap,
      allOccurrences_eq_flatMap, List.flatMap_map, List.map_flatMap]
    exact List.flatMap_congr ih
  | _ => rfl

/-- Collecting relocated references. -/
private theorem Variables.add_relocate (vs : Variables) (os : List Expr.Occurrence) :
    vs.add (os.map (Expr.Occurrence.relocate g)) = relocateResult g id (vs.add os) := by
  induction os generalizing vs with
  | nil => rfl
  | cons o os ih =>
    have hdefault : addDefault vs.defaults (o.relocate g) =
        relocateResult g id (addDefault vs.defaults o) := by
      rw [addDefault, addDefault, Expr.Occurrence.relocate]
      rcases o.default with _ | v
      · rfl
      · simp only
        cases vs.defaults.get? o.name with
        | none => rfl
        | some first =>
          simp only
          split <;> rfl
    rw [List.map_cons, add, add, hdefault]
    cases addDefault vs.defaults o with
    | error e => rfl
    | ok defaults => exact ih _

/-- Compiling a relocated tree, under another text. -/
theorem Formula.ofExpr_relocate (text text' : String) (e : Expr) :
    ofExpr text' (e.relocate g) = relocateResult g (relocate g text') (ofExpr text e) := by
  rw [ofExpr, ofExpr, Expr.occurrences_relocate, Variables.add_relocate]
  cases Variables.empty.add e.occurrences with
  | error err => rfl
  | ok vs => simp only [relocateResult_ok, relocate, Expr.code_relocate, Expr.kind_relocate, id]

/-! ### Runs -/

/-- A result of a run, or its error at another offset. -/
def relocateRun {α : Type} (g : Nat → Nat) : Except EvalError α → Except EvalError α
  | .ok a => .ok a
  | .error e => .error (e.relocate g)

/-- A step with an instruction at another offset. -/
private theorem step_relocate (env : Environment) (position : Nat) (u : CodeUnit)
    (stack : List Value) :
    step env position (u.relocate g) stack = relocateRun g (step env position u stack) := by
  have hpush : ∀ (stack : List Value) (result : Except EvalCause Value),
      pushResult (g u.offset) stack result = relocateRun g (pushResult u.offset stack result) := by
    intro stack result
    cases result <;> rfl
  obtain ⟨i, offset⟩ := u
  cases i with
  | push v => rfl
  | load name kind => exact hpush _ _
  | unary op =>
    cases stack with
    | nil => rfl
    | cons v stack => exact hpush _ _
  | binary op =>
    rcases stack with _ | ⟨right, _ | ⟨left, stack⟩⟩
    · rfl
    · rfl
    · exact hpush _ _
  | call name arity =>
    simp only [CodeUnit.relocate, step]
    split
    · rfl
    · exact hpush _ _

private theorem execute_relocate (env : Environment) (position : Nat) (us : List CodeUnit)
    (stack : List Value) :
    execute env position (us.map (CodeUnit.relocate g)) stack =
      relocateRun g (execute env position us stack) := by
  induction us generalizing position stack with
  | nil => rfl
  | cons u us ih =>
    rw [List.map_cons, execute, execute, step_relocate]
    cases step env position u stack with
    | error e => rfl
    | ok stack => exact ih (position + 1) stack

/-- Runs of a relocated formula have the same values, and the same errors at other offsets. -/
theorem Formula.run_relocate (functions : Registry) (f : Formula) (text : String)
    (binding : Binding) :
    (f.relocate g text).run functions binding = relocateRun g (f.run functions binding) := by
  rw [run, run, relocate, execute_relocate, List.length_map]
  cases execute ⟨functions, f.defaults.get?, binding⟩ 0 f.code [] with
  | error e => rfl
  | ok stack => rcases stack with _ | ⟨v, _ | ⟨w, stack⟩⟩ <;> rfl

end TypedFormula
