import Mathlib
import TypedFormula.Proofs.Parsing

/-!
# The parser, step by step

The procedures of the parser call each other, and what they have open while they do so is nowhere to
be seen. Here the calls are frames on a stack and the parser takes steps (`step`). A configuration
shows which procedure is entered or returns, or that a loop is about to go on, together with the
procedures that wait, the place in the text and the number of open levels. Levels are counted up and
down, and nothing in the definition keeps the count from falling below zero: closing a level that is
not open is a way to stop (`Stop.underflow`).

The parser has always read one token that it has not taken yet. A `Cursor` is this token with its
offset, and the place behind it; `Cursor.read` moves on.

Main statement: `effect_of_step` — what a step can do to the cursor, to the levels and to the
weight of a configuration, which bounds the number of steps to the next token.
-/

namespace TypedFormula.ParserRun

/-! ### Places in a text -/

/-- A token that was read, and the place behind it. -/
structure Cursor where
  /-- The token, unless the text ends. -/
  token : Option Token
  /-- The byte offset of the token, or of the end. -/
  start : Nat
  /-- The byte offset behind the token. -/
  pos : Nat
  /-- The characters behind the token. -/
  rest : List Char
deriving DecidableEq

/-- Reads the token behind blanks. -/
def Cursor.read (pos : Nat) (chars : List Char) : Except CompileError Cursor :=
  match skipBlanks pos chars with
  | (start, []) => .ok ⟨none, start, start, []⟩
  | (start, c :: rest) =>
    match scan start c rest with
    | .error e => .error e
    | .ok s => .ok ⟨some s.value, start, s.next, s.rest⟩

/-- Takes the token, and reads the one behind it. -/
def Cursor.consume (cur : Cursor) : Except CompileError Cursor := read cur.pos cur.rest

/-! ### Configurations -/

/-- What the parser is about to do. -/
inductive Control where
  /-- A procedure is entered, for a category. -/
  | enter (c : Category)
  /-- The procedure for calls is entered, behind the name of the function. -/
  | call (offset : Nat) (name : String)
  /-- A loop over the operators of a precedence goes on, behind a left operand. -/
  | link (p : Precedence) (left : Expr) (levels : Nat)
  /-- All arguments of a call are read. -/
  | close (offset : Nat) (name : String) (f : Function) (args : List Expr)
  /-- A procedure returns. -/
  | done (e : Expr)

/-- A procedure that waits for another one. -/
inductive Frame where
  /-- For the first operand of a chain. -/
  | operand (p : Precedence)
  /-- For the right operand of an operator, which has opened the last of some levels. -/
  | link (p : Precedence) (op : BinaryOperator) (offset : Nat) (left : Expr) (levels : Nat)
  /-- For an operand that may be raised. -/
  | base
  /-- For an exponent. -/
  | exponent (offset : Nat) (left : Expr)
  /-- For a signed operand. -/
  | sign (offset : Nat) (op : UnaryOperator)
  /-- For an expression in parentheses. -/
  | parens
  /-- For an argument of a call, behind others. -/
  | argument (offset : Nat) (name : String) (f : Function) (args : List Expr)

/-- A state of the parser. -/
structure Config where
  /-- What it is about to do. -/
  control : Control
  /-- The procedures that wait, the innermost one first. -/
  stack : List Frame
  /-- Where it is. -/
  cursor : Cursor
  /-- The number of open levels. -/
  depth : Nat

/-- Why the parser takes no step. -/
inductive Stop where
  /-- The text is read to its end. -/
  | accepted (e : Expr)
  /-- The text has an error. -/
  | refused (e : CompileError)
  /-- Levels are closed that are not open. -/
  | underflow

/-! ### Steps -/

/-- A result, where an error refuses the text. -/
def orRefuse {α : Type} : Except CompileError α → Except Stop α
  | .ok a => .ok a
  | .error e => .error (.refused e)

/-- Takes the token, which must be a mark. -/
def expect (m : Mark) (cur : Cursor) : Except Stop Cursor :=
  if cur.token = some (.mark m) then orRefuse cur.consume
  else .error (.refused ⟨.expected m cur.token, cur.start⟩)

/-- Opens a level. -/
def openOne (offset depth : Nat) : Except Stop Nat :=
  if depth < maxNesting then .ok (depth + 1) else .error (.refused ⟨.nestedTooDeeply, offset⟩)

/-- Closes some levels. -/
def closeLevels (levels depth : Nat) : Except Stop Nat :=
  if levels ≤ depth then .ok (depth - levels) else .error .underflow

section

variable (scope : Scope) (stack : List Frame) (cur : Cursor) (depth : Nat)

/-- The step of a procedure that is entered at a token that it takes as a single operand. -/
def takeSingle (t : Token) : Except Stop Config := do
  -- an error in the word behind the token comes before what is wrong with the token
  let next ← orRefuse cur.consume
  match t with
  | .number x => return ⟨.done (.number cur.start x), stack, next, depth⟩
  | .string s => return ⟨.done (.string cur.start s), stack, next, depth⟩
  | .boolean b => return ⟨.done (.boolean cur.start b), stack, next, depth⟩
  | .reference name default =>
    let node ← orRefuse (typedReference scope cur.start name default)
    return ⟨.done node, stack, next, depth⟩
  | .identifier name =>
    if next.token = some (.mark .leftParen) then
      return ⟨.call cur.start name, stack, next, depth⟩
    else .error (.refused ⟨.unknownIdentifier name, cur.start⟩)
  | .mark .leftParen =>
    let depth ← openOne cur.start depth
    return ⟨.enter (.chain .comparison), .parens :: stack, next, depth⟩
  | other => .error (.refused ⟨.unexpectedToken other, cur.start⟩)

/-- The step of a procedure that is entered. -/
def enter : Category → Except Stop Config
  | .chain p => return ⟨.enter p.operand, .operand p :: stack, cur, depth⟩
  | .power => return ⟨.enter .signed, .base :: stack, cur, depth⟩
  | .signed =>
    match cur.token.bind sign? with
    | none => return ⟨.enter .single, stack, cur, depth⟩
    | some op => do
      let next ← orRefuse cur.consume
      let depth ← openOne cur.start depth
      return ⟨.enter .signed, .sign cur.start op :: stack, next, depth⟩
  | .single =>
    match cur.token with
    | none => .error (.refused ⟨.unexpectedEnd, cur.start⟩)
    | some t => takeSingle scope stack cur depth t

/-- The step of the procedure for calls that is entered. -/
def call (offset : Nat) (name : String) : Except Stop Config :=
  match scope.functions.lookup? name with
  | none => .error (.refused ⟨.unknownFunction name, offset⟩)
  | some f => do
    let cur ← expect .leftParen cur
    let depth ← openOne offset depth
    if cur.token = some (.mark .rightParen) then
      return ⟨.close offset name f [], stack, cur, depth⟩
    else
      return ⟨.enter (.chain .comparison), .argument offset name f [] :: stack, cur, depth⟩

/-- The step of a loop over the operators of a precedence. -/
def link (p : Precedence) (left : Expr) (levels : Nat) : Except Stop Config :=
  match cur.token.bind p.operator? with
  | none => do
    let depth ← closeLevels levels depth
    return ⟨.done left, stack, cur, depth⟩
  | some op => do
    let next ← orRefuse cur.consume
    let depth ← openOne cur.start depth
    return ⟨.enter p.operand, .link p op cur.start left (levels + 1) :: stack, next, depth⟩

/-- The step behind the arguments of a call. -/
def close (offset : Nat) (name : String) (f : Function) (args : List Expr) :
    Except Stop Config := do
  -- the level is closed before the parenthesis is looked for
  let depth ← closeLevels 1 depth
  let cur ← expect .rightParen cur
  let node ← orRefuse (typedCall offset name f args)
  return ⟨.done node, stack, cur, depth⟩

/-- The step of a procedure to which an expression is returned. -/
def resume (e : Expr) : Frame → Except Stop Config
  | .operand p => return ⟨.link p e 0, stack, cur, depth⟩
  | .link p op offset left levels => do
    let node ← orRefuse (typedBinary offset op left e)
    return ⟨.link p node levels, stack, cur, depth⟩
  | .base =>
    if cur.token = some (.mark .caret) then do
      let next ← orRefuse cur.consume
      let depth ← openOne cur.start depth
      return ⟨.enter .power, .exponent cur.start e :: stack, next, depth⟩
    else return ⟨.done e, stack, cur, depth⟩
  | .exponent offset left => do
    let depth ← closeLevels 1 depth
    let node ← orRefuse (typedBinary offset (.arithmetic .power) left e)
    return ⟨.done node, stack, cur, depth⟩
  | .sign offset op => do
    let depth ← closeLevels 1 depth
    let node ← orRefuse (typedUnary offset op e)
    return ⟨.done node, stack, cur, depth⟩
  | .parens => do
    let depth ← closeLevels 1 depth
    let cur ← expect .rightParen cur
    return ⟨.done e, stack, cur, depth⟩
  | .argument offset name f args =>
    if cur.token = some (.mark .comma) then do
      let next ← orRefuse cur.consume
      return ⟨.enter (.chain .comparison), .argument offset name f (args ++ [e]) :: stack, next,
        depth⟩
    else return ⟨.close offset name f (args ++ [e]), stack, cur, depth⟩

/-- The end of the outermost procedure: no token may be left. -/
def finish (e : Expr) : Stop :=
  match cur.token with
  | none => .accepted e
  | some t => .refused ⟨.trailingToken t, cur.start⟩

end

/-- A step of the parser. -/
def step (scope : Scope) : Config → Except Stop Config
  | ⟨.enter c, stack, cur, depth⟩ => enter scope stack cur depth c
  | ⟨.call offset name, stack, cur, depth⟩ => call scope stack cur depth offset name
  | ⟨.link p left levels, stack, cur, depth⟩ => link stack cur depth p left levels
  | ⟨.close offset name f args, stack, cur, depth⟩ => close stack cur depth offset name f args
  | ⟨.done e, frame :: stack, cur, depth⟩ => resume stack cur depth e frame
  | ⟨.done e, [], cur, _⟩ => .error (finish cur e)

/-- The configuration behind the equals sign of a text. -/
def start (text : String) : Except Stop Config :=
  match skipBlanks 0 text.toList with
  | (offset, []) => .error (.refused ⟨.missingEquals, offset⟩)
  | (offset, c :: rest) =>
    if c = '=' then do
      let cur ← orRefuse (Cursor.read (offset + 1) rest)
      return ⟨.enter (.chain .comparison), [], cur, 0⟩
    else .error (.refused ⟨.missingEquals, offset⟩)

/-- A step from a configuration to another one. -/
def Step (scope : Scope) (K K' : Config) : Prop := step scope K = .ok K'

/-- Steps from a configuration to another one. -/
def Steps (scope : Scope) : Config → Config → Prop := Relation.ReflTransGen (Step scope)

/-- A configuration that the parser comes to when it reads a text. -/
def Reachable (scope : Scope) (text : String) (K : Config) : Prop :=
  ∃ first, start text = .ok first ∧ Steps scope first K

/-- The parser stops when it reads a text. -/
def Ends (scope : Scope) (text : String) (stop : Stop) : Prop :=
  start text = .error stop ∨ ∃ K, Reachable scope text K ∧ step scope K = .error stop

/-! ### Results of partial steps -/

section

variable {α β : Type}

theorem bind_ok_iff {x : Except Stop α} {f : α → Except Stop β} {b : β} :
    (x >>= f) = .ok b ↔ ∃ a, x = .ok a ∧ f a = .ok b := by
  cases x <;> simp [bind, Except.bind]

theorem pure_ok_iff {a b : α} : (pure a : Except Stop α) = .ok b ↔ a = b := by
  simp [pure, Except.pure]

theorem orRefuse_ok_iff {r : Except CompileError α} {a : α} :
    orRefuse r = .ok a ↔ r = .ok a := by
  cases r <;> simp [orRefuse]

private theorem expect_ok_iff {m : Mark} {cur next : Cursor} :
    expect m cur = .ok next ↔ cur.token = some (.mark m) ∧ cur.consume = .ok next := by
  rw [expect]
  split <;> simp_all [orRefuse_ok_iff]

private theorem openOne_ok_iff {offset depth depth' : Nat} :
    openOne offset depth = .ok depth' ↔ depth < maxNesting ∧ depth' = depth + 1 := by
  rw [openOne]
  split <;> simp_all [eq_comm]

private theorem closeLevels_ok_iff {levels depth depth' : Nat} :
    closeLevels levels depth = .ok depth' ↔ levels ≤ depth ∧ depth' = depth - levels := by
  rw [closeLevels]
  split <;> simp_all [eq_comm]

end

/-! ### What a step does -/

/-- The levels that are open for what the parser is about to do. -/
@[simp] def Control.levels : Control → Nat
  | .link _ _ levels => levels
  | .close _ _ _ _ => 1
  | _ => 0

/-- The levels that a waiting procedure has open. -/
@[simp] def Frame.levels : Frame → Nat
  | .operand _ => 0
  | .link _ _ _ _ levels => levels
  | .base => 0
  | _ => 1

/-- The levels that are open in a configuration. -/
def Config.levels (K : Config) : Nat := K.control.levels + (K.stack.map Frame.levels).sum

/-- The place of a procedure that is entered, from loose to tight. -/
@[simp] def Control.rank? : Control → Option Nat
  | .enter c => some c.rank
  | .call _ _ => some 7
  | _ => none

/-- How far what the parser is about to do is from taking a token or returning. -/
@[simp] def Control.weight : Control → Nat
  | .enter c => 3 * (6 - c.rank)
  | .call _ _ => 0
  | .link _ _ _ => 1
  | .close _ _ _ _ => 1
  | .done _ => 0

/-- A bound on the steps that can be taken without taking a token. -/
def Config.weight (K : Config) : Nat := K.control.weight + 2 * K.stack.length

/-- What a step does: either it stays at its token, is lighter, and tightens the procedure that it
enters, or it takes the token and gains a limited weight. The number of open levels changes with
those that the procedures have open, and grows within its bound. -/
structure Effect (K K' : Config) : Prop where
  /-- The cursor. -/
  cursor : (K'.cursor = K.cursor ∧ K'.weight < K.weight ∧
      ∀ r ∈ K.control.rank?, ∃ r' ∈ K'.control.rank?, r < r') ∨
    K.cursor.token ≠ none ∧ K.cursor.consume = .ok K'.cursor ∧ K'.weight ≤ K.weight + 20
  /-- The levels. -/
  levels : K'.depth + K.levels = K.depth + K'.levels
  /-- The bound. -/
  bound : K'.depth ≤ max K.depth maxNesting

@[simp] theorem levels_mk (control : Control) (stack : List Frame) (cur : Cursor) (depth : Nat) :
    Config.levels ⟨control, stack, cur, depth⟩ =
      control.levels + (stack.map Frame.levels).sum := rfl

@[simp] theorem weight_mk (control : Control) (stack : List Frame) (cur : Cursor) (depth : Nat) :
    Config.weight ⟨control, stack, cur, depth⟩ = control.weight + 2 * stack.length := rfl

/-- The rank of a precedence is below those of the categories that are no chains. -/
private theorem rank_lt (p : Precedence) : p.rank < 4 := by
  cases p <;> decide

section

variable {scope : Scope} {stack : List Frame} {cur next : Cursor} {depth : Nat} {K : Config}

/-- The effect of taking a token without a change of levels. -/
private theorem effect_of_consume {control control' : Control} {stack' : List Frame}
    (htoken : cur.token ≠ none) (hnext : cur.consume = .ok next)
    (hweight : control'.weight + 2 * stack'.length ≤ control.weight + 2 * stack.length + 20)
    (hlevels : control'.levels + (stack'.map Frame.levels).sum =
      control.levels + (stack.map Frame.levels).sum) :
    Effect ⟨control, stack, cur, depth⟩ ⟨control', stack', next, depth⟩ :=
  ⟨.inr ⟨htoken, hnext, hweight⟩, by simp only [levels_mk, hlevels], Nat.le_max_left _ _⟩

private theorem effect_of_open {control control' : Control} {stack' : List Frame}
    (htoken : cur.token ≠ none) (hnext : cur.consume = .ok next) (hdepth : depth < maxNesting)
    (hweight : control'.weight + 2 * stack'.length ≤ control.weight + 2 * stack.length + 20)
    (hlevels : control'.levels + (stack'.map Frame.levels).sum =
      control.levels + (stack.map Frame.levels).sum + 1) :
    Effect ⟨control, stack, cur, depth⟩ ⟨control', stack', next, depth + 1⟩ :=
  ⟨.inr ⟨htoken, hnext, hweight⟩, by simp only [levels_mk, hlevels]; omega,
    le_max_of_le_right hdepth⟩

/-- The effect of a step of a procedure that is entered at a token that it takes. -/
private theorem effect_of_takeSingle {t : Token} (htoken : cur.token = some t)
    (h : takeSingle scope stack cur depth t = .ok K) :
    Effect ⟨.enter .single, stack, cur, depth⟩ K := by
  obtain ⟨next, hnext, h⟩ := bind_ok_iff.mp h
  rw [orRefuse_ok_iff] at hnext
  have htaken : cur.token ≠ none := by simp [htoken]
  have hdone : ∀ e, Effect ⟨.enter .single, stack, cur, depth⟩ ⟨.done e, stack, next, depth⟩ :=
    fun e => effect_of_consume htaken hnext (Nat.le_add_right _ _) rfl
  cases t with
  | number x =>
    obtain rfl := pure_ok_iff.mp h
    exact hdone _
  | string s =>
    obtain rfl := pure_ok_iff.mp h
    exact hdone _
  | boolean b =>
    obtain rfl := pure_ok_iff.mp h
    exact hdone _
  | reference name default =>
    obtain ⟨node, -, h⟩ := bind_ok_iff.mp h
    obtain rfl := pure_ok_iff.mp h
    exact hdone node
  | identifier name =>
    simp only at h
    split at h
    · obtain rfl := pure_ok_iff.mp h
      exact effect_of_consume htaken hnext (Nat.le_add_right _ _) rfl
    · cases h
  | mark m =>
    cases m with
    | leftParen =>
      obtain ⟨deeper, hdeeper, h⟩ := bind_ok_iff.mp h
      obtain ⟨hlt, rfl⟩ := openOne_ok_iff.mp hdeeper
      obtain rfl := pure_ok_iff.mp h
      refine effect_of_open htaken hnext hlt ?_ ?_
      · simp [Category.rank, Precedence.rank]
        omega
      · simp [Nat.add_comm]
    | _ => cases h

/-- The effect of a step of a procedure that is entered. -/
private theorem effect_of_enter {c : Category} (h : enter scope stack cur depth c = .ok K) :
    Effect ⟨.enter c, stack, cur, depth⟩ K := by
  cases c with
  | chain p =>
    obtain rfl := pure_ok_iff.mp h
    -- one more procedure waits, but the one that is entered is tighter
    have hrank := rank_lt p
    refine ⟨.inl ⟨rfl, ?_, ?_⟩, by simp, Nat.le_max_left _ _⟩
    · show 3 * (6 - p.operand.rank) + 2 * (stack.length + 1) < 3 * (6 - p.rank) + 2 * stack.length
      rw [p.rank_operand]
      omega
    · rintro _ ⟨⟩
      exact ⟨p.operand.rank, rfl, p.rank_operand ▸ Nat.lt_succ_self _⟩
  | power =>
    obtain rfl := pure_ok_iff.mp h
    refine ⟨.inl ⟨rfl, ?_, ?_⟩, by simp, Nat.le_max_left _ _⟩
    · simp [Category.rank]
      omega
    · simp [Category.rank]
  | signed =>
    rw [enter] at h
    split at h
    · obtain rfl := pure_ok_iff.mp h
      exact ⟨.inl ⟨rfl, by simp [Category.rank], by simp [Category.rank]⟩, by simp,
        Nat.le_max_left _ _⟩
    · rename_i op hop
      obtain ⟨next, hnext, h⟩ := bind_ok_iff.mp h
      obtain ⟨deeper, hdeeper, h⟩ := bind_ok_iff.mp h
      obtain ⟨hlt, rfl⟩ := openOne_ok_iff.mp hdeeper
      obtain rfl := pure_ok_iff.mp h
      have htaken : cur.token ≠ none := by
        rintro hnone
        simp [hnone] at hop
      refine effect_of_open htaken (orRefuse_ok_iff.mp hnext) hlt ?_ ?_
      · simp
        omega
      · simp [Nat.add_comm]
  | single =>
    rw [enter] at h
    split at h
    · cases h
    · exact effect_of_takeSingle ‹_› h

/-- The effect of a step of the procedure for calls that is entered. -/
private theorem effect_of_call {offset : Nat} {name : String}
    (h : call scope stack cur depth offset name = .ok K) :
    Effect ⟨.call offset name, stack, cur, depth⟩ K := by
  rw [call] at h
  split at h
  · cases h
  · obtain ⟨next, hnext, h⟩ := bind_ok_iff.mp h
    obtain ⟨htoken, hnext⟩ := expect_ok_iff.mp hnext
    have htaken : cur.token ≠ none := by simp [htoken]
    obtain ⟨deeper, hdeeper, h⟩ := bind_ok_iff.mp h
    obtain ⟨hlt, rfl⟩ := openOne_ok_iff.mp hdeeper
    split at h
    · obtain rfl := pure_ok_iff.mp h
      refine effect_of_open htaken hnext hlt ?_ ?_
      · simp
        omega
      · simp [Nat.add_comm]
    · obtain rfl := pure_ok_iff.mp h
      refine effect_of_open htaken hnext hlt ?_ ?_
      · simp [Category.rank, Precedence.rank]
        omega
      · simp [Nat.add_comm]

/-- The effect of a step of a loop over operators. -/
private theorem effect_of_link {p : Precedence} {left : Expr} {levels : Nat}
    (h : link stack cur depth p left levels = .ok K) :
    Effect ⟨.link p left levels, stack, cur, depth⟩ K := by
  rw [link] at h
  split at h
  · obtain ⟨fewer, hfewer, h⟩ := bind_ok_iff.mp h
    obtain ⟨hle, rfl⟩ := closeLevels_ok_iff.mp hfewer
    obtain rfl := pure_ok_iff.mp h
    refine ⟨.inl ⟨rfl, by simp, by simp⟩, ?_, le_max_of_le_left (Nat.sub_le _ _)⟩
    simp
    omega
  · rename_i op hop
    obtain ⟨next, hnext, h⟩ := bind_ok_iff.mp h
    obtain ⟨deeper, hdeeper, h⟩ := bind_ok_iff.mp h
    obtain ⟨hlt, rfl⟩ := openOne_ok_iff.mp hdeeper
    obtain rfl := pure_ok_iff.mp h
    have htaken : cur.token ≠ none := by
      rintro hnone
      simp [hnone] at hop
    refine effect_of_open htaken (orRefuse_ok_iff.mp hnext) hlt ?_ ?_
    · simp [Precedence.rank_operand]
      omega
    · simp
      omega

private theorem effect_of_close {offset : Nat} {name : String} {f : Function} {args : List Expr}
    (h : close stack cur depth offset name f args = .ok K) :
    Effect ⟨.close offset name f args, stack, cur, depth⟩ K := by
  obtain ⟨fewer, hfewer, h⟩ := bind_ok_iff.mp h
  obtain ⟨hle, rfl⟩ := closeLevels_ok_iff.mp hfewer
  obtain ⟨next, hnext, h⟩ := bind_ok_iff.mp h
  obtain ⟨htoken, hnext⟩ := expect_ok_iff.mp hnext
  obtain ⟨node, -, h⟩ := bind_ok_iff.mp h
  obtain rfl := pure_ok_iff.mp h
  refine ⟨.inr ⟨by simp [htoken], hnext, by simp; omega⟩, ?_, le_max_of_le_left (Nat.sub_le _ _)⟩
  simp
  omega

/-- The effect of returning an expression. -/
private theorem effect_of_resume {e : Expr} {frame : Frame}
    (h : resume stack cur depth e frame = .ok K) :
    Effect ⟨.done e, frame :: stack, cur, depth⟩ K := by
  cases frame with
  | operand p =>
    obtain rfl := pure_ok_iff.mp h
    exact ⟨.inl ⟨rfl, by simp; omega, by simp⟩, by simp, Nat.le_max_left _ _⟩
  | link p op offset left levels =>
    obtain ⟨node, -, h⟩ := bind_ok_iff.mp h
    obtain rfl := pure_ok_iff.mp h
    exact ⟨.inl ⟨rfl, by simp; omega, by simp⟩, by simp, Nat.le_max_left _ _⟩
  | base =>
    rw [resume] at h
    split at h
    · rename_i htoken
      obtain ⟨next, hnext, h⟩ := bind_ok_iff.mp h
      obtain ⟨deeper, hdeeper, h⟩ := bind_ok_iff.mp h
      obtain ⟨hlt, rfl⟩ := openOne_ok_iff.mp hdeeper
      obtain rfl := pure_ok_iff.mp h
      refine effect_of_open (by simp [htoken]) (orRefuse_ok_iff.mp hnext) hlt ?_ ?_
      · simp [Category.rank]
        omega
      · simp [Nat.add_comm]
    · obtain rfl := pure_ok_iff.mp h
      exact ⟨.inl ⟨rfl, by simp, by simp⟩, by simp, Nat.le_max_left _ _⟩
  | exponent offset left =>
    obtain ⟨fewer, hfewer, h⟩ := bind_ok_iff.mp h
    obtain ⟨hle, rfl⟩ := closeLevels_ok_iff.mp hfewer
    obtain ⟨node, -, h⟩ := bind_ok_iff.mp h
    obtain rfl := pure_ok_iff.mp h
    exact ⟨.inl ⟨rfl, by simp, by simp⟩, by simp; omega, le_max_of_le_left (Nat.sub_le _ _)⟩
  | sign offset op =>
    obtain ⟨fewer, hfewer, h⟩ := bind_ok_iff.mp h
    obtain ⟨hle, rfl⟩ := closeLevels_ok_iff.mp hfewer
    obtain ⟨node, -, h⟩ := bind_ok_iff.mp h
    obtain rfl := pure_ok_iff.mp h
    exact ⟨.inl ⟨rfl, by simp, by simp⟩, by simp; omega, le_max_of_le_left (Nat.sub_le _ _)⟩
  | parens =>
    obtain ⟨fewer, hfewer, h⟩ := bind_ok_iff.mp h
    obtain ⟨hle, rfl⟩ := closeLevels_ok_iff.mp hfewer
    obtain ⟨next, hnext, h⟩ := bind_ok_iff.mp h
    obtain ⟨htoken, hnext⟩ := expect_ok_iff.mp hnext
    obtain rfl := pure_ok_iff.mp h
    exact ⟨.inr ⟨by simp [htoken], hnext, by simp; omega⟩, by simp; omega,
      le_max_of_le_left (Nat.sub_le _ _)⟩
  | argument offset name f args =>
    rw [resume] at h
    split at h
    · rename_i htoken
      obtain ⟨next, hnext, h⟩ := bind_ok_iff.mp h
      obtain rfl := pure_ok_iff.mp h
      refine effect_of_consume (by simp [htoken]) (orRefuse_ok_iff.mp hnext) ?_ ?_
      · simp [Category.rank, Precedence.rank]
        omega
      · simp
    · obtain rfl := pure_ok_iff.mp h
      exact ⟨.inl ⟨rfl, by simp; omega, by simp⟩, by simp, Nat.le_max_left _ _⟩

/-- What a step does to the cursor, to the levels and to the weight. -/
theorem effect_of_step {K K' : Config} (h : Step scope K K') : Effect K K' := by
  obtain ⟨control, stack, cur, depth⟩ := K
  cases control with
  | enter c => exact effect_of_enter h
  | call offset name => exact effect_of_call h
  | link p left levels => exact effect_of_link h
  | close offset name f args => exact effect_of_close h
  | done e =>
    cases stack with
    | nil => cases h
    | cons frame stack => exact effect_of_resume h

end

end TypedFormula.ParserRun
