import TypedFormula.Proofs.Grammar

/-!
# What the procedures of the parser accept

One equivalence for each procedure: it gives a tree exactly when the tokens have a certain shape,
the procedures that it calls give trees for the parts, and the typing rules build the node. The
equivalences are read from left to right to show that what the parser accepts is a formula, and
from right to left to show that it accepts all formulas; nothing else about the procedures is
needed, and nothing else unfolds them.

A procedure moves on only when the word behind the tokens is readable or there are tokens left.
`Ready` is this condition, which every procedure keeps.

`reader` gathers the procedures by category, so that a statement about all of them can be made at
once; `reader_chain` is what the four chained categories have in common.
-/

namespace TypedFormula

/-! ### Taking tokens -/

/-- Behind the last token the text ends, and no unreadable word is left. -/
def Ready (ending : Except CompileError Nat) (rest : List Located) : Prop :=
  rest = [] → ∃ stop, ending = .ok stop

section

variable {ending : Except CompileError Nat}

/-- Where the text ends well, no tokens need to be left. -/
theorem ready_of_ok (stop : Nat) (rest : List Located) : Ready (.ok stop) rest :=
  fun _ => ⟨stop, rfl⟩

theorem advance_ok_iff {rest rest' : List Located} :
    advance ending rest = .ok rest' ↔ rest' = rest ∧ Ready ending rest := by
  rcases rest with _ | ⟨t, rest⟩ <;> rcases ending with e | stop <;>
    simp [advance, Ready, eq_comm]

/-- A mark is taken from the front. -/
theorem expectMark_ok_iff {m : Mark} {tokens rest : List Located} :
    expectMark ending m tokens = .ok rest ↔
      ∃ offset, tokens = ⟨.mark m, offset⟩ :: rest ∧ Ready ending rest := by
  rcases tokens with _ | ⟨⟨t, offset⟩, tokens⟩
  · simp [expectMark]
  · by_cases ht : t = .mark m
    · simp only [expectMark, ht, if_true, advance_ok_iff, List.cons.injEq, Located.mk.injEq,
        true_and]
      constructor
      · rintro ⟨rfl, h⟩
        exact ⟨offset, ⟨rfl, rfl⟩, h⟩
      · rintro ⟨-, ⟨-, rfl⟩, h⟩
        exact ⟨rfl, h⟩
    · simp [expectMark, ht]

/-- A mark that is there is taken. -/
theorem expectMark_cons {m : Mark} {offset : Nat} {rest : List Located} (h : Ready ending rest) :
    expectMark ending m (⟨.mark m, offset⟩ :: rest) = .ok rest :=
  expectMark_ok_iff.mpr ⟨offset, rfl, h⟩

/-- A level is opened where there is one. -/
theorem openLevel_ok_iff {inner : Option Procedures} {offset : Nat} {level : Procedures} :
    openLevel inner offset = .ok level ↔ inner = some level := by
  cases inner <;> simp [openLevel]

end

/-! ### Building nodes -/

section

variable {scope : Scope} {offset : Nat} {name : String} {e : Expr}

/-- A sign is put before what counts as a number. -/
theorem typedUnary_ok_iff {op : UnaryOperator} {operand : Expr} :
    typedUnary offset op operand = .ok e ↔
      operand.kind.CountsAsNumber ∧ e = .unary offset op operand := by
  rw [StaticKind.CountsAsNumber, ← checkNumber_ok_iff op.symbol, typedUnary]
  cases checkNumber op.symbol operand <;> simp [eq_comm]

private theorem checkOperand_ok_iff {op : BinaryOperator} {operand : Expr} :
    checkOperand op operand = .ok () ↔ op.Takes operand.kind := by
  cases op with
  | arithmetic op => exact checkNumber_ok_iff op.symbol operand
  | concat => exact checkSingle_ok_iff _ operand
  | comparison op => exact checkSingle_ok_iff op.symbol operand

theorem typedBinary_ok_iff {op : BinaryOperator} {left right : Expr} :
    typedBinary offset op left right = .ok e ↔
      op.Takes left.kind ∧ op.Takes right.kind ∧ e = .binary offset op left right := by
  rw [← checkOperand_ok_iff, ← checkOperand_ok_iff, typedBinary]
  cases checkOperand op left <;> cases checkOperand op right <;> simp [eq_comm]

/-- A default is taken exactly when it is written as one of its kind. -/
private theorem typedDefault_ok_iff {kind : Kind} {text : Option String} {default : Option Value} :
    typedDefault offset name kind text = .ok default ↔ WritesDefault kind text default := by
  constructor
  · intro h
    rcases text with _ | text
    · obtain rfl := Except.ok.inj h
      exact .none kind
    · rcases kind with k | k
      · rw [typedDefault] at h
        split at h
        · rename_i v hv
          obtain rfl := Except.ok.inj h
          exact .some hv
        · cases h
      · cases h
  · rintro (_ | hv)
    · rfl
    · simp [typedDefault, hv]

/-- A reference is to a declared variable, with a default of its kind. -/
theorem typedReference_ok_iff {text : Option String} :
    typedReference scope offset name text = .ok e ↔
      ∃ kind default, scope.types.get? name = some kind ∧ WritesDefault kind text default ∧
        e = .reference offset name kind default := by
  constructor
  · intro h
    rw [typedReference] at h
    split at h
    · cases h
    · rename_i kind hkind
      split at h
      · cases h
      · rename_i default hdefault
        exact ⟨kind, default, hkind, typedDefault_ok_iff.mp hdefault, (Except.ok.inj h).symm⟩
  · rintro ⟨kind, default, hkind, hdefault, rfl⟩
    simp only [typedReference, hkind, typedDefault_ok_iff.mpr hdefault]

theorem typedCall_ok_iff {f : Function} {args : List Expr} :
    typedCall offset name f args = .ok e ↔
      ∃ kind, f.checkArguments (args.map Expr.kind) = .ok kind ∧
        e = .call offset (Text.upper name) kind args := by
  rw [typedCall]
  cases f.checkArguments (args.map Expr.kind) <;> simp [eq_comm]

end

/-! ### Procedures -/

section

variable {scope : Scope} {ending : Except CompileError Nat} {inner : Option Procedures}
  {tokens rest : List Located} {e : Expr}

/-- A phrase in parentheses takes a level for what is inside. -/
theorem parseParenthesized_ok_iff {offset : Nat} :
    parseParenthesized ending inner offset tokens = .ok (e, rest) ↔
      ∃ level right, inner = some level ∧
        level.expression tokens = .ok (e, ⟨.mark .rightParen, right⟩ :: rest) ∧
        Ready ending rest := by
  constructor
  · intro h
    rw [parseParenthesized] at h
    split at h
    · cases h
    · rename_i level hlevel
      split at h
      · cases h
      · rename_i node rest₁ hnode
        split at h
        · cases h
        · rename_i rest₂ hmark
          obtain ⟨rfl, rfl⟩ := Prod.mk.inj (Except.ok.inj h)
          obtain ⟨right, rfl, hready⟩ := expectMark_ok_iff.mp hmark
          exact ⟨level, right, openLevel_ok_iff.mp hlevel, hnode, hready⟩
  · rintro ⟨level, right, rfl, hnode, hready⟩
    simp only [parseParenthesized, openLevel, hnode, expectMark_cons hready]

/-- Arguments are one expression, or an expression, a comma and other arguments. -/
theorem parseArguments_ok {expression : List Located → Parsed} {more : Nat} {es : List Expr}
    (h : parseArguments ending expression more tokens = .ok (es, rest)) :
    (∃ e, expression tokens = .ok (e, rest) ∧ es = [e]) ∨
      ∃ fewer e comma rest₁ others, more = fewer + 1 ∧
        expression tokens = .ok (e, ⟨.mark .comma, comma⟩ :: rest₁) ∧
        parseArguments ending expression fewer rest₁ = .ok (others, rest) ∧ es = e :: others := by
  cases more with
  | zero =>
    rw [parseArguments] at h
    split at h
    · cases h
    · rename_i e rest₁ he
      split at h
      · obtain ⟨rfl, rfl⟩ := Prod.mk.inj (Except.ok.inj h)
        exact .inl ⟨e, he, rfl⟩
      · obtain ⟨rfl, rfl⟩ := Prod.mk.inj (Except.ok.inj h)
        exact .inl ⟨e, he, rfl⟩
  | succ fewer =>
    rw [parseArguments] at h
    split at h
    · cases h
    · rename_i e rest₁ he
      split at h
      · simp only at h
        split at h
        · cases h
        · rename_i rest₂ hcomma
          split at h
          · cases h
          · rename_i others rest₃ hothers
            obtain ⟨rfl, rfl⟩ := Prod.mk.inj (Except.ok.inj h)
            obtain ⟨comma, rfl, -⟩ := expectMark_ok_iff.mp hcomma
            exact .inr ⟨fewer, e, comma, rest₂, others, rfl, he, hothers, rfl⟩
      · obtain ⟨rfl, rfl⟩ := Prod.mk.inj (Except.ok.inj h)
        exact .inl ⟨e, he, rfl⟩

/-- A call takes a level for its arguments. -/
theorem parseCall_ok_iff {offset : Nat} {name : String} :
    parseCall scope ending inner offset name tokens = .ok (e, rest) ↔
      ∃ f left rest₁ level args right, scope.functions.lookup? name = some f ∧
        tokens = ⟨.mark .leftParen, left⟩ :: rest₁ ∧ Ready ending rest₁ ∧ inner = some level ∧
        parseOptionalArguments ending level.expression rest₁ =
          .ok (args, ⟨.mark .rightParen, right⟩ :: rest) ∧
        Ready ending rest ∧ typedCall offset name f args = .ok e := by
  constructor
  · intro h
    rw [parseCall] at h
    split at h
    · cases h
    · rename_i f hf
      split at h
      · cases h
      · rename_i rest₁ hleft
        obtain ⟨left, rfl, hready₁⟩ := expectMark_ok_iff.mp hleft
        split at h
        · cases h
        · rename_i level hlevel
          split at h
          · cases h
          · rename_i args rest₂ hargs
            split at h
            · cases h
            · rename_i rest₃ hright
              obtain ⟨right, rfl, hready⟩ := expectMark_ok_iff.mp hright
              split at h
              · cases h
              · rename_i node hnode
                obtain ⟨rfl, rfl⟩ := Prod.mk.inj (Except.ok.inj h)
                exact ⟨f, left, rest₁, level, args, right, hf, rfl, hready₁,
                  openLevel_ok_iff.mp hlevel, hargs, hready, hnode⟩
  · rintro ⟨f, left, rest₁, level, args, right, hf, rfl, hready₁, rfl, hargs, hready, hnode⟩
    simp only [parseCall, hf, expectMark_cons hready₁, openLevel, hargs, expectMark_cons hready,
      hnode]

/-- A single operand starts with a token, behind which the tokens are ready. -/
theorem exists_cons_of_parseSingle (h : parseSingle scope ending inner tokens = .ok (e, rest)) :
    ∃ t rest₁, tokens = t :: rest₁ ∧ Ready ending rest₁ := by
  rcases tokens with _ | ⟨t, rest₁⟩
  · cases h
  · rw [parseSingle] at h
    split at h
    · cases h
    · rename_i hadvance
      exact ⟨t, rest₁, rfl, (advance_ok_iff.mp hadvance).2⟩

/-- What a single operand is depends on its first token. -/
theorem parseSingle_cons {t : Located} (h : Ready ending rest) :
    parseSingle scope ending inner (t :: rest) =
      match t.token with
      | .number x => .ok (.number t.offset x, rest)
      | .string s => .ok (.string t.offset s, rest)
      | .boolean b => .ok (.boolean t.offset b, rest)
      | .reference name default =>
        match typedReference scope t.offset name default with
        | .error e => .error e
        | .ok node => .ok (node, rest)
      | .identifier name =>
        if nextIs .leftParen rest then parseCall scope ending inner t.offset name rest
        else .error ⟨.unknownIdentifier name, t.offset⟩
      | .mark .leftParen => parseParenthesized ending inner t.offset rest
      | other => .error ⟨.unexpectedToken other, t.offset⟩ := by
  rw [parseSingle]
  split
  · rename_i hadvance
    rw [advance_ok_iff.mpr ⟨rfl, h⟩] at hadvance
    cases hadvance
  · rename_i hadvance
    obtain ⟨rfl, -⟩ := advance_ok_iff.mp hadvance
    rfl

/-- A signed operand is a single one, or a sign before a signed operand, which takes a level. -/
theorem parseSigned_ok_iff :
    parseSigned scope ending inner tokens = .ok (e, rest) ↔
      ((∀ t ∈ tokens.head?, sign? t.token = none) ∧
        parseSingle scope ending inner tokens = .ok (e, rest)) ∨
      ∃ t rest₁ op level operand, tokens = t :: rest₁ ∧ sign? t.token = some op ∧
        Ready ending rest₁ ∧ inner = some level ∧ level.signed rest₁ = .ok (operand, rest) ∧
        typedUnary t.offset op operand = .ok e := by
  rcases tokens with _ | ⟨t, rest₁⟩
  · simp [parseSigned]
  rw [parseSigned]
  -- the first token decides which of the two shapes it is
  cases hop : sign? t.token with
  | none => simp [hop]
  | some op =>
    simp only [List.head?_cons, Option.mem_some_iff, forall_eq', hop, reduceCtorEq, false_and,
      false_or, List.cons.injEq]
    constructor
    · intro h
      split at h
      · cases h
      · rename_i rest₂ hadvance
        obtain ⟨rfl, hready⟩ := advance_ok_iff.mp hadvance
        split at h
        · cases h
        · rename_i level hlevel
          split at h
          · cases h
          · rename_i operand rest₃ hoperand
            split at h
            · cases h
            · rename_i node hnode
              obtain ⟨rfl, rfl⟩ := Prod.mk.inj (Except.ok.inj h)
              exact ⟨t, rest₂, op, level, operand, ⟨rfl, rfl⟩, hop, hready,
                openLevel_ok_iff.mp hlevel, hoperand, hnode⟩
    · rintro ⟨t, rest₁, op', level, operand, ⟨rfl, rfl⟩, hop', hready, rfl, hoperand, hnode⟩
      obtain rfl := Option.some.inj (hop.symm.trans hop')
      simp only [advance_ok_iff.mpr ⟨rfl, hready⟩, openLevel, hoperand, hnode]

/-- A power is a signed operand, with `^` and a power behind it that takes a level, or not. -/
theorem parsePower_ok_iff :
    parsePower scope ending inner tokens = .ok (e, rest) ↔
      (parseSigned scope ending inner tokens = .ok (e, rest) ∧
        ∀ t ∈ rest.head?, t.token ≠ .mark .caret) ∨
      ∃ left offset rest₁ level right,
        parseSigned scope ending inner tokens = .ok (left, ⟨.mark .caret, offset⟩ :: rest₁) ∧
        Ready ending rest₁ ∧ inner = some level ∧
        level.operand .product rest₁ = .ok (right, rest) ∧
        typedBinary offset (.arithmetic .power) left right = .ok e := by
  rw [parsePower]
  constructor
  · intro h
    split at h
    · cases h
    · rename_i left hleft
      obtain ⟨rfl, rfl⟩ := Prod.mk.inj (Except.ok.inj h)
      exact .inl ⟨hleft, nofun⟩
    · rename_i left t rest₁ hleft
      split at h
      · rename_i ht
        split at h
        · cases h
        · rename_i rest₂ hadvance
          obtain ⟨rfl, hready⟩ := advance_ok_iff.mp hadvance
          split at h
          · cases h
          · rename_i level hlevel
            split at h
            · cases h
            · rename_i right rest₃ hright
              split at h
              · cases h
              · rename_i node hnode
                obtain ⟨rfl, rfl⟩ := Prod.mk.inj (Except.ok.inj h)
                -- the node keeps the offset of `^`, which is all that is left of the token
                rcases t with ⟨t, offset⟩
                obtain rfl : t = .mark .caret := ht
                exact .inr ⟨left, offset, rest₂, level, right, hleft, hready,
                  openLevel_ok_iff.mp hlevel, hright, hnode⟩
      · rename_i ht
        obtain ⟨rfl, rfl⟩ := Prod.mk.inj (Except.ok.inj h)
        exact .inl ⟨hleft, by simpa using ht⟩
  · rintro (⟨hleft, ht⟩ | ⟨left, offset, rest₁, level, right, hleft, hready, rfl, hright, hnode⟩)
    · rcases rest with _ | ⟨t, rest⟩
      · simp only [hleft]
      · simp only [hleft, if_neg (ht t rfl)]
    · simp only [hleft, if_true, advance_ok_iff.mpr ⟨rfl, hready⟩, openLevel, hright, hnode]

/-- Behind a left operand no operator of the precedence follows, or one does with a right operand
that takes a level, and the chain goes on within this level. -/
theorem parseChain_ok_iff {p : Precedence} {left : Expr} :
    parseChain ending inner p left tokens = .ok (e, rest) ↔
      ((∀ t ∈ tokens.head?, p.operator? t.token = none) ∧ e = left ∧ rest = tokens) ∨
      ∃ t rest₁ op level right rest₂ node, tokens = t :: rest₁ ∧
        p.operator? t.token = some op ∧ Ready ending rest₁ ∧ inner = some level ∧
        level.operand p rest₁ = .ok (right, rest₂) ∧
        typedBinary t.offset op left right = .ok node ∧
        level.chain p node rest₂ = .ok (e, rest) := by
  rcases tokens with _ | ⟨t, rest₁⟩
  · simp [parseChain, eq_comm]
  rw [parseChain]
  -- again the first token decides, and an operator of another precedence ends the chain
  cases hop : p.operator? t.token with
  | none => simp [hop, eq_comm]
  | some op =>
    simp only [List.head?_cons, Option.mem_some_iff, forall_eq', hop, reduceCtorEq, false_and,
      false_or, List.cons.injEq]
    constructor
    · intro h
      split at h
      · cases h
      · rename_i rest₂ hadvance
        obtain ⟨rfl, hready⟩ := advance_ok_iff.mp hadvance
        split at h
        · cases h
        · rename_i level hlevel
          split at h
          · cases h
          · rename_i right rest₃ hright
            split at h
            · cases h
            · rename_i node hnode
              exact ⟨t, rest₂, op, level, right, rest₃, node, ⟨rfl, rfl⟩, hop, hready,
                openLevel_ok_iff.mp hlevel, hright, hnode, h⟩
    · rintro ⟨t, rest₁, op', level, right, rest₂, node, ⟨rfl, rfl⟩, hop', hready, rfl, hright,
        hnode, h⟩
      obtain rfl := Option.some.inj (hop.symm.trans hop')
      simp only [advance_ok_iff.mpr ⟨rfl, hready⟩, openLevel, hright, hnode, h]

/-- A chained category is an operand and the rest of its chain. -/
theorem parseChained_ok_iff {p : Precedence} {operand : List Located → Parsed} :
    parseChained ending inner p operand tokens = .ok (e, rest) ↔
      ∃ left rest₁, operand tokens = .ok (left, rest₁) ∧
        parseChain ending inner p left rest₁ = .ok (e, rest) := by
  rw [parseChained]
  constructor
  · intro h
    split at h
    · cases h
    · rename_i left rest₁ hleft
      exact ⟨left, rest₁, hleft, h⟩
  · rintro ⟨left, rest₁, hleft, h⟩
    simp only [hleft, h]

end

/-! ### Readers of categories -/

section

variable (scope : Scope) (ending : Except CompileError Nat)

/-- The procedures for one level less than a number of levels. -/
def below : Nat → Option Procedures
  | 0 => none
  | levels + 1 => some (procedures scope ending levels)

/-- The procedure that reads a category within a number of levels. -/
def reader (levels : Nat) : Category → List Located → Parsed
  | .chain .comparison => parseComparison scope ending (below scope ending levels)
  | .chain .concat => parseConcat scope ending (below scope ending levels)
  | .chain .sum => parseSum scope ending (below scope ending levels)
  | .chain .product => parseProduct scope ending (below scope ending levels)
  | .power => parsePower scope ending (below scope ending levels)
  | .signed => parseSigned scope ending (below scope ending levels)
  | .single => parseSingle scope ending (below scope ending levels)

private theorem procedures_eq (levels : Nat) :
    procedures scope ending levels = proceduresAbove scope ending (below scope ending levels) := by
  cases levels <;> rfl

/-- A chained category is read operand first. -/
theorem reader_chain (levels : Nat) (p : Precedence) :
    reader scope ending levels (.chain p) =
      parseChained ending (below scope ending levels) p
        (reader scope ending levels p.operand) := by
  cases p <;> rfl

theorem expression_procedures (levels : Nat) :
    (procedures scope ending levels).expression =
      reader scope ending levels (.chain .comparison) := by
  rw [procedures_eq]; rfl

theorem operand_procedures (levels : Nat) (p : Precedence) :
    (procedures scope ending levels).operand p = reader scope ending levels p.operand := by
  rw [procedures_eq]; cases p <;> rfl

theorem signed_procedures (levels : Nat) :
    (procedures scope ending levels).signed = reader scope ending levels .signed := by
  rw [procedures_eq]; rfl

theorem chain_procedures (levels : Nat) (p : Precedence) :
    (procedures scope ending levels).chain p =
      parseChain ending (below scope ending levels) p := by
  rw [procedures_eq]; rfl

theorem below_eq_some_iff {levels : Nat} {level : Procedures} :
    below scope ending levels = some level ↔
      ∃ fewer, levels = fewer + 1 ∧ level = procedures scope ending fewer := by
  cases levels <;> simp [below, eq_comm]

end

/-! ### Formulas -/

/-- The tree that the tokens behind the equals sign have. -/
def parseTokens (scope : Scope) (stream : TokenStream) : Except CompileError Expr :=
  match advance stream.ending stream.tokens with
  | .error e => .error e
  | .ok tokens =>
    match (procedures scope stream.ending maxNesting).expression tokens with
    | .error e => .error e
    | .ok (node, []) => .ok node
    | .ok (_, t :: _) => .error ⟨.trailingToken t.token, t.offset⟩

/-- The tree of what stands at an offset behind the blanks at the start of a text. -/
def parseStart (scope : Scope) : Nat × List Char → Except CompileError Expr
  | (offset, []) => .error ⟨.missingEquals, offset⟩
  | (offset, c :: rest) =>
    if c = '=' then parseTokens scope (tokenize (offset + 1) rest)
    else .error ⟨.missingEquals, offset⟩

theorem parseFormula_eq (scope : Scope) (text : String) :
    parseFormula scope text = parseStart scope (skipBlanks 0 text.toList) := by
  rw [parseFormula]
  rcases skipBlanks 0 text.toList with ⟨offset, _ | ⟨c, rest⟩⟩ <;> rfl

end TypedFormula
