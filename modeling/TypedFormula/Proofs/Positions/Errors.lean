import TypedFormula.Proofs.Parsing
import TypedFormula.Proofs.Positions

/-!
# Where the parser finds errors

The parser makes no offsets. An error is about the token at hand, about what follows the last token,
or about a node that was built before, and nodes have the offsets of tokens. So every property that
the offsets of all tokens and of the end have is one of the offset of an error.

The statement on a procedure is about its errors and its nodes at once (`Locates`), since the errors
of the procedures that call it are about its nodes. It follows the definitions: from the procedures
for one level less to those above them.

Main statements:

* `readAt_procedures` — what the procedures for any number of levels give has such an offset;
* `between_of_parseFormula` — an error of a text is about a place between its characters.
-/

namespace TypedFormula

/-! ### Located results -/

/-- The error is at an offset with a property, or the value has a property. -/
def Locates {α : Type} (P : Nat → Prop) (Q : α → Prop) : Except CompileError α → Prop
  | .error e => P e.offset
  | .ok a => Q a

/-- The offsets of all tokens have a property. -/
def AllAt (P : Nat → Prop) (tokens : List Located) : Prop := ∀ t ∈ tokens, P t.offset

/-- A node and the tokens behind it have offsets with a property. -/
def NodeAt (P : Nat → Prop) (r : Expr × List Located) : Prop := P r.1.offset ∧ AllAt P r.2

/-- A procedure gives nodes at offsets with a property, and has its errors there, if the tokens are
there. -/
def ReadsAt (P : Nat → Prop) (procedure : List Located → Parsed) : Prop :=
  ∀ tokens, AllAt P tokens → Locates P (NodeAt P) (procedure tokens)

/-- All procedures for a number of levels give nodes at offsets with a property, and have their
errors there. -/
structure Procedures.ReadAt (P : Nat → Prop) (procedures : Procedures) : Prop where
  /-- The procedure for expressions. -/
  expression : ReadsAt P procedures.expression
  /-- The procedures for operands. -/
  operand : ∀ p, ReadsAt P (procedures.operand p)
  /-- The procedures for chains, behind left operands that are there too. -/
  chain : ∀ p left, P left.offset → ReadsAt P (procedures.chain p left)
  /-- The procedure for signed operands. -/
  signed : ReadsAt P procedures.signed

section

variable {α : Type} {P : Nat → Prop} {Q : α → Prop} {r : Except CompileError α}

private theorem Locates.of_error (h : Locates P Q r) {e : CompileError} (hr : r = .error e) :
    P e.offset := by
  rw [hr] at h
  exact h

private theorem Locates.of_ok (h : Locates P Q r) {a : α} (hr : r = .ok a) : Q a := by
  rw [hr] at h
  exact h

private theorem allAt_cons {t : Located} {tokens : List Located} :
    AllAt P (t :: tokens) ↔ P t.offset ∧ AllAt P tokens := List.forall_mem_cons

end

/-! ### Taking tokens -/

section

variable {P : Nat → Prop} {ending : Except CompileError Nat} (hending : P (endOffset ending))

include hending

private theorem offset_endError (cause : CompileCause) : P (endError ending cause).offset := by
  cases ending <;> exact hending

private theorem locates_advance {rest : List Located} (hrest : AllAt P rest) :
    Locates P (AllAt P) (advance ending rest) := by
  rcases rest with _ | ⟨t, rest⟩
  · rcases ending with e | stop
    · exact hending
    · exact hrest
  · exact hrest

/-- A mark is taken, or the error is at what stands in its place. -/
private theorem locates_expectMark (m : Mark) {tokens : List Located} (htokens : AllAt P tokens) :
    Locates P (AllAt P) (expectMark ending m tokens) := by
  rcases tokens with _ | ⟨t, rest⟩
  · exact offset_endError hending _
  · obtain ⟨ht, hrest⟩ := allAt_cons.mp htokens
    rw [expectMark]
    split
    · exact locates_advance hending hrest
    · exact ht

end

/-! ### Building nodes -/

section

variable {P : Nat → Prop} {offset : Nat} (hoffset : P offset)

/-- An operand that is refused is where it stands. -/
private theorem locates_checkOperand (op : BinaryOperator) {operand : Expr}
    (hoperand : P operand.offset) :
    Locates P (fun _ => True) (checkOperand op operand) := by
  cases op
  · rw [checkOperand, checkNumber]
    split
    · trivial
    · exact hoperand
  all_goals
    rw [checkOperand, checkSingle]
    split
    · exact hoperand
    · trivial

include hoffset

/-- A sign stands at its offset, and what it does not take where it stands. -/
private theorem locates_typedUnary (op : UnaryOperator) {operand : Expr}
    (hoperand : P operand.offset) :
    Locates P (fun e => P e.offset) (typedUnary offset op operand) := by
  rw [typedUnary, checkNumber]
  split
  · rename_i e hcheck
    split at hcheck
    · cases hcheck
    · obtain rfl := Except.error.inj hcheck
      exact hoperand
  · exact hoffset

/-- An operator stands at its offset, and what it does not take where it stands. -/
private theorem locates_typedBinary (op : BinaryOperator) {left right : Expr}
    (hleft : P left.offset) (hright : P right.offset) :
    Locates P (fun e => P e.offset) (typedBinary offset op left right) := by
  rw [typedBinary]
  split
  · rename_i hcheck
    exact (locates_checkOperand op hleft).of_error hcheck
  · split
    · rename_i hcheck
      exact (locates_checkOperand op hright).of_error hcheck
    · exact hoffset

/-- A reference and its errors stand at its offset. -/
private theorem locates_typedReference (scope : Scope) (name : String) (default : Option String) :
    Locates P (fun e => P e.offset) (typedReference scope offset name default) := by
  have hdefault : ∀ kind, Locates P (fun _ => True) (typedDefault offset name kind default) := by
    intro kind
    rcases default with _ | text
    · trivial
    · rcases kind with k | k
      · rw [typedDefault]
        split
        · trivial
        · exact hoffset
      · exact hoffset
  rw [typedReference]
  split
  · exact hoffset
  · rename_i kind _
    split
    · rename_i hdef
      exact (hdefault kind).of_error hdef
    · exact hoffset

private theorem at_mismatchOffset {args : List Expr} (hargs : ∀ a ∈ args, P a.offset)
    (m : ArgumentMismatch) : P (mismatchOffset offset args m) := by
  have hget : ∀ i : Nat, P (((args[i]?).map Expr.offset).getD offset) := by
    intro i
    cases hi : args[i]? with
    | none => exact hoffset
    | some a => exact hargs a (List.mem_of_getElem? hi)
  cases m with
  | wrongKind ordinal found => exact hget (ordinal - 1)
  | tooMany max actual => exact hget max
  | tooFew expected actual => exact hoffset

private theorem locates_typedCall (name : String) (f : Function) {args : List Expr}
    (hargs : ∀ a ∈ args, P a.offset) :
    Locates P (fun e => P e.offset) (typedCall offset name f args) := by
  rw [typedCall]
  split
  · exact hoffset
  · exact at_mismatchOffset hoffset hargs _

end

/-! ### Procedures -/

section

variable {P : Nat → Prop} {scope : Scope} {ending : Except CompileError Nat}
  {inner : Option Procedures} {tokens : List Located}

/-- Arguments and their errors are where tokens are. -/
private theorem locates_parseArguments (hending : P (endOffset ending))
    {expression : List Located → Parsed} (hexpression : ReadsAt P expression) (more : Nat)
    (htokens : AllAt P tokens) :
    Locates P (fun r => (∀ a ∈ r.1, P a.offset) ∧ AllAt P r.2)
      (parseArguments ending expression more tokens) := by
  induction more generalizing tokens with
  | zero =>
    rw [parseArguments]
    split
    · rename_i he
      exact (hexpression tokens htokens).of_error he
    · rename_i arg rest he
      obtain ⟨harg, hrest⟩ := (hexpression tokens htokens).of_ok he
      split <;> exact ⟨List.forall_mem_singleton.mpr harg, hrest⟩
  | succ more ih =>
    rw [parseArguments]
    split
    · rename_i he
      exact (hexpression tokens htokens).of_error he
    · rename_i arg rest he
      obtain ⟨harg, hrest⟩ := (hexpression tokens htokens).of_ok he
      split
      · simp only
        have hcomma := locates_expectMark hending .comma hrest
        split
        · rename_i hmark
          exact hcomma.of_error hmark
        · rename_i rest₁ hmark
          have hothers := ih (hcomma.of_ok hmark)
          split
          · rename_i hmore
            exact hothers.of_error hmore
          · rename_i args rest₂ hmore
            obtain ⟨hargs, hrest₂⟩ := hothers.of_ok hmore
            exact ⟨List.forall_mem_cons.mpr ⟨harg, hargs⟩, hrest₂⟩
      · exact ⟨List.forall_mem_singleton.mpr harg, hrest⟩

variable (hending : P (endOffset ending))
  (hinner : ∀ level, inner = some level → level.ReadAt P)

include hending hinner

/-- A call and its errors are where tokens are. -/
private theorem locates_parseCall {offset : Nat} (hoffset : P offset) (name : String)
    (htokens : AllAt P tokens) :
    Locates P (NodeAt P) (parseCall scope ending inner offset name tokens) := by
  rw [parseCall]
  split
  · exact hoffset
  · rename_i f _
    have hleft := locates_expectMark hending .leftParen htokens
    split
    · rename_i hmark
      exact hleft.of_error hmark
    · rename_i rest₁ hmark
      have hrest₁ := hleft.of_ok hmark
      split
      · rename_i hlevel
        cases inner <;> cases hlevel
        exact hoffset
      · rename_i level hlevel
        have hargs : Locates P (fun r => (∀ a ∈ r.1, P a.offset) ∧ AllAt P r.2)
            (parseOptionalArguments ending level.expression rest₁) := by
          rw [parseOptionalArguments]
          split
          · exact ⟨List.forall_mem_nil _, hrest₁⟩
          · exact locates_parseArguments hending
              (hinner level (openLevel_ok_iff.mp hlevel)).expression _ hrest₁
        split
        · rename_i hparse
          exact hargs.of_error hparse
        · rename_i args rest₂ hparse
          obtain ⟨hall, hrest₂⟩ := hargs.of_ok hparse
          have hright := locates_expectMark hending .rightParen hrest₂
          split
          · rename_i hclose
            exact hright.of_error hclose
          · rename_i rest₃ hclose
            have hnode := locates_typedCall hoffset name f hall
            split
            · rename_i hcall
              exact hnode.of_error hcall
            · rename_i node hcall
              exact ⟨hnode.of_ok hcall, hright.of_ok hclose⟩

/-- What is in parentheses and its errors are where tokens are. -/
private theorem locates_parseParenthesized {offset : Nat} (hoffset : P offset)
    (htokens : AllAt P tokens) :
    Locates P (NodeAt P) (parseParenthesized ending inner offset tokens) := by
  rw [parseParenthesized]
  split
  · rename_i hlevel
    cases inner <;> cases hlevel
    exact hoffset
  · rename_i level hlevel
    have hnode := (hinner level (openLevel_ok_iff.mp hlevel)).expression tokens htokens
    split
    · rename_i hparse
      exact hnode.of_error hparse
    · rename_i node rest hparse
      obtain ⟨hat, hrest⟩ := hnode.of_ok hparse
      have hright := locates_expectMark hending .rightParen hrest
      split
      · rename_i hclose
        exact hright.of_error hclose
      · rename_i rest₁ hclose
        exact ⟨hat, hright.of_ok hclose⟩

/-- A single operand and its errors are where tokens are. -/
private theorem locates_parseSingle (htokens : AllAt P tokens) :
    Locates P (NodeAt P) (parseSingle scope ending inner tokens) := by
  rcases tokens with _ | ⟨t, rest⟩
  · exact offset_endError hending _
  obtain ⟨ht, hrest⟩ := allAt_cons.mp htokens
  rw [parseSingle]
  split
  · rename_i hadvance
    exact (locates_advance hending hrest).of_error hadvance
  · rename_i rest₁ hadvance
    have hrest₁ := (locates_advance hending hrest).of_ok hadvance
    split
    · exact ⟨ht, hrest₁⟩
    · exact ⟨ht, hrest₁⟩
    · exact ⟨ht, hrest₁⟩
    · rename_i name default _
      have hnode := locates_typedReference ht scope name default
      split
      · rename_i href
        exact hnode.of_error href
      · rename_i node href
        exact ⟨hnode.of_ok href, hrest₁⟩
    · split
      · exact locates_parseCall hending hinner ht _ hrest₁
      · exact ht
    · exact locates_parseParenthesized hending hinner ht hrest₁
    · exact ht

/-- A signed operand and its errors are where tokens are. -/
private theorem locates_parseSigned (htokens : AllAt P tokens) :
    Locates P (NodeAt P) (parseSigned scope ending inner tokens) := by
  rcases tokens with _ | ⟨t, rest⟩
  · exact offset_endError hending _
  rw [parseSigned]
  split
  · exact locates_parseSingle hending hinner htokens
  obtain ⟨ht, hrest⟩ := allAt_cons.mp htokens
  rename_i op _
  split
  · rename_i hadvance
    exact (locates_advance hending hrest).of_error hadvance
  rename_i rest₁ hadvance
  have hrest₁ := (locates_advance hending hrest).of_ok hadvance
  split
  · rename_i hlevel
    cases inner <;> cases hlevel
    exact ht
  rename_i level hlevel
  have hoperand := (hinner level (openLevel_ok_iff.mp hlevel)).signed rest₁ hrest₁
  split
  · rename_i hparse
    exact hoperand.of_error hparse
  rename_i operand rest₂ hparse
  obtain ⟨hat, hrest₂⟩ := hoperand.of_ok hparse
  have hnode := locates_typedUnary ht op hat
  split
  · rename_i hunary
    exact hnode.of_error hunary
  · rename_i node hunary
    exact ⟨hnode.of_ok hunary, hrest₂⟩

omit hending in
/-- The right operand of an operator, and the node that it makes, are where tokens are. -/
private theorem locates_right {p : Precedence} {offset : Nat} (hoffset : P offset)
    {level : Procedures} (hlevel : inner = some level) (op : BinaryOperator) {left right : Expr}
    {rest : List Located} (hleft : P left.offset) (htokens : AllAt P tokens)
    (hright : level.operand p tokens = .ok (right, rest)) :
    Locates P (fun e => P e.offset) (typedBinary offset op left right) ∧ AllAt P rest := by
  obtain ⟨hat, hrest⟩ := ((hinner level hlevel).operand p tokens htokens).of_ok hright
  exact ⟨locates_typedBinary hoffset op hleft hat, hrest⟩

/-- A power and its errors are where tokens are. -/
private theorem locates_parsePower (htokens : AllAt P tokens) :
    Locates P (NodeAt P) (parsePower scope ending inner tokens) := by
  have hsigned : Locates P (NodeAt P) (parseSigned scope ending inner tokens) :=
    locates_parseSigned hending hinner htokens
  rw [parsePower]
  split
  · rename_i hparse
    exact hsigned.of_error hparse
  · rename_i left hparse
    exact hsigned.of_ok hparse
  rename_i left t rest hparse
  obtain ⟨hleft, hrest⟩ := hsigned.of_ok hparse
  split
  · obtain ⟨ht, hrest⟩ := allAt_cons.mp hrest
    split
    · rename_i hadvance
      exact (locates_advance hending hrest).of_error hadvance
    rename_i rest₁ hadvance
    have hrest₁ := (locates_advance hending hrest).of_ok hadvance
    split
    · rename_i hlevel
      cases inner <;> cases hlevel
      exact ht
    rename_i level hlevel
    split
    · rename_i hright
      exact ((hinner level (openLevel_ok_iff.mp hlevel)).operand _ _ hrest₁).of_error hright
    rename_i right rest₂ hright
    obtain ⟨hnode, hrest₂⟩ := locates_right hinner ht (openLevel_ok_iff.mp hlevel)
      (.arithmetic .power) hleft hrest₁ hright
    split
    · rename_i hbinary
      exact hnode.of_error hbinary
    · rename_i node hbinary
      exact ⟨hnode.of_ok hbinary, hrest₂⟩
  · exact ⟨hleft, hrest⟩

/-- A chain and its errors are where tokens are. -/
private theorem locates_parseChain (p : Precedence) {left : Expr} (hleft : P left.offset)
    (htokens : AllAt P tokens) : Locates P (NodeAt P) (parseChain ending inner p left tokens) := by
  rcases tokens with _ | ⟨t, rest⟩
  · exact ⟨hleft, htokens⟩
  rw [parseChain]
  split
  · exact ⟨hleft, htokens⟩
  obtain ⟨ht, hrest⟩ := allAt_cons.mp htokens
  rename_i op _
  split
  · rename_i hadvance
    exact (locates_advance hending hrest).of_error hadvance
  rename_i rest₁ hadvance
  have hrest₁ := (locates_advance hending hrest).of_ok hadvance
  split
  · rename_i hlevel
    cases inner <;> cases hlevel
    exact ht
  rename_i level hlevel
  have hlevel := openLevel_ok_iff.mp hlevel
  split
  · rename_i hright
    exact ((hinner level hlevel).operand _ _ hrest₁).of_error hright
  rename_i right rest₂ hright
  obtain ⟨hnode, hrest₂⟩ := locates_right hinner ht hlevel op hleft hrest₁ hright
  split
  · rename_i hbinary
    exact hnode.of_error hbinary
  · rename_i node hbinary
    exact (hinner level hlevel).chain p node (hnode.of_ok hbinary) rest₂ hrest₂

/-- A chained category is read where tokens are if its operands are. -/
private theorem readsAt_parseChained (p : Precedence) {operand : List Located → Parsed}
    (hoperand : ReadsAt P operand) : ReadsAt P (parseChained ending inner p operand) := by
  rintro tokens htokens
  have hfirst := hoperand tokens htokens
  rw [parseChained]
  split
  · rename_i hparse
    exact hfirst.of_error hparse
  · rename_i left rest hparse
    obtain ⟨hleft, hrest⟩ := hfirst.of_ok hparse
    exact locates_parseChain hending hinner p hleft hrest

/-- The procedures above those for one level less give nodes where tokens are. -/
private theorem readAt_proceduresAbove : (proceduresAbove scope ending inner).ReadAt P := by
  have hpower : ReadsAt P (parsePower scope ending inner) :=
    fun _ => locates_parsePower hending hinner
  have hproduct : ReadsAt P (parseProduct scope ending inner) :=
    readsAt_parseChained hending hinner .product hpower
  have hsum : ReadsAt P (parseSum scope ending inner) :=
    readsAt_parseChained hending hinner .sum hproduct
  have hconcat : ReadsAt P (parseConcat scope ending inner) :=
    readsAt_parseChained hending hinner .concat hsum
  refine ⟨readsAt_parseChained hending hinner .comparison hconcat, fun p => ?_,
    fun p left hleft tokens => locates_parseChain hending hinner p hleft,
    fun tokens => locates_parseSigned hending hinner⟩
  cases p
  · exact hconcat
  · exact hsum
  · exact hproduct
  · exact hpower

end

/-- The procedures for any number of levels give nodes where tokens are, and have their errors
there or at the end. -/
theorem readAt_procedures {P : Nat → Prop} {scope : Scope} {ending : Except CompileError Nat}
    (hending : P (endOffset ending)) (levels : Nat) :
    (procedures scope ending levels).ReadAt P := by
  induction levels with
  | zero => exact readAt_proceduresAbove hending nofun
  | succ levels ih =>
    refine readAt_proceduresAbove hending fun level hlevel => ?_
    exact Option.some.inj hlevel ▸ ih

/-! ### Formulas -/

/-- An error of a text is about a place between its characters, or about its start or end. -/
theorem between_of_parseFormula {scope : Scope} {text : String} {e : CompileError}
    (h : parseFormula scope text = .error e) : Between 0 text.toList e.offset := by
  rw [parseFormula] at h
  split at h
  · rename_i offset hskip
    obtain rfl := Except.error.inj h
    exact (moves_skipBlanks hskip).between
  rename_i offset c rest hskip
  have hstart := moves_skipBlanks hskip
  split at h
  · rename_i hequals
    subst hequals
    have hplaced := placed_tokenize (offset + 1) rest
    have hbehind : ∀ {position}, Between (offset + 1) rest position →
        Between 0 text.toList position :=
      fun hposition => (hstart.trans (Moves.head offset '=' rest)).between_trans hposition
    have hending : Between 0 text.toList (endOffset (tokenize (offset + 1) rest).ending) :=
      hbehind hplaced.ending
    have htokens : AllAt (Between 0 text.toList) (tokenize (offset + 1) rest).tokens := by
      rintro t ht
      obtain ⟨d, others, hmoves⟩ := hplaced.tokens t ht
      exact hbehind hmoves.between
    simp only at h
    split at h
    · rename_i e' hadvance
      obtain rfl := Except.error.inj h
      exact (locates_advance hending htokens).of_error hadvance
    rename_i tokens hadvance
    have htokens' := (locates_advance hending htokens).of_ok hadvance
    have hread :
        Locates (Between 0 text.toList) (NodeAt (Between 0 text.toList))
          ((procedures scope (tokenize (offset + 1) rest).ending maxNesting).expression tokens) :=
      (readAt_procedures hending maxNesting).expression tokens htokens'
    split at h
    · rename_i e' hparse
      obtain rfl := Except.error.inj h
      exact hread.of_error hparse
    · cases h
    · rename_i node t others hparse
      obtain rfl := Except.error.inj h
      exact (hread.of_ok hparse).2 t List.mem_cons_self
  · obtain rfl := Except.error.inj h
    exact hstart.between

end TypedFormula
