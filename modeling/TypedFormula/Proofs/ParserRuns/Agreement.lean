import Mathlib
import TypedFormula.Proofs.Grammar.Soundness
import TypedFormula.Proofs.ParserRuns

/-!
# The steps are those of the parser

The parser of this library is a tower of procedures over the tokens of the whole text, where a
procedure is given those for one level less. The steps go over the text with one token in view and
with a count of open levels. Both have the same result for every text: what a procedure gives for
tokens, the steps give from its entry at a cursor that stands before these tokens, whatever
procedures wait, and with the count of open levels as it was (`Gives`).

The proof is by induction on the levels that are left, which are what the count is short of its
bound, and goes through the categories from tight to loose.

Main statements: `gives_reader`, `ends_iff`.
-/

namespace TypedFormula.ParserRun

/-! ### Cursors and tokens -/

/-- The tokens from a cursor on, and what follows them. -/
def Cursor.stream (cur : Cursor) : TokenStream :=
  match cur.token with
  | none => ⟨[], .ok cur.start⟩
  | some t => ⟨⟨t, cur.start⟩ :: (tokenize cur.pos cur.rest).tokens,
      (tokenize cur.pos cur.rest).ending⟩

/-- A cursor stands before tokens. -/
def Before (ending : Except CompileError Nat) (cur : Cursor) (tokens : List Located) : Prop :=
  cur.stream = ⟨tokens, ending⟩

/-- A cursor that is read stands before the tokens of the characters. -/
private theorem tokenize_of_read {pos : Nat} {chars : List Char} {cur : Cursor}
    (h : Cursor.read pos chars = .ok cur) : tokenize pos chars = cur.stream := by
  rcases hskip : skipBlanks pos chars with ⟨start, _ | ⟨c, rest⟩⟩
  · rw [Cursor.read, hskip] at h
    obtain rfl := Except.ok.inj h
    exact tokenize_nil hskip
  · cases hscan : scan start c rest with
    | error e => simp [Cursor.read, hskip, hscan] at h
    | ok s =>
      simp only [Cursor.read, hskip, hscan, Except.ok.injEq] at h
      subst h
      exact tokenize_cons hskip hscan

/-- Where no cursor is read there are no tokens. -/
private theorem tokenize_of_read_error {pos : Nat} {chars : List Char} {e : CompileError}
    (h : Cursor.read pos chars = .error e) : tokenize pos chars = ⟨[], .error e⟩ := by
  rcases hskip : skipBlanks pos chars with ⟨start, _ | ⟨c, rest⟩⟩
  · simp [Cursor.read, hskip] at h
  · cases hscan : scan start c rest with
    | error e' =>
      simp only [Cursor.read, hskip, hscan, Except.error.injEq] at h
      exact h ▸ tokenize_error hskip hscan
    | ok s => simp [Cursor.read, hskip, hscan] at h

section

variable {ending : Except CompileError Nat} {cur : Cursor} {tokens rest : List Located}

private theorem Before.eq_of_nil (h : Before ending cur []) :
    cur.token = none ∧ ending = .ok cur.start := by
  obtain ⟨token, start, pos, chars⟩ := cur
  cases token with
  | none => exact ⟨rfl, (congrArg TokenStream.ending h).symm⟩
  | some t => cases congrArg TokenStream.tokens h

private theorem Before.eq_of_cons {t : Located} (h : Before ending cur (t :: rest)) :
    cur.token = some t.token ∧ cur.start = t.offset ∧
      tokenize cur.pos cur.rest = ⟨rest, ending⟩ := by
  obtain ⟨token, start, pos, chars⟩ := cur
  cases token with
  | none => cases congrArg TokenStream.tokens h
  | some u =>
    obtain ⟨htoken, hrest⟩ := List.cons.inj (congrArg TokenStream.tokens h)
    exact ⟨htoken ▸ rfl, htoken ▸ rfl,
      congrArg₂ TokenStream.mk hrest (congrArg TokenStream.ending h)⟩

private theorem Before.token_eq (h : Before ending cur tokens) :
    cur.token = tokens.head?.map Located.token := by
  cases tokens with
  | nil => exact h.eq_of_nil.1
  | cons t rest => exact h.eq_of_cons.1

private theorem Before.nextIs_iff (h : Before ending cur tokens) (m : Mark) :
    nextIs m tokens = true ↔ cur.token = some (.mark m) := by
  rw [h.token_eq]
  cases tokens <;> simp [nextIs]

/-- What is left when tokens are taken is what a cursor stands before, and the errors agree. -/
private def Agrees (ending : Except CompileError Nat) (left : Except CompileError (List Located))
    (result : Except Stop Cursor) : Prop :=
  match left with
  | .error e => result = .error (.refused e)
  | .ok rest => ∃ next, result = .ok next ∧ Before ending next rest

private theorem Agrees.cases {left : Except CompileError (List Located)}
    {result : Except Stop Cursor} (h : Agrees ending left result) :
    (∃ e, left = .error e ∧ result = .error (.refused e)) ∨
      ∃ rest next, left = .ok rest ∧ result = .ok next ∧ Before ending next rest := by
  cases left with
  | error e => exact .inl ⟨e, rfl, h⟩
  | ok rest =>
    obtain ⟨next, hresult, hnext⟩ := h
    exact .inr ⟨rest, next, rfl, hresult, hnext⟩

/-- Moving on agrees. -/
private theorem Before.agrees_consume {t : Located} (h : Before ending cur (t :: rest)) :
    Agrees ending (advance ending rest) (orRefuse cur.consume) := by
  obtain ⟨-, -, htokens⟩ := h.eq_of_cons
  cases hread : cur.consume with
  | error e =>
    rw [tokenize_of_read_error hread] at htokens
    obtain ⟨rfl, rfl⟩ := TokenStream.mk.inj htokens
    rfl
  | ok next =>
    rw [tokenize_of_read hread] at htokens
    have hadvance : advance ending rest = .ok rest := by
      refine advance_ok_iff.mpr ⟨rfl, ?_⟩
      rintro rfl
      exact ⟨next.start, (Before.eq_of_nil htokens).2⟩
    rw [hadvance]
    exact ⟨next, rfl, htokens⟩

/-- Expecting a mark agrees. -/
private theorem Before.agrees_expect (h : Before ending cur tokens) (m : Mark) :
    Agrees ending (expectMark ending m tokens) (expect m cur) := by
  cases tokens with
  | nil =>
    obtain ⟨htoken, rfl⟩ := h.eq_of_nil
    rw [expect, htoken]
    rfl
  | cons t rest =>
    obtain ⟨htoken, hstart, -⟩ := h.eq_of_cons
    rw [expect, expectMark, htoken, hstart]
    by_cases ht : t.token = .mark m
    · rw [if_pos ht, if_pos (congrArg some ht)]
      exact h.agrees_consume
    · rw [if_neg ht, if_neg fun hsome => ht (Option.some.inj hsome)]
      rfl

end

/-! ### Levels -/

private theorem closeLevels_add (levels depth : Nat) :
    closeLevels levels (depth + levels) = .ok depth := by
  rw [closeLevels, if_pos (Nat.le_add_left _ _), Nat.add_sub_cancel]

/-! ### Procedures -/

section

variable (scope : Scope) (ending : Except CompileError Nat)

/-- From a configuration the parser comes to a stop. -/
def Halts (K : Config) (stop : Stop) : Prop := ∃ K', Steps scope K K' ∧ step scope K' = .error stop

/-- From a configuration the steps give what a procedure gives, and return it to the procedures that
wait. -/
def Gives (K : Config) (stack : List Frame) (depth : Nat) : Parsed → Prop
  | .error e => Halts scope K (.refused e)
  | .ok (e, rest) => ∃ cur, Before ending cur rest ∧ Steps scope K ⟨.done e, stack, cur, depth⟩

/-- The steps from the entries of procedures give what the procedures give within some levels. -/
def ReaderGives (levels : Nat) : Prop :=
  ∀ c stack cur depth tokens, depth + levels = maxNesting → Before ending cur tokens →
    Gives scope ending ⟨.enter c, stack, cur, depth⟩ stack depth
      (reader scope ending levels c tokens)

/-- The steps from a loop give the rest of its chain within some levels. -/
def ChainGives (levels : Nat) : Prop :=
  ∀ p left opened stack cur depth tokens, depth + opened + levels = maxNesting →
    Before ending cur tokens →
      Gives scope ending ⟨.link p left opened, stack, cur, depth + opened⟩ stack depth
        (parseChain ending (below scope ending levels) p left tokens)

end

section

variable {scope : Scope} {ending : Except CompileError Nat} {K K' : Config} {stack : List Frame}
  {depth : Nat}

private theorem Halts.head {stop : Stop} (h : Step scope K K') (h' : Halts scope K' stop) :
    Halts scope K stop :=
  h'.imp fun _ hsteps => ⟨.head h hsteps.1, hsteps.2⟩

private theorem Halts.trans {stop : Stop} (h : Steps scope K K') (h' : Halts scope K' stop) :
    Halts scope K stop :=
  h'.imp fun _ hsteps => ⟨h.trans hsteps.1, hsteps.2⟩

private theorem Gives.trans {result : Parsed} (h : Steps scope K K')
    (h' : Gives scope ending K' stack depth result) :
    Gives scope ending K stack depth result := by
  rcases result with e | ⟨e, rest⟩
  · exact Halts.trans h h'
  · exact h'.imp fun _ hcur => ⟨hcur.1, h.trans hcur.2⟩

private theorem Gives.head {result : Parsed} (h : Step scope K K')
    (h' : Gives scope ending K' stack depth result) :
    Gives scope ending K stack depth result :=
  Gives.trans (.single h) h'

private theorem gives_error {e : CompileError} (h : step scope K = .error (.refused e)) :
    Gives scope ending K stack depth (.error e) :=
  ⟨K, .refl, h⟩

private theorem gives_done {e : Expr} {cur : Cursor} {rest : List Located}
    (h : Before ending cur rest) :
    Gives scope ending ⟨.done e, stack, cur, depth⟩ stack depth (.ok (e, rest)) :=
  ⟨cur, h, .refl⟩

/-- A procedure has an error at which the steps halt, or an expression that they return. -/
private theorem Gives.cases {result : Parsed} (h : Gives scope ending K stack depth result) :
    (∃ e, result = .error e ∧ Halts scope K (.refused e)) ∨
      ∃ e rest cur, result = .ok (e, rest) ∧ Before ending cur rest ∧
        Steps scope K ⟨.done e, stack, cur, depth⟩ := by
  rcases result with e | ⟨e, rest⟩
  · exact .inl ⟨e, rfl, h⟩
  · obtain ⟨cur, hcur, hsteps⟩ := h
    exact .inr ⟨e, rest, cur, rfl, hcur, hsteps⟩

/-- A procedure that waits for another one and goes on with its expression. -/
private theorem Gives.bind {stack' : List Frame} {depth' : Nat} {result : Parsed}
    {after : Expr → List Located → Parsed} :
    Gives scope ending K stack' depth' result →
      (∀ e rest cur, Before ending cur rest →
        Gives scope ending ⟨.done e, stack', cur, depth'⟩ stack depth (after e rest)) →
      Gives scope ending K stack depth
        (match result with
        | .error e => .error e
        | .ok (e, rest) => after e rest) := by
  intro h hafter
  rcases h.cases with ⟨e, rfl, hhalts⟩ | ⟨e, rest, cur, rfl, hcur, hsteps⟩
  · exact hhalts
  · exact Gives.trans hsteps (hafter e rest cur hcur)

/-- A step that takes a token, or expects a mark, and goes on. -/
private theorem Agrees.gives {left : Except CompileError (List Located)}
    {result : Except Stop Cursor} {next : Cursor → Except Stop Config}
    {after : List Located → Parsed} :
    Agrees ending left result → step scope K = result >>= next →
      (∀ cur rest, Before ending cur rest → step scope K = next cur →
        Gives scope ending K stack depth (after rest)) →
      Gives scope ending K stack depth
        (match left with
        | .error e => .error e
        | .ok rest => after rest) := by
  intro hagrees hstep hafter
  rcases hagrees.cases with ⟨e, rfl, rfl⟩ | ⟨rest, cur, rfl, rfl, hcur⟩
  · exact gives_error hstep
  · exact hafter cur rest hcur hstep

/-- A step that opens a level and goes on. -/
private theorem gives_open {levels opened offset : Nat} (hdepth : opened + levels = maxNesting)
    {next : Nat → Except Stop Config} (hstep : step scope K = openOne offset opened >>= next)
    {after : Procedures → Parsed}
    (hafter : ∀ fewer, levels = fewer + 1 → step scope K = next (opened + 1) →
      Gives scope ending K stack depth (after (procedures scope ending fewer))) :
    Gives scope ending K stack depth
      (match openLevel (below scope ending levels) offset with
      | .error e => .error e
      | .ok level => after level) := by
  cases levels with
  | zero =>
    have hopen : openOne offset opened = .error (.refused ⟨.nestedTooDeeply, offset⟩) :=
      if_neg (by omega)
    rw [hopen] at hstep
    exact gives_error hstep
  | succ fewer =>
    have hopen : openOne offset opened = .ok (opened + 1) := if_pos (by omega)
    rw [hopen] at hstep
    exact hafter fewer rfl hstep

private theorem gives_typed {cur : Cursor} {rest : List Located} {node? : Except CompileError Expr}
    (hcur : Before ending cur rest) :
    step scope K = (orRefuse node? >>= fun node => pure ⟨.done node, stack, cur, depth⟩) →
      Gives scope ending K stack depth
        (match node? with
        | .error e => .error e
        | .ok node => .ok (node, rest)) := by
  intro h
  cases node? with
  | error e => exact gives_error h
  | ok node => exact Gives.head h (gives_done hcur)

end

/-! ### Arguments -/

section

variable {scope : Scope} {ending : Except CompileError Nat} {levels : Nat}

private theorem length_lt_of_reader {c : Category} {tokens rest : List Located} {e : Expr}
    (h : reader scope ending levels c tokens = .ok (e, rest)) : rest.length < tokens.length := by
  obtain ⟨used, a, rfl, hder, -⟩ := reads_of_reader h
  obtain ⟨t, others, rfl, -⟩ := hder.exists_cons
  simp

/-- The steps give arguments, behind others, as the parser does. -/
private theorem argumentsGive (ih : ReaderGives scope ending levels) {stack : List Frame}
    {depth : Nat} (hdepth : depth + levels = maxNesting) {offset : Nat} {name : String}
    {f : Function} {more : Nat} {tokens : List Located} (hmore : tokens.length ≤ more)
    (args : List Expr) {cur : Cursor} (hcur : Before ending cur tokens) :
    (∃ e, parseArguments ending (reader scope ending levels (.chain .comparison)) more tokens =
        .error e ∧
      Halts scope ⟨.enter (.chain .comparison), .argument offset name f args :: stack, cur, depth⟩
        (.refused e)) ∨
    ∃ es rest next,
      parseArguments ending (reader scope ending levels (.chain .comparison)) more tokens =
        .ok (es, rest) ∧ Before ending next rest ∧
      Steps scope ⟨.enter (.chain .comparison), .argument offset name f args :: stack, cur, depth⟩
        ⟨.close offset name f (args ++ es), stack, next, depth⟩ := by
  induction more generalizing tokens args cur with
  | zero =>
    have hgives := ih (.chain .comparison) (.argument offset name f args :: stack) cur depth tokens
      hdepth hcur
    rcases hgives.cases with ⟨e, harg, hhalts⟩ | ⟨arg, rest, next, harg, hnext, hsteps⟩
    · exact .inl ⟨e, by rw [parseArguments, harg], hhalts⟩
    · -- an argument would take a token, and there is none
      have hlt := length_lt_of_reader harg
      omega
  | succ more ihmore =>
    have hgives := ih (.chain .comparison) (.argument offset name f args :: stack) cur depth tokens
      hdepth hcur
    rcases hgives.cases with ⟨e, harg, hhalts⟩ | ⟨arg, rest, next, harg, hnext, hsteps⟩
    · exact .inl ⟨e, by rw [parseArguments, harg], hhalts⟩
    · have hlt := length_lt_of_reader harg
      by_cases hcomma : nextIs .comma rest = true
      · have htoken := (hnext.nextIs_iff .comma).mp hcomma
        have hback : step scope ⟨.done arg, .argument offset name f args :: stack, next, depth⟩ =
            (expect .comma next).map fun last => ⟨.enter (.chain .comparison),
              .argument offset name f (args ++ [arg]) :: stack, last, depth⟩ := by
          rw [step, resume, if_pos htoken, expect, if_pos htoken]
          rfl
        rcases (hnext.agrees_expect .comma).cases with
          ⟨e, hmark, hexpect⟩ | ⟨rest', last, hmark, hexpect, hlast⟩
        · rw [hexpect] at hback
          exact .inl ⟨e, by rw [parseArguments]; simp only [harg, hcomma, hmark, if_true],
            .trans hsteps ⟨_, .refl, hback⟩⟩
        · rw [hexpect] at hback
          have hshorter : rest'.length ≤ more := by
            obtain ⟨offset', rfl, -⟩ := expectMark_ok_iff.mp hmark
            rw [List.length_cons] at hlt
            omega
          rcases ihmore hshorter (args ++ [arg]) hlast with
            ⟨e, hargs, hhalts⟩ | ⟨es, rest'', final, hargs, hfinal, hsteps'⟩
          · exact .inl ⟨e, by rw [parseArguments]; simp only [harg, hcomma, hmark, hargs, if_true],
              .trans hsteps (.head hback hhalts)⟩
          · refine .inr ⟨arg :: es, rest'', final,
              by rw [parseArguments]; simp only [harg, hcomma, hmark, hargs, if_true], hfinal, ?_⟩
            rw [List.append_assoc] at hsteps'
            exact hsteps.trans (.head hback hsteps')
      · have htoken : next.token ≠ some (.mark .comma) := fun h =>
          hcomma ((hnext.nextIs_iff .comma).mpr h)
        have hback : step scope ⟨.done arg, .argument offset name f args :: stack, next, depth⟩ =
            .ok ⟨.close offset name f (args ++ [arg]), stack, next, depth⟩ := by
          rw [step, resume, if_neg htoken]
          rfl
        refine .inr ⟨[arg], rest, next, ?_, hnext, hsteps.tail hback⟩
        rw [parseArguments, harg]
        exact if_neg hcomma

/-- The steps behind the arguments of a call. -/
private theorem gives_close {stack : List Frame} {depth offset : Nat} {name : String} {f : Function}
    {args : List Expr} {cur : Cursor} {tokens : List Located} (hcur : Before ending cur tokens) :
    Gives scope ending ⟨.close offset name f args, stack, cur, depth + 1⟩ stack depth
      (match expectMark ending .rightParen tokens with
      | .error e => .error e
      | .ok rest =>
        match typedCall offset name f args with
        | .error e => .error e
        | .ok node => .ok (node, rest)) := by
  have hstep : step scope ⟨.close offset name f args, stack, cur, depth + 1⟩ =
      (expect .rightParen cur >>= fun cur => orRefuse (typedCall offset name f args) >>= fun node =>
        pure ⟨.done node, stack, cur, depth⟩) := by
    rw [step, close, closeLevels_add]
    rfl
  exact (hcur.agrees_expect .rightParen).gives hstep fun next rest hnext => gives_typed hnext

end

/-! ### One number of levels -/

section

variable {scope : Scope} {ending : Except CompileError Nat} {levels : Nat}
  (ih : ∀ fewer, levels = fewer + 1 →
    ReaderGives scope ending fewer ∧ ChainGives scope ending fewer)
  {stack : List Frame} {cur : Cursor} {depth : Nat} {tokens rest : List Located}

include ih

/-- The steps for parentheses. -/
private theorem gives_parenthesized (hdepth : depth + levels = maxNesting) {offset : Nat}
    (hcur : Before ending cur rest) {K : Config}
    (hstep : step scope K = (openOne offset depth >>= fun depth =>
      pure ⟨.enter (.chain .comparison), .parens :: stack, cur, depth⟩)) :
    Gives scope ending K stack depth
      (parseParenthesized ending (below scope ending levels) offset rest) := by
  rw [parseParenthesized]
  refine gives_open hdepth hstep fun fewer hlevels hopened => Gives.head hopened ?_
  rw [expression_procedures]
  refine Gives.bind ((ih fewer hlevels).1 _ _ _ _ _ (by omega) hcur) fun node rest next hnext => ?_
  have hback : step scope ⟨.done node, .parens :: stack, next, depth + 1⟩ =
      (expect .rightParen next >>= fun next => pure ⟨.done node, stack, next, depth⟩) := by
    rw [step, resume, closeLevels_add]
    rfl
  exact (hnext.agrees_expect .rightParen).gives hback fun last rest hlast hreturned =>
    Gives.head hreturned (gives_done hlast)

/-- The steps for calls. -/
private theorem gives_call (hdepth : depth + levels = maxNesting) (offset : Nat) (name : String)
    (hcur : Before ending cur tokens) :
    Gives scope ending ⟨.call offset name, stack, cur, depth⟩ stack depth
      (parseCall scope ending (below scope ending levels) offset name tokens) := by
  rw [parseCall]
  cases hlookup : scope.functions.lookup? name with
  | none => exact gives_error (by rw [step, call, hlookup])
  | some f =>
    have hstep : step scope ⟨.call offset name, stack, cur, depth⟩ =
        (expect .leftParen cur >>= fun cur => openOne offset depth >>= fun depth =>
          if cur.token = some (.mark .rightParen) then
            pure ⟨.close offset name f [], stack, cur, depth⟩
          else
            pure ⟨.enter (.chain .comparison), .argument offset name f [] :: stack, cur,
              depth⟩) := by
      rw [step, call, hlookup]
    refine (hcur.agrees_expect .leftParen).gives hstep fun next rest hnext htaken => ?_
    refine gives_open hdepth htaken fun fewer hlevels hopened => ?_
    rw [expression_procedures]
    by_cases hclosed : nextIs .rightParen rest = true
    · have htoken := (hnext.nextIs_iff .rightParen).mp hclosed
      simp only [parseOptionalArguments, if_pos hclosed]
      exact Gives.head (hopened.trans (if_pos htoken)) (gives_close hnext)
    · have htoken : next.token ≠ some (.mark .rightParen) := fun h =>
        hclosed ((hnext.nextIs_iff .rightParen).mpr h)
      simp only [parseOptionalArguments, if_neg hclosed]
      refine Gives.head (hopened.trans (if_neg htoken)) ?_
      rcases argumentsGive (ih fewer hlevels).1 (by omega : depth + 1 + fewer = maxNesting)
          (Nat.le_refl _) [] hnext with
        ⟨e, hargs, hhalts⟩ | ⟨es, rest', last, hargs, hlast, hsteps⟩
      · simp only [hargs]
        exact hhalts
      · simp only [hargs]
        exact Gives.trans hsteps (gives_close hlast)

/-- The steps for single operands. -/
private theorem gives_single (hdepth : depth + levels = maxNesting)
    (hcur : Before ending cur tokens) :
    Gives scope ending ⟨.enter .single, stack, cur, depth⟩ stack depth
      (reader scope ending levels .single tokens) := by
  rw [reader]
  cases tokens with
  | nil =>
    obtain ⟨htoken, rfl⟩ := hcur.eq_of_nil
    exact gives_error (by rw [step, enter, htoken]; rfl)
  | cons t rest =>
    obtain ⟨t, offset⟩ := t
    obtain ⟨htoken, rfl, -⟩ := hcur.eq_of_cons
    have hstep : step scope ⟨.enter .single, stack, cur, depth⟩ =
        takeSingle scope stack cur depth t := by
      rw [step, enter, htoken]
    rw [parseSingle]
    refine hcur.agrees_consume.gives hstep fun next rest hnext htaken => ?_
    cases t with
    | number x => exact Gives.head htaken (gives_done hnext)
    | string s => exact Gives.head htaken (gives_done hnext)
    | boolean b => exact Gives.head htaken (gives_done hnext)
    | reference name default => exact gives_typed hnext htaken
    | identifier name =>
      by_cases hparen : nextIs .leftParen rest = true
      · have hcalled : step scope ⟨.enter .single, stack, cur, depth⟩ =
            .ok ⟨.call cur.start name, stack, next, depth⟩ :=
          htaken.trans (if_pos ((hnext.nextIs_iff .leftParen).mp hparen))
        simp only [if_pos hparen]
        exact Gives.head hcalled (gives_call ih hdepth cur.start name hnext)
      · have hrefused : step scope ⟨.enter .single, stack, cur, depth⟩ =
            .error (.refused ⟨.unknownIdentifier name, cur.start⟩) :=
          htaken.trans (if_neg fun h => hparen ((hnext.nextIs_iff .leftParen).mpr h))
        simp only [if_neg hparen]
        exact gives_error hrefused
    | mark m =>
      cases m with
      | leftParen => exact gives_parenthesized ih hdepth hnext htaken
      | _ => exact gives_error htaken

/-- The steps for signed operands. -/
private theorem gives_signed (hdepth : depth + levels = maxNesting)
    (hcur : Before ending cur tokens) :
    Gives scope ending ⟨.enter .signed, stack, cur, depth⟩ stack depth
      (reader scope ending levels .signed tokens) := by
  have hsingle : cur.token.bind sign? = none →
      Gives scope ending ⟨.enter .signed, stack, cur, depth⟩ stack depth
        (reader scope ending levels .single tokens) := by
    intro hsign
    refine Gives.head ?_ (gives_single ih hdepth hcur)
    rw [Step, step, enter, hsign]
    rfl
  rw [reader]
  cases tokens with
  | nil => exact hsingle (by rw [hcur.eq_of_nil.1]; rfl)
  | cons t rest =>
    obtain ⟨htoken, hstart, -⟩ := hcur.eq_of_cons
    rw [parseSigned]
    cases hsign : sign? t.token with
    | none => exact hsingle (by rw [htoken]; exact hsign)
    | some op =>
      have hstep : step scope ⟨.enter .signed, stack, cur, depth⟩ =
          (orRefuse cur.consume >>= fun next => openOne t.offset depth >>= fun depth =>
            pure ⟨.enter .signed, .sign t.offset op :: stack, next, depth⟩) := by
        rw [step, enter, htoken, Option.bind_some, hsign, hstart]
      refine hcur.agrees_consume.gives hstep fun next rest hnext htaken => ?_
      refine gives_open hdepth htaken fun fewer hlevels hopened => Gives.head hopened ?_
      rw [signed_procedures]
      refine Gives.bind ((ih fewer hlevels).1 _ _ _ _ _ (by omega) hnext)
        fun operand rest last hlast => ?_
      have hback : step scope ⟨.done operand, .sign t.offset op :: stack, last, depth + 1⟩ =
          (orRefuse (typedUnary t.offset op operand) >>= fun node =>
            pure ⟨.done node, stack, last, depth⟩) := by
        rw [step, resume, closeLevels_add]
        rfl
      exact gives_typed hlast hback

/-- The steps for operands of `*` and `/`. -/
private theorem gives_power (hdepth : depth + levels = maxNesting)
    (hcur : Before ending cur tokens) :
    Gives scope ending ⟨.enter .power, stack, cur, depth⟩ stack depth
      (reader scope ending levels .power tokens) := by
  have hfirst : Step scope ⟨.enter .power, stack, cur, depth⟩
      ⟨.enter .signed, .base :: stack, cur, depth⟩ := rfl
  have hbase : Gives scope ending ⟨.enter .signed, .base :: stack, cur, depth⟩ (.base :: stack)
      depth (parseSigned scope ending (below scope ending levels) tokens) :=
    gives_signed ih hdepth hcur
  refine Gives.head hfirst ?_
  rw [reader, parsePower]
  rcases hbase.cases with ⟨e, hread, hhalts⟩ | ⟨left, rest, next, hread, hnext, hsteps⟩
  · rw [hread]
    exact hhalts
  · rw [hread]
    refine Gives.trans hsteps ?_
    have hlast : next.token ≠ some (.mark .caret) →
        Step scope ⟨.done left, .base :: stack, next, depth⟩ ⟨.done left, stack, next, depth⟩ := by
      intro hcaret
      rw [Step, step, resume, if_neg hcaret]
      rfl
    -- the operand stands alone unless it is raised
    cases rest with
    | nil => exact Gives.head (hlast (by simp [hnext.eq_of_nil.1])) (gives_done hnext)
    | cons t rest =>
      obtain ⟨htoken, hstart, -⟩ := hnext.eq_of_cons
      by_cases ht : t.token = .mark .caret
      · have hstep : step scope ⟨.done left, .base :: stack, next, depth⟩ =
            (orRefuse next.consume >>= fun next => openOne t.offset depth >>= fun depth =>
              pure ⟨.enter .power, .exponent t.offset left :: stack, next, depth⟩) := by
          rw [step, resume, if_pos (htoken.trans (congrArg some ht)), hstart]
        simp only [if_pos ht]
        refine hnext.agrees_consume.gives hstep fun next rest hnext htaken => ?_
        refine gives_open hdepth htaken fun fewer hlevels hopened => Gives.head hopened ?_
        rw [operand_procedures]
        refine Gives.bind ((ih fewer hlevels).1 _ _ _ _ _ (by omega) hnext)
          fun right rest last hlast => ?_
        have hback : step scope ⟨.done right, .exponent t.offset left :: stack, last, depth + 1⟩ =
            (orRefuse (typedBinary t.offset (.arithmetic .power) left right) >>= fun node =>
              pure ⟨.done node, stack, last, depth⟩) := by
          rw [step, resume, closeLevels_add]
          rfl
        exact gives_typed hlast hback
      · have hcaret : next.token ≠ some (.mark .caret) := by
          rw [htoken]
          exact fun h => ht (Option.some.inj h)
        simp only [if_neg ht]
        exact Gives.head (hlast hcaret) (gives_done hnext)

/-- The steps for the rest of a chain. -/
private theorem chainGives : ChainGives scope ending levels := by
  intro p left opened stack cur depth tokens hdepth hcur
  have hlast : cur.token.bind p.operator? = none →
      Step scope ⟨.link p left opened, stack, cur, depth + opened⟩
        ⟨.done left, stack, cur, depth⟩ := by
    intro hop
    rw [Step, step, link, hop]
    simp only [closeLevels_add]
    rfl
  cases tokens with
  | nil => exact Gives.head (hlast (by rw [hcur.eq_of_nil.1]; rfl)) (gives_done hcur)
  | cons t rest =>
    obtain ⟨htoken, hstart, -⟩ := hcur.eq_of_cons
    rw [parseChain]
    cases hop : p.operator? t.token with
    | none => exact Gives.head (hlast (by rw [htoken]; exact hop)) (gives_done hcur)
    | some op =>
      have hstep : step scope ⟨.link p left opened, stack, cur, depth + opened⟩ =
          (orRefuse cur.consume >>= fun next => openOne t.offset (depth + opened) >>= fun depth =>
            pure ⟨.enter p.operand, .link p op t.offset left (opened + 1) :: stack, next,
              depth⟩) := by
        rw [step, link, htoken, Option.bind_some, hop, hstart]
      refine hcur.agrees_consume.gives hstep fun next rest hnext htaken => ?_
      refine gives_open hdepth htaken fun fewer hlevels hopened => Gives.head hopened ?_
      rw [operand_procedures, chain_procedures]
      refine Gives.bind ((ih fewer hlevels).1 _ _ _ _ _ (by omega) hnext)
        fun right rest last hlast' => ?_
      have hback : step scope ⟨.done right, .link p op t.offset left (opened + 1) :: stack, last,
          depth + opened + 1⟩ = (orRefuse (typedBinary t.offset op left right) >>= fun node =>
            pure ⟨.link p node (opened + 1), stack, last, depth + opened + 1⟩) := rfl
      cases htyped : typedBinary t.offset op left right with
      | error e =>
        rw [htyped] at hback
        exact gives_error hback
      | ok node =>
        rw [htyped] at hback
        -- the loop goes on with one level more of its own and one less to open
        exact Gives.head hback
          ((ih fewer hlevels).2 p node (opened + 1) stack last depth rest (by omega) hlast')

private theorem gives_chain (hdepth : depth + levels = maxNesting) (p : Precedence)
    (hoperand : Gives scope ending ⟨.enter p.operand, .operand p :: stack, cur, depth⟩
      (.operand p :: stack) depth (reader scope ending levels p.operand tokens)) :
    Gives scope ending ⟨.enter (.chain p), stack, cur, depth⟩ stack depth
      (reader scope ending levels (.chain p) tokens) := by
  have hfirst : Step scope ⟨.enter (.chain p), stack, cur, depth⟩
      ⟨.enter p.operand, .operand p :: stack, cur, depth⟩ := rfl
  rw [reader_chain, parseChained]
  refine Gives.head hfirst (Gives.bind hoperand fun left rest next hnext => ?_)
  have hback : Step scope ⟨.done left, .operand p :: stack, next, depth⟩
      ⟨.link p left 0, stack, next, depth⟩ := rfl
  exact Gives.head hback (chainGives ih p left 0 stack next depth rest (by omega) hnext)

end

/-! ### All levels -/

/-- The steps give what the procedures of the parser give, within any number of levels. -/
theorem gives_reader (scope : Scope) (ending : Except CompileError Nat) (levels : Nat) :
    ReaderGives scope ending levels ∧ ChainGives scope ending levels := by
  induction levels using Nat.strongRecOn with
  | ind levels ih =>
    have hfewer : ∀ fewer, levels = fewer + 1 →
        ReaderGives scope ending fewer ∧ ChainGives scope ending fewer :=
      fun fewer h => ih fewer (h ▸ Nat.lt_succ_self fewer)
    refine ⟨?_, chainGives hfewer⟩
    intro c stack cur depth tokens hdepth hcur
    have hproduct : ∀ stack, Gives scope ending ⟨.enter (.chain .product), stack, cur, depth⟩ stack
        depth (reader scope ending levels (.chain .product) tokens) :=
      fun _ => gives_chain hfewer hdepth .product (gives_power hfewer hdepth hcur)
    have hsum : ∀ stack, Gives scope ending ⟨.enter (.chain .sum), stack, cur, depth⟩ stack depth
        (reader scope ending levels (.chain .sum) tokens) :=
      fun _ => gives_chain hfewer hdepth .sum (hproduct _)
    have hconcat : ∀ stack, Gives scope ending ⟨.enter (.chain .concat), stack, cur, depth⟩ stack
        depth (reader scope ending levels (.chain .concat) tokens) :=
      fun _ => gives_chain hfewer hdepth .concat (hsum _)
    cases c with
    | chain p =>
      cases p with
      | comparison => exact gives_chain hfewer hdepth .comparison (hconcat _)
      | concat => exact hconcat stack
      | sum => exact hsum stack
      | product => exact hproduct stack
    | power => exact gives_power hfewer hdepth hcur
    | signed => exact gives_signed hfewer hdepth hcur
    | single => exact gives_single hfewer hdepth hcur

/-! ### Texts -/

/-- The stop for what the parser gives for a text. -/
def Stop.ofResult : Except CompileError Expr → Stop
  | .ok e => .accepted e
  | .error e => .refused e

section

variable {scope : Scope} {text : String}

/-- The steps for the tokens behind the equals sign. -/
private theorem halts_parseTokens (scope : Scope) (cur : Cursor) :
    Halts scope ⟨.enter (.chain .comparison), [], cur, 0⟩
      (.ofResult (parseTokens scope cur.stream)) := by
  have hcur : Before cur.stream.ending cur cur.stream.tokens := rfl
  have hadvance : advance cur.stream.ending cur.stream.tokens = .ok cur.stream.tokens := by
    refine advance_ok_iff.mpr ⟨rfl, fun hnil => ⟨cur.start, ?_⟩⟩
    rw [hnil] at hcur
    exact hcur.eq_of_nil.2
  have hgives := (gives_reader scope cur.stream.ending maxNesting).1 (.chain .comparison) [] cur 0
    cur.stream.tokens (Nat.zero_add _) hcur
  rw [parseTokens, hadvance]
  simp only [expression_procedures]
  rcases hgives.cases with ⟨e, hread, hhalts⟩ | ⟨node, rest, last, hread, hlast, hsteps⟩
  · simp only [hread]
    exact hhalts
  · simp only [hread]
    cases rest with
    | nil =>
      refine .trans hsteps ⟨_, .refl, ?_⟩
      rw [step, finish, hlast.eq_of_nil.1]
      rfl
    | cons t rest =>
      obtain ⟨htoken, hstart, -⟩ := hlast.eq_of_cons
      refine .trans hsteps ⟨_, .refl, ?_⟩
      rw [step, finish, htoken, hstart]
      rfl

/-- The steps come to the result of the parser. -/
private theorem ends_parseFormula (scope : Scope) (text : String) :
    Ends scope text (.ofResult (parseFormula scope text)) := by
  rw [parseFormula_eq]
  rcases hskip : skipBlanks 0 text.toList with ⟨offset, _ | ⟨c, rest⟩⟩
  · refine .inl ?_
    rw [start, hskip]
    rfl
  · have hstart : start text = if c = '=' then
        orRefuse (Cursor.read (offset + 1) rest) >>= fun cur =>
          pure ⟨.enter (.chain .comparison), [], cur, 0⟩
        else .error (.refused ⟨.missingEquals, offset⟩) := by
      rw [start, hskip]
    rw [parseStart]
    by_cases hc : c = '='
    · rw [if_pos hc] at hstart ⊢
      cases hread : Cursor.read (offset + 1) rest with
      | error e =>
        rw [hread] at hstart
        rw [tokenize_of_read_error hread]
        exact .inl hstart
      | ok cur =>
        rw [hread] at hstart
        rw [tokenize_of_read hread]
        obtain ⟨K, hsteps, hstop⟩ := halts_parseTokens scope cur
        exact .inr ⟨K, ⟨_, hstart, hsteps⟩, hstop⟩
    · rw [if_neg hc] at hstart ⊢
      exact .inl hstart

/-- No steps lead away from where the parser stops. -/
private theorem Steps.eq_of_stop {K K' : Config} {stop : Stop} (h : Steps scope K K')
    (hstop : step scope K = .error stop) : K' = K := by
  cases h using Relation.ReflTransGen.head_induction_on with
  | refl => rfl
  | head hstep _ =>
    rw [Step, hstop] at hstep
    cases hstep

/-- The parser stops in one way. -/
theorem Ends.unique {stop stop' : Stop} (h : Ends scope text stop) (h' : Ends scope text stop') :
    stop = stop' := by
  have hstep : Relator.RightUnique (Step scope) := by
    intro K L M hL hM
    exact Except.ok.inj (hL.symm.trans hM)
  rcases h with hstart | ⟨K, ⟨first, hfirst, hsteps⟩, hstop⟩
  · rcases h' with hstart' | ⟨_, ⟨first, hfirst, _⟩, _⟩
    · exact Except.error.inj (hstart.symm.trans hstart')
    · cases hstart.symm.trans hfirst
  · rcases h' with hstart' | ⟨K', ⟨first', hfirst', hsteps'⟩, hstop'⟩
    · cases hstart'.symm.trans hfirst
    · obtain rfl := Except.ok.inj (hfirst.symm.trans hfirst')
      have hsame : K' = K := by
        rcases Relation.ReflTransGen.total_of_right_unique hstep hsteps hsteps' with hle | hle
        · exact Steps.eq_of_stop hle hstop
        · exact (Steps.eq_of_stop hle hstop').symm
      rw [hsame] at hstop'
      exact Except.error.inj (hstop.symm.trans hstop')

/-- What the steps come to is the result of the parser. -/
theorem ends_iff {stop : Stop} :
    Ends scope text stop ↔ stop = .ofResult (parseFormula scope text) := by
  constructor
  · exact fun h => h.unique (ends_parseFormula scope text)
  · rintro rfl
    exact ends_parseFormula scope text

end

end TypedFormula.ParserRun
