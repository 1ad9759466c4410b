import TypedFormula.Proofs.Escapes

/-!
# Towers of operators

Formulas that are higher than the number of levels that they need. The operators of a chain are
counted from the left, and what stands before an operator is not counted again when the operator is
put on top of it. So behind an operand that needs all levels there is still room for as many
operators of every precedence as there are levels:

  `F(…)^x*x…*x+x…+x&x…&x=x…=x`

Each level of calls adds such a floor. Floors may be shorter, so every height up to that of the
whole tower is the height of some formula (`reaches_of_le`).

The texts are put together from pieces that are read in the same way wherever they stand (`Scans`,
`Writes`), which is why variables are written between braces.

Main statements:

* `exists_parseFormula_of_le` — every height up to that of the whole tower is reached;
* `exists_parseFormula_signs` — signs and a product are higher than the levels that they take.
-/

namespace TypedFormula

/-! ### Pieces of texts -/

/-- Characters at an offset are certain tokens, and reading goes on behind them. -/
def Scans (offset : Nat) (chars rest : List Char) (tokens : List Located) (next : Nat) : Prop :=
  tokenize offset (chars ++ rest) =
    ⟨tokens ++ (tokenize next rest).tokens, (tokenize next rest).ending⟩

private theorem Scans.append {offset middle next : Nat} {chars more rest : List Char}
    {tokens tokens' : List Located} (h : Scans offset chars (more ++ rest) tokens middle)
    (h' : Scans middle more rest tokens' next) :
    Scans offset (chars ++ more) rest (tokens ++ tokens') next := by
  rw [Scans] at h h' ⊢
  rw [List.append_assoc, h, h', List.append_assoc]

private theorem scans_mark {c : Char} {m : Mark} (hblank : Text.isBlank c = false)
    (hmark : singleMark? c = some m) (offset : Nat) (rest : List Char) :
    Scans offset [c] rest [⟨.mark m, offset⟩] (offset + 1) := by
  have hskip : skipBlanks offset (c :: rest) = (offset, c :: rest) := by
    rw [skipBlanks, hblank]
    rfl
  have hscan : scan offset c rest = .ok ⟨.mark m, offset + 1, rest⟩ := by
    rw [scan, hmark]
  rw [Scans, List.singleton_append, tokenize_cons hskip hscan, List.singleton_append]

/-- A variable between braces. -/
def variableText : List Char := ['$', '\x7b', 'x', '\x7d']

private theorem scans_variable (offset : Nat) (rest : List Char) :
    Scans offset variableText rest [⟨.reference "x" none, offset⟩] (offset + 4) := by
  have hname : "x" ≠ "" := by decide
  have hscan : scan offset '$' ('\x7b' :: 'x' :: '\x7d' :: rest) =
      .ok ⟨.reference "x" none, offset + 4, rest⟩ :=
    scan_escapedReference offset rest hname none
  exact tokenize_cons rfl hscan

private theorem scans_call (offset : Nat) (rest : List Char) :
    Scans offset ['F', '('] rest
      [⟨.identifier "F", offset⟩, ⟨.mark .leftParen, offset + 1⟩] (offset + 2) := by
  have hscan : scan offset 'F' ('(' :: rest) =
      .ok ⟨.identifier "F", offset + 1, '(' :: rest⟩ := rfl
  have hname : Scans offset ['F'] ('(' :: rest) [⟨.identifier "F", offset⟩] (offset + 1) :=
    tokenize_cons rfl hscan
  exact hname.append (scans_mark rfl rfl (offset + 1) rest)

/-- Wherever some characters stand, they are tokens that are a phrase and an expression with a
property. -/
def Writes (chars : List Char) (P : List Located → Phrase → Expr → Prop) : Prop :=
  ∀ offset rest, ∃ tokens next a e, Scans offset chars rest tokens next ∧ P tokens a e

/-- A property may be replaced by what follows from it. -/
private theorem Writes.imp {chars : List Char} {P Q : List Located → Phrase → Expr → Prop}
    (h : Writes chars P) (himp : ∀ tokens a e, P tokens a e → Q tokens a e) : Writes chars Q := by
  intro offset rest
  obtain ⟨tokens, next, a, e, hscans, hP⟩ := h offset rest
  exact ⟨tokens, next, a, e, hscans, himp tokens a e hP⟩

/-! ### The scope of towers -/

namespace Tower

/-- A function of any single value. -/
def function : Function :=
  ⟨"F", "", [.one "value" .scalar], .known .float, none, fun _ => .ok (.float (.plain 0))⟩

/-- A number and a function of any single value. -/
def scope : Scope := ⟨Dict.ofList [("x", .float)], Registry.empty.registerAll [function]⟩

private theorem lookup?_function : scope.functions.lookup? "F" = some function := by
  have hregister : Registry.empty.register function =
      .ok (none, ⟨Registry.empty.functions.insert (Text.upper "F") function⟩) := rfl
  have hlookup := Registry.lookup?_register hregister "F"
  exact hlookup.trans (if_pos rfl)

/-- The function takes what is not known to be a list. -/
private theorem checkArguments_function {k : StaticKind} (h : k.isList = false) :
    function.checkArguments [k] = .ok (.known .float) := by
  rcases k with (k | k) | _
  · cases k <;> rfl
  · cases h
  · rfl

end Tower

open Tower

/-! ### Floors -/

/-- The kinds that what is built of a category may have, so that operators and the function take
it. -/
def Category.Fits : Category → StaticKind → Prop
  | .chain .comparison, k => k.isList = false
  | .chain .concat, k => k.isList = false
  | _, k => k.CountsAsNumber

/-- A phrase of a category and its expression, with levels that are enough and a height. -/
structure Built (c : Category) (levels height : Nat) (tokens : List Located) (a : Phrase)
    (e : Expr) : Prop where
  /-- The tokens are the phrase. -/
  derives : Derives c tokens a
  /-- The phrase is the expression. -/
  typed : Typed scope a e
  /-- The levels are enough. -/
  need_le : a.need ≤ levels
  /-- The height of the expression. -/
  height_eq : e.height = height
  /-- More can be put on top of the expression. -/
  fits : c.Fits e.kind

/-- The same for a chain with a number of links. -/
structure BuiltChain (p : Precedence) (links levels height : Nat) (tokens : List Located)
    (a : Phrase) (e : Expr) : Prop extends Built (.chain p) levels height tokens a e where
  /-- The number of links. -/
  links_eq : a.links p = links

/-- Some text is, wherever it stands, a phrase of a category and an expression of a height. -/
def Reaches (c : Category) (levels height : Nat) : Prop :=
  ∃ chars, Writes chars (Built c levels height)

/-- The mark of an operator of a precedence. -/
private def Precedence.mark : Precedence → Mark
  | comparison => .equal
  | concat => .ampersand
  | sum => .plus
  | product => .star

/-- The character of this mark. -/
private def Precedence.char : Precedence → Char
  | comparison => '='
  | concat => '&'
  | sum => '+'
  | product => '*'

/-- The operator of this mark. -/
private def Precedence.op : Precedence → BinaryOperator
  | comparison => .comparison .equal
  | concat => .concat
  | sum => .arithmetic .add
  | product => .arithmetic .multiply

section

variable {p : Precedence} {k : StaticKind} {levels height : Nat}

private theorem Precedence.operator?_mark (p : Precedence) :
    p.operator? (.mark p.mark) = some p.op := by
  cases p <;> rfl

/-- The operator takes what is built of its chain. -/
private theorem takes_of_fits (h : (Category.chain p).Fits k) : p.op.Takes k := by
  cases p <;> exact h

private theorem takes_float (p : Precedence) : p.op.Takes (.known .float) := by
  cases p
  · rfl
  · rfl
  · exact .inr (.inl rfl)
  · exact .inr (.inl rfl)

private theorem fits_op (p : Precedence) :
    (Category.chain p).Fits (.known (Expr.binaryKind p.op)) := by
  cases p
  · rfl
  · rfl
  · exact .inr (.inl rfl)
  · exact .inr (.inl rfl)

private theorem StaticKind.CountsAsNumber.isList_eq_false (h : k.CountsAsNumber) :
    k.isList = false := by
  rcases h with rfl | rfl | rfl | rfl <;> rfl

private theorem fits_chain_of_operand (h : p.operand.Fits k) : (Category.chain p).Fits k := by
  cases p
  · exact h
  · exact StaticKind.CountsAsNumber.isList_eq_false h
  · exact h
  · exact h

private theorem derives_variable (p : Precedence) (offset : Nat) :
    Derives p.operand [⟨.reference "x" none, offset⟩] (.reference offset "x" none) := by
  have hpower : Derives .power [⟨.reference "x" none, offset⟩] (.reference offset "x" none) :=
    .signed (.single (.reference offset "x" none))
  cases p
  · exact .operand (.operand (.operand hpower))
  · exact .operand (.operand hpower)
  · exact .operand hpower
  · exact hpower

private theorem typed_variable (offset : Nat) :
    Typed scope (.reference offset "x" none) (.reference offset "x" .float none) :=
  .reference offset rfl (.none .float)

/-- A variable has no height. -/
private theorem writes_variable (levels : Nat) : Writes variableText (Built .single levels 0) := by
  refine fun offset rest => ⟨_, _, .reference offset "x" none, .reference offset "x" .float none,
    scans_variable offset rest, ?_⟩
  exact ⟨.reference offset "x" none, typed_variable offset, Nat.zero_le _, rfl, .inr (.inl rfl)⟩

private theorem writes_sign {chars : List Char} (h : Writes chars (Built .signed levels height)) :
    Writes ('-' :: chars) (Built .signed (levels + 1) (height + 1)) := by
  intro offset rest
  obtain ⟨tokens, next, a, e, hscans, hbuilt⟩ := h (offset + 1) rest
  refine ⟨_, _, _, _, (scans_mark rfl rfl offset (chars ++ rest)).append hscans,
    .sign offset rfl hbuilt.derives, .sign offset hbuilt.typed hbuilt.fits,
    Nat.succ_le_succ hbuilt.need_le, ?_, .inr (.inl rfl)⟩
  rw [Expr.height, hbuilt.height_eq]

/-- An operand is a chain without links. -/
private theorem writes_operand {chars : List Char}
    (h : Writes chars (Built p.operand levels height)) :
    Writes chars (BuiltChain p 0 levels height) := by
  refine h.imp fun tokens a e hbuilt => ⟨?_, ?_⟩
  · exact { hbuilt with
      derives := .operand hbuilt.derives, fits := fits_chain_of_operand hbuilt.fits }
  · refine hbuilt.derives.links_eq_zero ?_
    rw [Precedence.rank_operand]
    exact Nat.lt_succ_self _

/-- A link makes a chain higher by one, where there is a level for it. -/
private theorem writes_link {chars : List Char} {links : Nat}
    (h : Writes chars (BuiltChain p links levels height)) (hlinks : links < levels) :
    Writes (chars ++ ([p.char] ++ variableText))
      (BuiltChain p (links + 1) levels (height + 1)) := by
  intro offset rest
  obtain ⟨tokens, next, a, e, hscans, hbuilt, ha⟩ := h offset ([p.char] ++ variableText ++ rest)
  have hmark : ∀ rest, Scans next [p.char] rest [⟨.mark p.mark, next⟩] (next + 1) := by
    intro rest
    cases p <;> exact scans_mark rfl rfl next rest
  have hx := scans_variable (next + 1) rest
  have hprec := Precedence.precedence?_of_operator? p.operator?_mark
  refine ⟨_, _, _, _, hscans.append ((hmark _).append hx),
    ⟨.link next hbuilt.derives p.operator?_mark (derives_variable p (next + 1)),
      .binary next hbuilt.typed (typed_variable (next + 1)) (takes_of_fits hbuilt.fits)
        (takes_float p), ?_, ?_, fits_op p⟩, ?_⟩
  · rw [Phrase.need_binary hprec, ha]
    exact Nat.max_le.mpr ⟨hbuilt.need_le, hlinks⟩
  · rw [Expr.height, hbuilt.height_eq]
    exact congrArg (· + 1) (Nat.max_zero _)
  · rw [Phrase.links_binary hprec, ha]

/-- A call takes a level and is higher by one. -/
private theorem reaches_call (h : Reaches (.chain .comparison) levels height) :
    Reaches .single (levels + 1) (height + 1) := by
  obtain ⟨chars, hchars⟩ := h
  refine ⟨['F', '('] ++ (chars ++ [')']), fun offset rest => ?_⟩
  obtain ⟨tokens, next, a, e, hscans, hbuilt⟩ := hchars (offset + 2) (')' :: rest)
  have htokens : ∀ q ∈ [tokens].zip [a], Derives (.chain .comparison) q.1 q.2 := by
    simpa using hbuilt.derives
  have htyped : ∀ q ∈ [a].zip [e], Typed scope q.1 q.2 := by
    simpa using hbuilt.typed
  refine ⟨_, _, _, _, (scans_call offset _).append (hscans.append (scans_mark rfl rfl next rest)),
    .call offset "F" (offset + 1) next rfl htokens (.one tokens),
    .call offset rfl htyped lookup?_function (checkArguments_function hbuilt.fits), ?_, ?_,
    .inr (.inl rfl)⟩
  · exact Nat.succ_le_succ (Nat.max_le.mpr ⟨hbuilt.need_le, Nat.zero_le _⟩)
  · rw [Expr.height, Expr.heights, Expr.heights, hbuilt.height_eq]
    exact congrArg (· + 1) (Nat.max_zero height)

private theorem reaches_power_of_single (h : Reaches .single levels height) :
    Reaches .power levels height := by
  obtain ⟨chars, hchars⟩ := h
  refine ⟨chars, hchars.imp fun tokens a e hbuilt => ?_⟩
  exact { hbuilt with derives := .signed (.single hbuilt.derives) }

/-- Where there is a level, a single operand can be raised to a power. -/
private theorem reaches_power_succ (h : Reaches .single (levels + 1) height) :
    Reaches .power (levels + 1) (height + 1) := by
  obtain ⟨chars, hchars⟩ := h
  refine ⟨chars ++ (['^'] ++ variableText), fun offset rest => ?_⟩
  obtain ⟨tokens, next, a, e, hscans, hbuilt⟩ := hchars offset (['^'] ++ variableText ++ rest)
  have hx := scans_variable (next + 1) rest
  refine ⟨_, _, _, _, hscans.append ((scans_mark rfl rfl next _).append hx),
    .power next (.single hbuilt.derives) (derives_variable .product (next + 1)),
    .binary next hbuilt.typed (typed_variable (next + 1)) hbuilt.fits (.inr (.inl rfl)), ?_, ?_,
    .inr (.inl rfl)⟩
  · exact Nat.max_le.mpr ⟨hbuilt.need_le, Nat.succ_le_succ (Nat.zero_le levels)⟩
  · rw [Expr.height, hbuilt.height_eq]
    exact congrArg (· + 1) (Nat.max_zero height)

private theorem reaches_chain (h : Reaches p.operand levels height) {links : Nat}
    (hlinks : links ≤ levels) : Reaches (.chain p) levels (height + links) := by
  have hall : ∃ chars, Writes chars (BuiltChain p links levels (height + links)) := by
    induction links with
    | zero =>
      obtain ⟨chars, hchars⟩ := h
      exact ⟨chars, writes_operand hchars⟩
    | succ links ih =>
      obtain ⟨chars, hchars⟩ := ih (Nat.le_of_succ_le hlinks)
      exact ⟨_, writes_link hchars hlinks⟩
  obtain ⟨chars, hchars⟩ := hall
  exact ⟨chars, hchars.imp fun _ _ _ h => h.toBuilt⟩

private theorem reaches_comparison (h : Reaches .power levels height) {more : Nat}
    (hmore : more ≤ 4 * levels) : Reaches (.chain .comparison) levels (height + more) := by
  -- the tightest chain is filled first, the others take what is left
  have hproduct := reaches_chain (p := .product) h (Nat.min_le_right more levels)
  have hsum := reaches_chain (p := .sum) hproduct (Nat.min_le_right (more - levels) levels)
  have hconcat := reaches_chain (p := .concat) hsum (Nat.min_le_right (more - 2 * levels) levels)
  have hcomparison :=
    reaches_chain (p := .comparison) hconcat (Nat.min_le_right (more - 3 * levels) levels)
  have htotal : height + more = height + min more levels + min (more - levels) levels +
      min (more - 2 * levels) levels + min (more - 3 * levels) levels := by
    omega
  rwa [htotal]

end

/-! ### Towers -/

theorem succ_mul_succ_self (n : Nat) : (n + 1) * (n + 1) = n * n + 2 * n + 1 := by
  rw [Nat.succ_mul, Nat.mul_succ]
  omega

/-- Every height up to that of a whole tower is reached. -/
theorem reaches_of_le {levels height : Nat} (h : height ≤ 2 * (levels * levels) + 4 * levels) :
    Reaches (.chain .comparison) levels height := by
  induction levels generalizing height with
  | zero =>
    obtain rfl : height = 0 := by omega
    exact reaches_comparison (reaches_power_of_single ⟨_, writes_variable 0⟩) (Nat.le_refl 0)
  | succ levels ih =>
    have hsquare := succ_mul_succ_self levels
    by_cases hlow : height ≤ 4 * (levels + 1)
    · have hbase := reaches_power_of_single ⟨_, writes_variable (levels + 1)⟩
      simpa using reaches_comparison hbase hlow
    · -- the chains of this floor are full, and the rest is a call, perhaps raised to a power
      obtain ⟨below, hbelow⟩ : ∃ below, height = below + 1 + 4 * (levels + 1) :=
        ⟨height - 1 - 4 * (levels + 1), by omega⟩
      rw [hbelow]
      refine reaches_comparison ?_ (Nat.le_refl _)
      by_cases hfull : below ≤ 2 * (levels * levels) + 4 * levels
      · exact reaches_power_of_single (reaches_call (ih hfull))
      · obtain rfl : below = 2 * (levels * levels) + 4 * levels + 1 := by omega
        exact reaches_power_succ (reaches_call (ih (Nat.le_refl _)))

private theorem exists_parseFormula_of_writes {chars : List Char} {height : Nat}
    (h : Writes chars (Built (.chain .comparison) maxNesting height)) :
    ∃ e, parseFormula scope (String.ofList ('=' :: chars)) = .ok e ∧ e.height = height := by
  obtain ⟨tokens, next, a, e, hscans, hbuilt⟩ := h 1 []
  have hempty : tokenize next [] = ⟨[], .ok next⟩ := tokenize_nil rfl
  rw [Scans, hempty, List.append_nil, List.append_nil] at hscans
  refine ⟨e, ?_, hbuilt.height_eq⟩
  refine parseFormula_ok_iff_expression.mpr ⟨0, chars, tokens, next, ?_, hscans, ?_⟩
  · rw [String.toList_ofList]
    rfl
  · exact expression_ok_iff.mpr ⟨a, hbuilt.derives, hbuilt.typed, hbuilt.need_le⟩

/-- Every height up to that of a whole tower is the height of a formula. -/
theorem exists_parseFormula_of_le {height : Nat}
    (h : height ≤ 2 * (maxNesting * maxNesting) + 4 * maxNesting) :
    ∃ text e, parseFormula scope text = .ok e ∧ e.height = height := by
  obtain ⟨chars, hchars⟩ := reaches_of_le h
  exact ⟨_, exists_parseFormula_of_writes hchars⟩

/-- Signs in front of a product take a level each, and the product none. -/
theorem exists_parseFormula_signs (signs : Nat) (h : 0 < signs) (h' : signs ≤ maxNesting) :
    ∃ e, parseFormula scope (String.ofList
        ('=' :: (List.replicate signs '-' ++ variableText ++ (['*'] ++ variableText)))) = .ok e ∧
      e.height = signs + 1 := by
  have hsigned : ∀ n, Writes (List.replicate n '-' ++ variableText) (Built .signed n n) := by
    intro n
    induction n with
    | zero =>
      refine (writes_variable 0).imp fun tokens a e hbuilt => ?_
      exact { hbuilt with derives := .single hbuilt.derives }
    | succ n ih => exact writes_sign ih
  have hpower : Writes (List.replicate signs '-' ++ variableText)
      (Built .power maxNesting signs) := by
    refine (hsigned signs).imp fun tokens a e hbuilt => ?_
    exact { hbuilt with
      derives := .signed hbuilt.derives, need_le := Nat.le_trans hbuilt.need_le h' }
  have hproduct := writes_link (writes_operand (p := .product) hpower) (Nat.lt_of_lt_of_le h h')
  have hsum := writes_operand (p := .sum) (hproduct.imp fun _ _ _ h => h.toBuilt)
  have hconcat := writes_operand (p := .concat) (hsum.imp fun _ _ _ h => h.toBuilt)
  have hcomparison := writes_operand (p := .comparison) (hconcat.imp fun _ _ _ h => h.toBuilt)
  exact exists_parseFormula_of_writes (hcomparison.imp fun _ _ _ h => h.toBuilt)

end TypedFormula
