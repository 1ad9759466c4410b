import TypedFormula.Command
import TypedFormula.Proofs.Failures
import TypedFormula.Proofs.Positions.Errors
import TypedFormula.Proofs.Variables

/-!
# Offsets point into the text

The offset of every error and of every node is a position of the text, and that of a node is in
front of a character. No two instructions have the same offset, so that the offset of an error of a
run is that of one instruction.

The command prints a caret under the text of a formula, moved to the right by the number of
characters before the offset. This is the column of the character at the offset as long as the
character is in the first line of the text, and the caret is in the next line as long as the text
has no line behind the character. A text with a line break can therefore have a caret elsewhere
(`PointsAt.column`, `PointsAt.line`).

Main statements:

* `between_of_compile`, `existsUnique_of_run` — where errors of compilation and of runs are;
* `pointsAt_underlined` — where the caret under a text is;
* `offsets_point_into_text` — offsets are positions, and reports show the characters before them.
-/

namespace TypedFormula

open String (utf8Len)

/-! ### Positions of a text -/

section

variable {text : String} {offset : Nat}

/-- What is between the characters of a text is a position of the text. -/
theorem Between.isValid (h : Between 0 text.toList offset) :
    offset ≤ text.utf8ByteSize ∧ (String.Pos.Raw.mk offset).IsValid text := by
  obtain ⟨rest, word, hchars, rfl⟩ := h
  have htext : text = String.ofList word ++ String.ofList rest := by
    rw [← String.ofList_append, ← hchars, String.ofList_toList]
  have hword : (String.ofList word).utf8ByteSize = 0 + utf8Len word := by
    rw [String.utf8ByteSize_ofList, Nat.zero_add]
  constructor
  · rw [htext, String.utf8ByteSize_append, hword]
    exact Nat.le_add_right _ _
  · refine String.Pos.Raw.isValid_iff_exists_append.mpr ⟨_, _, htext, ?_⟩
    rw [String.rawEndPos, hword]

private theorem Moves.lt_utf8ByteSize {c : Char} {rest : List Char}
    (h : Moves 0 text.toList offset (c :: rest)) : offset < text.utf8ByteSize := by
  have hnext := (h.trans (Moves.head offset c rest)).between.isValid.1
  have hpos := c.utf8Size_pos
  omega

end

/-! ### Errors -/

section

variable {scope : Scope} {text : String}

/-- An error of compilation is about a place between the characters of the text. -/
theorem between_of_compile {err : CompileError} (h : Formula.compile scope text = .error err) :
    Between 0 text.toList err.offset := by
  cases hparse : parseFormula scope text with
  | error err' =>
    rw [Formula.compile, hparse] at h
    obtain rfl := Except.error.inj h
    exact between_of_parseFormula hparse
  | ok e =>
    obtain ⟨o, first, v, ⟨before, after, hos, -⟩, rfl⟩ := (Formula.compile_error_iff hparse).mp h
    -- the reference is a node of the tree
    have ho : o.offset ∈ e.inOrder.map Expr.offset := by
      refine e.sublist_offsets.subset (List.mem_map_of_mem ?_)
      rw [hos]
      exact List.mem_append_right _ List.mem_cons_self
    obtain ⟨n, hn, hoffset⟩ := List.mem_map.mp ho
    obtain ⟨c, rest, hmoves⟩ :=
      (offsets_of_parseFormula hparse).1 n (e.perm_inOrder.mem_iff.mp hn)
    exact hoffset ▸ hmoves.between

private theorem exists_node_of_run {f : Formula} (h : Formula.compile scope text = .ok f)
    {functions : Registry} {binding : Binding} {err : EvalError}
    (hrun : f.run functions binding = .error err) :
    ∃ e, parseFormula scope text = .ok e ∧ f.code = e.code ∧
      ∃ n ∈ e.nodes, err.offset? = some n.offset := by
  obtain ⟨e, hparse, hof⟩ := Formula.compile_ok_iff.mp h
  rw [Formula.run_of_ofExpr hof] at hrun
  obtain ⟨n, hn, cause, -, rfl⟩ := Expr.exists_failsWith_of_eval hrun
  obtain ⟨vs, -, rfl⟩ := Formula.ofExpr_ok_iff.mp hof
  exact ⟨e, hparse, rfl, n, hn, rfl⟩

/-- An error of a run is at the offset of one instruction. -/
theorem existsUnique_of_run {f : Formula} (h : Formula.compile scope text = .ok f)
    {functions : Registry} {binding : Binding} {err : EvalError}
    (hrun : f.run functions binding = .error err) :
    ∃! u, u ∈ f.code ∧ err.offset? = some u.offset := by
  obtain ⟨e, hparse, hcode, n, hn, herr⟩ := exists_node_of_run h hrun
  rw [hcode]
  refine ⟨n.unit, ⟨Expr.mem_code.mpr ⟨n, hn, rfl⟩, herr⟩, ?_⟩
  rintro u ⟨hu, hoffset⟩
  exact List.inj_on_of_nodup_map (nodup_offsets_code hparse) hu
    (Expr.mem_code.mpr ⟨n, hn, rfl⟩) (Option.some.inj (hoffset.symm.trans herr))

end

/-! ### Carets -/

/-- The line in which printing goes on behind some characters, and the column. -/
def cursor (printed : List Char) : Nat × Nat :=
  (printed.count '\n', (printed.reverse.takeWhile fun c => decide (c ≠ '\n')).length)

/-- The column behind a line break is that of what follows it. -/
private theorem cursor_newline (printed line : List Char) :
    (cursor (printed ++ '\n' :: line)).2 = (cursor line).2 := by
  simp only [cursor, List.reverse_append, List.reverse_cons, List.append_assoc,
    List.takeWhile_append]
  split <;> simp_all

private theorem cursor_of_notMem {line : List Char} (h : '\n' ∉ line) :
    (cursor line).2 = line.length := by
  rw [cursor, List.takeWhile_eq_self_iff.mpr, List.length_reverse]
  intro c hc
  refine decide_eq_true fun heq => h ?_
  rwa [← heq, ← List.mem_reverse]

/-- A message shows a text and, in a line below it, a caret under one of its places. -/
structure PointsAt (message shown formula : String) (before after : List Char) : Prop where
  /-- The place is between the characters of the text. -/
  split : formula.toList = before ++ after
  /-- The caret is behind as many blanks as there are characters before the place. -/
  layout : message = shown ++ "\n  " ++ formula ++ "\n  " ++
    String.ofList (List.replicate before.length ' ') ++ "^"
  /-- The caret is in the column of the place exactly when this is in the first line. -/
  column :
    (cursor ((shown ++ "\n  " ++ formula ++ "\n  ").toList ++
      List.replicate before.length ' ')).2 =
        (cursor ((shown ++ "\n  ").toList ++ before)).2 ↔ '\n' ∉ before
  /-- The caret is in the line below the place exactly when this is in the last line. -/
  line :
    (cursor ((shown ++ "\n  " ++ formula ++ "\n  ").toList ++
      List.replicate before.length ' ')).1 =
        (cursor ((shown ++ "\n  ").toList ++ before)).1 + 1 ↔ '\n' ∉ after

private theorem columnAt?_utf8Len (before after : List Char) :
    columnAt? (utf8Len before) (before ++ after) = some before.length := by
  induction before with
  | nil => cases after <;> rfl
  | cons c before ih =>
    have hpos := c.utf8Size_pos
    rw [List.cons_append, columnAt?, String.utf8Len_cons, if_neg (by omega), if_neg (by omega),
      Nat.add_sub_cancel, ih]
    rfl

/-- Blanks and characters of a text go on in the column of the blanks exactly when no line ends in
the characters. -/
private theorem cursor_blanks_iff (line : List Char) :
    (cursor (List.replicate (line.length + 2) ' ')).2 = (cursor (' ' :: ' ' :: line)).2 ↔
      '\n' ∉ line := by
  have hblanks : (cursor (List.replicate (line.length + 2) ' ')).2 = line.length + 2 := by
    rw [cursor_of_notMem, List.length_replicate]
    exact fun hmem => absurd (List.eq_of_mem_replicate hmem) (by decide)
  rw [hblanks]
  constructor
  · intro hcolumn hmem
    obtain ⟨before, after, rfl⟩ := List.append_of_mem hmem
    -- only what follows the line break counts for the column
    have hafter : (cursor (' ' :: ' ' :: (before ++ '\n' :: after))).2 = (cursor after).2 :=
      cursor_newline (' ' :: ' ' :: before) after
    have hle : (cursor after).2 ≤ after.length := by
      rw [← List.length_reverse]
      exact (List.takeWhile_sublist _).length_le
    rw [hafter, List.length_append, List.length_cons] at hcolumn
    omega
  · intro hline
    rw [cursor_of_notMem (by simpa using hline)]
    rfl

/-- A text that is shown with a caret under one of its places. -/
theorem pointsAt_underlined (shown : String) {formula : String} {before after : List Char}
    (h : formula.toList = before ++ after) :
    PointsAt (underlined shown formula (utf8Len before)) shown formula before after := by
  have hblanks : "\n  ".toList = ['\n', ' ', ' '] := rfl
  have hcaret : (shown ++ "\n  " ++ formula ++ "\n  ").toList ++ List.replicate before.length ' ' =
      (shown.toList ++ '\n' :: ' ' :: ' ' :: (before ++ after)) ++
        '\n' :: List.replicate (before.length + 2) ' ' := by
    simp only [String.toList_append, hblanks, h, List.append_assoc, List.cons_append,
      List.nil_append, List.replicate_succ]
  have hplace : (shown ++ "\n  ").toList ++ before =
      shown.toList ++ '\n' :: ' ' :: ' ' :: before := by
    simp only [String.toList_append, hblanks, List.append_assoc, List.cons_append, List.nil_append]
  refine ⟨h, ?_, ?_, ?_⟩
  · rw [underlined, h, columnAt?_utf8Len]
    rfl
  · rw [hcaret, hplace, cursor_newline, cursor_newline]
    exact cursor_blanks_iff before
  · rw [hcaret, hplace, ← List.count_eq_zero]
    simp only [cursor, List.count_append, List.count_cons, List.count_replicate]
    simp

/-! ### Reports of the command -/

/-- Whether an error is about the variables and not about the formula. -/
def CommandError.aboutVariables : CommandError → Bool
  | .compile _ _ => false
  | .evaluation _ _ => false
  | _ => true

/-- A report of an error of a formula points at a place of the formula, and in front of a character
if the formula does not evaluate. -/
def CommandError.Points (err : CommandError) : Prop :=
  match err with
  | .compile formula source => ∃ before after, source.offset = utf8Len before ∧
      PointsAt err.message source.located formula before after
  | .evaluation formula source => ∃ before c after, source.offset? = some (utf8Len before) ∧
      PointsAt err.message source.message formula before (c :: after)
  | _ => True

/-- There is nothing to point at for an error about variables. -/
private theorem CommandError.points_of_aboutVariables {err : CommandError}
    (h : err.aboutVariables = true) : err.Points := by
  cases err with
  | compile formula source => cases h
  | evaluation formula source => cases h
  | _ => trivial

private theorem CommandError.message_evaluation {formula : String} {source : EvalError}
    {offset : Nat} (h : source.offset? = some offset) :
    (CommandError.evaluation formula source).message =
      underlined source.message formula offset := by
  cases source with
  | atOffset offset' cause =>
    obtain rfl := Option.some.inj h
    rfl
  | malformed fault => cases h

/-- The error of several steps is that of one of them. -/
private theorem exists_error_of_mapM {α β ε : Type} {step : α → Except ε β} {as : List α} {err : ε}
    (h : as.mapM step = .error err) : ∃ a ∈ as, step a = .error err := by
  induction as with
  | nil => cases h
  | cons a as ih =>
    rw [List.mapM_cons] at h
    cases ha : step a with
    | error err' =>
      rw [ha] at h
      obtain rfl := Except.error.inj h
      exact ⟨a, List.mem_cons_self, ha⟩
    | ok b =>
      rw [ha] at h
      cases hothers : as.mapM step with
      | error err' =>
        rw [hothers] at h
        obtain rfl := Except.error.inj h
        obtain ⟨a', ha', hstep⟩ := ih hothers
        exact ⟨a', List.mem_cons_of_mem a ha', hstep⟩
      | ok bs =>
        rw [hothers] at h
        cases h

/-- An error in a declaration is about variables. -/
private theorem aboutVariables_of_declared {text : List Char} {err : CommandError}
    (h : declared text = .error err) : err.aboutVariables = true := by
  unfold declared at h
  split at h
  · obtain rfl := Except.error.inj h
    rfl
  · simp only at h
    split at h
    · obtain rfl := Except.error.inj h
      rfl
    · split at h
      · obtain rfl := Except.error.inj h
        rfl
      · cases h

/-- An error in a definition with a value is about variables. -/
private theorem aboutVariables_of_givenDefinition {text : String} {err : CommandError}
    (h : givenDefinition text = .error err) : err.aboutVariables = true := by
  unfold givenDefinition at h
  split at h
  · obtain rfl := Except.error.inj h
    rfl
  · split at h
    · rename_i hdeclared
      obtain rfl := Except.error.inj h
      exact aboutVariables_of_declared hdeclared
    · split at h
      · obtain rfl := Except.error.inj h
        rfl
      · cases h

/-- An error in a definition without a value is about variables. -/
private theorem aboutVariables_of_unsetDefinition {text : String} {err : CommandError}
    (h : unsetDefinition text = .error err) : err.aboutVariables = true := by
  unfold unsetDefinition at h
  split at h
  · rename_i hdeclared
    obtain rfl := Except.error.inj h
    exact aboutVariables_of_declared hdeclared
  · cases h

/-- An error in a file is about variables. -/
private theorem aboutVariables_of_fileDefinitions [JsonReader] {file : Option SourceFile}
    {err : CommandError} (h : fileDefinitions file = .error err) : err.aboutVariables = true := by
  unfold fileDefinitions at h
  split at h
  · cases h
  · split at h
    · obtain rfl := Except.error.inj h
      rfl
    · split at h
      · obtain rfl := Except.error.inj h
        rfl
      · obtain ⟨entry, -, hentry⟩ := exists_error_of_mapM h
        unfold fileDefinition at hentry
        split at hentry
        · cases hentry
        · split at hentry
          · obtain rfl := Except.error.inj hentry
            rfl
          · cases hentry

/-- An error in the sources of variables is about variables. -/
theorem aboutVariables_of_assignment [JsonReader] {sources : VariableSources} {err : CommandError}
    (h : sources.assignment = .error err) : err.aboutVariables = true := by
  have hdefinitions : sources.definitions = .error err := by
    rw [VariableSources.assignment] at h
    cases hdefinitions : sources.definitions with
    | error err' =>
      rw [hdefinitions] at h
      exact congrArg Except.error (Except.error.inj h)
    | ok ds =>
      rw [hdefinitions] at h
      cases h
  rw [VariableSources.definitions] at hdefinitions
  cases hfile : fileDefinitions sources.file with
  | error err' =>
    rw [hfile] at hdefinitions
    obtain rfl := Except.error.inj hdefinitions
    exact aboutVariables_of_fileDefinitions hfile
  | ok fromFile =>
    cases hgiven : sources.given.mapM givenDefinition with
    | error err' =>
      rw [hfile, hgiven] at hdefinitions
      obtain rfl := Except.error.inj hdefinitions
      obtain ⟨text, -, htext⟩ := exists_error_of_mapM hgiven
      exact aboutVariables_of_givenDefinition htext
    | ok given =>
      cases hunset : sources.unset.mapM unsetDefinition with
      | error err' =>
        rw [hfile, hgiven, hunset] at hdefinitions
        obtain rfl := Except.error.inj hdefinitions
        obtain ⟨text, -, htext⟩ := exists_error_of_mapM hunset
        exact aboutVariables_of_unsetDefinition htext
      | ok unset =>
        rw [hfile, hgiven, hunset] at hdefinitions
        cases hdefinitions

/-- What does not compile under the variables of the command are the variables, or the text, at a
place that the report points at. -/
private theorem points_of_compileWith [Binary64.Logarithms] [JsonReader] {formula : String}
    {sources : VariableSources} {err : CommandError}
    (h : compileWith formula sources = .error err) : err.Points := by
  rw [compileWith] at h
  cases hassignment : sources.assignment with
  | error err' =>
    rw [hassignment] at h
    obtain rfl := Except.error.inj h
    exact CommandError.points_of_aboutVariables (aboutVariables_of_assignment hassignment)
  | ok a =>
    rw [hassignment] at h
    cases hcompile : Formula.compile ⟨a.types, .library⟩ formula with
    | ok f => simp [bind, Except.bind, hcompile, pure, Except.pure] at h
    | error source =>
      have herr : err = .compile formula source := by
        simpa [bind, Except.bind, hcompile, throw, throwThe, MonadExceptOf.throw, eq_comm] using h
      obtain ⟨after, before, hsplit, hoffset⟩ := between_of_compile hcompile
      rw [Nat.zero_add] at hoffset
      have hpoints := pointsAt_underlined source.located hsplit
      rw [← hoffset] at hpoints
      rw [herr]
      exact ⟨before, after, hoffset, hpoints⟩

/-- What the command compiles and the values it runs it on come from one assignment. -/
theorem exists_assignment_of_compileWith [Binary64.Logarithms] [JsonReader] {formula : String}
    {sources : VariableSources} {f : Formula} {binding : Binding}
    (h : compileWith formula sources = .ok (f, binding)) :
    ∃ a, sources.assignment = .ok a ∧ Formula.compile ⟨a.types, .library⟩ formula = .ok f ∧
      binding = a.binding := by
  rw [compileWith] at h
  cases hassignment : sources.assignment with
  | error err =>
    rw [hassignment] at h
    cases h
  | ok a =>
    rw [hassignment] at h
    cases hcompile : Formula.compile ⟨a.types, .library⟩ formula with
    | error source => simp [bind, Except.bind, hcompile, throw, throwThe, MonadExceptOf.throw] at h
    | ok g =>
      have hg : g = f ∧ a.binding = binding := by
        simpa [bind, Except.bind, hcompile, pure, Except.pure] using h
      exact ⟨a, rfl, hg.1 ▸ hcompile, hg.2.symm⟩

/-- Every report of the command on a formula points at a place of the formula. -/
private theorem points_of_answer [Binary64.Logarithms] [JsonReader] {r : Request}
    {err : CommandError} (h : r.answer = .error err) :
    err.Points := by
  cases r with
  | functions => cases h
  | check formula sources =>
    rw [Request.answer] at h
    cases hcompile : compileWith formula sources with
    | error err' =>
      rw [hcompile] at h
      obtain rfl := Except.error.inj h
      exact points_of_compileWith hcompile
    | ok p =>
      rw [hcompile] at h
      cases h
  | eval formula sources json =>
    rw [Request.answer] at h
    cases hcompile : compileWith formula sources with
    | error err' =>
      rw [hcompile] at h
      obtain rfl := Except.error.inj h
      exact points_of_compileWith hcompile
    | ok p =>
      obtain ⟨f, binding⟩ := p
      rw [hcompile] at h
      cases hrun : f.run .library binding with
      | ok v => simp [bind, Except.bind, hrun, pure, Except.pure] at h
      | error source =>
        have herr : err = .evaluation formula source := by
          simpa [bind, Except.bind, hrun, throw, throwThe, MonadExceptOf.throw, eq_comm] using h
        obtain ⟨a, -, hf, -⟩ := exists_assignment_of_compileWith hcompile
        obtain ⟨e, hparse, -, n, hn, hoffset⟩ := exists_node_of_run hf hrun
        obtain ⟨c, after, before, hsplit, hbefore⟩ := (offsets_of_parseFormula hparse).1 n hn
        rw [hbefore, Nat.zero_add] at hoffset
        have hpoints := pointsAt_underlined source.message hsplit
        rw [← CommandError.message_evaluation hoffset] at hpoints
        rw [herr]
        exact ⟨before, c, after, hoffset, hpoints⟩

/-- The offsets of errors and of nodes are positions of the text. Nodes are in front of characters,
at offsets that increase in the order of the text, so that all instructions have different offsets
and an error of a run is at the offset of one of them. Reports of the command show as many blanks
before the caret as there are characters before the offset, which is the column of the character if
no line ends before it. -/
theorem offsets_point_into_text [Binary64.Logarithms] [JsonReader] (scope : Scope) (text : String) :
    (∀ err, parseFormula scope text = .error err ∨ Formula.compile scope text = .error err →
      err.offset ≤ text.utf8ByteSize ∧ (String.Pos.Raw.mk err.offset).IsValid text) ∧
    (∀ e, parseFormula scope text = .ok e →
      (∀ n ∈ e.nodes, n.offset < text.utf8ByteSize ∧
        (String.Pos.Raw.mk n.offset).IsValid text) ∧
      e.inOrder.Perm e.nodes ∧ (e.inOrder.map Expr.offset).Pairwise (· < ·)) ∧
    (∀ f, Formula.compile scope text = .ok f → (f.code.map CodeUnit.offset).Nodup ∧
      ∀ functions binding err, f.run functions binding = .error err →
        ∃! u, u ∈ f.code ∧ err.offset? = some u.offset) ∧
    ∀ r err, Request.answer r = .error err → err.Points := by
  refine ⟨?_, fun e hparse => ⟨fun n hn => ?_, e.perm_inOrder, (offsets_of_parseFormula hparse).2⟩,
    fun f hcompile => ⟨?_, fun functions binding err => existsUnique_of_run hcompile⟩,
    fun r err => points_of_answer⟩
  · rintro err (hparse | hcompile)
    · exact (between_of_parseFormula hparse).isValid
    · exact (between_of_compile hcompile).isValid
  · obtain ⟨c, rest, hmoves⟩ := (offsets_of_parseFormula hparse).1 n hn
    exact ⟨hmoves.lt_utf8ByteSize, hmoves.between.isValid.2⟩
  · obtain ⟨e, hparse, hof⟩ := Formula.compile_ok_iff.mp hcompile
    obtain ⟨vs, -, rfl⟩ := Formula.ofExpr_ok_iff.mp hof
    exact nodup_offsets_code hparse

/-- A division by zero fails at the mark of the division, and a report of a name that is unknown
points at the name. -/
theorem offsets_point_into_text_of_one_line :
    let scope : Scope := ⟨Dict.empty, Registry.empty⟩
    let unknown := Request.check "=1 + foo" ⟨none, [], []⟩
    (∃ f e err, Formula.compile scope "=1 / 0" = .ok f ∧ parseFormula scope "=1 / 0" = .ok e ∧
      (e.inOrder.map Expr.offset).Pairwise (· < ·) ∧
      f.run Registry.empty Binding.empty = .error err ∧ err.offset? = some 3 ∧
      ∃! u, u ∈ f.code ∧ err.offset? = some u.offset) ∧
    ∃ err, unknown.answer = .error err ∧ err.Points ∧
      err.message = "Unknown identifier foo (at offset 5)\n  =1 + foo\n       ^" := by
  intro scope unknown
  obtain ⟨-, htree, hcode, hreport⟩ := offsets_point_into_text scope "=1 / 0"
  constructor
  · have hvalue : (Formula.compile scope "=1 / 0").toOption.map
        (fun f => f.run Registry.empty Binding.empty) =
          some (.error (.atOffset 3 .divisionByZero)) := by
      decide +kernel
    cases hcompile : Formula.compile scope "=1 / 0" with
    | error err => simp [hcompile, Except.toOption] at hvalue
    | ok f =>
      have hrun : f.run Registry.empty Binding.empty = .error (.atOffset 3 .divisionByZero) := by
        simpa [hcompile, Except.toOption] using hvalue
      obtain ⟨e, hparse, -⟩ := Formula.compile_ok_iff.mp hcompile
      exact ⟨f, e, _, rfl, hparse, (htree e hparse).2.2, hrun, rfl,
        (hcode f hcompile).2 _ _ _ hrun⟩
  · have hanswer : unknown.answer =
        .error (.compile "=1 + foo" ⟨.unknownIdentifier "foo", 5⟩) := by
      decide +kernel
    exact ⟨_, hanswer, hreport unknown _ hanswer, by decide +kernel⟩

/-- Under a text of two lines the caret is in the column of another character: the name that is
unknown begins its line, and the caret is seven blanks away. -/
theorem exists_caret_in_other_column :
    let r := Request.check "=1 +\nfoo" ⟨none, [], []⟩
    let shown := "Unknown identifier foo (at offset 5)"
    r.answer = .error (.compile "=1 +\nfoo" ⟨.unknownIdentifier "foo", 5⟩) ∧
      r.outcome.report = "Error: " ++ shown ++ "\n  =1 +\nfoo\n       ^\n" ∧
      (cursor (shown ++ "\n  =1 +\n").toList).2 = 0 ∧
      (cursor (shown ++ "\n  =1 +\nfoo\n       ").toList).2 = 7 := by
  decide +kernel

end TypedFormula
