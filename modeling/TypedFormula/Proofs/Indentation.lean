import Mathlib
import TypedFormula.Proofs.Relocation
import TypedFormula.Proofs.Spelling.Words

/-!
# Blanks in front of a formula

Scanners count bytes from where they are told to start. A scanner that starts `k` bytes further
behind reads the same characters, stops `k` bytes further behind, and has its errors there. So the
tokens of characters that stand further behind are the relocated tokens (`tokenize_add`), and by
`parseTokens_relocate` what is parsed of them is what was parsed, at other offsets.

Blanks may be added at the start of a text and behind its equals sign. Both put all words behind
them further back, by the number of bytes of the blanks. No error can be about what is in front: at
the first place that is nothing, and at the second it is blanks and the equals sign that was looked
for.

Main statement: `readsAs_of_blanks`.
-/

namespace TypedFormula

open String (utf8Len)

/-! ### Scanners that start further behind -/

/-- The same reading with another offset of the stop. -/
def Scanned.relocate {α : Type} (g : Nat → Nat) (s : Scanned α) : Scanned α :=
  ⟨s.value, g s.next, s.rest⟩

/-- A reading, or its error, `k` bytes further behind. -/
private def shiftScan {α : Type} (k : Nat) :
    Except CompileError (Scanned α) → Except CompileError (Scanned α) :=
  relocateResult (k + ·) (Scanned.relocate (k + ·))

/-- A reading that is mapped, further behind. -/
private theorem shiftScan_map {α β : Type} (k : Nat) (f : α → β)
    (r : Except CompileError (Scanned α)) :
    shiftScan k (r.map (·.map f)) = (shiftScan k r).map (·.map f) := by
  cases r <;> rfl

section

variable (k start offset : Nat) (chars : List Char)

private theorem skipBlanks_add : skipBlanks (k + offset) chars =
    (k + (skipBlanks offset chars).1, (skipBlanks offset chars).2) := by
  induction chars generalizing offset with
  | nil => rfl
  | cons c rest ih =>
    rw [skipBlanks, skipBlanks]
    split
    · rw [Nat.add_assoc, ih]
    · rfl

/-- The body of a text that stands further behind. -/
private theorem scanStringBody_add : scanStringBody (k + start) (k + offset) chars =
    shiftScan k (scanStringBody start offset chars) := by
  fun_induction scanStringBody start offset chars with
  | case1 => rfl
  | case2 => exact scanStringBody_quote _ _ _
  | case3 => rfl
  | case4 offset d rest hescape _ =>
    rw [scanStringBody, if_neg (by decide), if_pos rfl, hescape]
    rfl
  | case5 offset d rest e hescape _ ih =>
    rw [scanStringBody, if_neg (by decide), if_pos rfl, hescape, shiftScan_map, ← ih]
    simp only [Nat.add_assoc]
  | case6 offset c rest hquote hescape ih =>
    rw [shiftScan_map, ← ih, ← Nat.add_assoc]
    cases rest <;> simp only [scanStringBody, if_neg hquote, if_neg hescape]

private theorem scanDefault_add : scanDefault (k + start) (k + offset) chars =
    shiftScan k (scanDefault start offset chars) := by
  fun_induction scanDefault start offset chars with
  | case1 => rfl
  | case2 => exact scanDefault_brace _ _ _
  | case3 => rfl
  | case4 offset d rest _ ih =>
    rw [scanDefault, if_neg (by decide), if_pos rfl, shiftScan_map, ← ih]
    simp only [Nat.add_assoc]
  | case5 offset c rest hbrace hescape ih =>
    rw [shiftScan_map, ← ih, ← Nat.add_assoc]
    cases rest <;> simp only [scanDefault, if_neg hbrace, if_neg hescape]

/-- A name that stands further behind, and its default. -/
private theorem scanReference_add : scanReference (k + start) (k + offset) chars =
    shiftScan k (scanReference start offset chars) := by
  fun_induction scanReference start offset chars with
  | case1 => rfl
  | case2 => exact scanReference_brace _ _ _
  | case3 offset rest _ =>
    rw [shiftScan_map, ← scanDefault_add]
    exact scanReference_colon _ _ _
  | case4 => rfl
  | case5 offset d rest _ _ ih =>
    rw [scanReference, if_neg (by decide), if_neg (by decide), if_pos rfl, shiftScan_map, ← ih]
    simp only [Nat.add_assoc]
  | case6 offset c rest hbrace hcolon hescape ih =>
    rw [shiftScan_map, ← ih, ← Nat.add_assoc]
    cases rest <;> simp only [scanReference, if_neg hbrace, if_neg hcolon, if_neg hescape]

/-- A variable that stands further behind. -/
private theorem scanVariable_add :
    scanVariable (k + start) chars = shiftScan k (scanVariable start chars) := by
  unfold scanVariable
  split
  · rw [Nat.add_assoc, scanReference_add]
    cases scanReference start (start + 2) chars.tail with
    | error e => rfl
    | ok r =>
      simp only [shiftScan, relocateResult_ok, Scanned.relocate]
      split <;> rfl
  · simp only
    split
    · rfl
    · simp only [shiftScan, relocateResult_ok, Scanned.relocate, Nat.add_assoc]

private theorem scanNumber_add :
    scanNumber (k + start) chars = shiftScan k (scanNumber start chars) := by
  unfold scanNumber
  simp only
  split
  · simp only [shiftScan, relocateResult_ok, Scanned.relocate, Nat.add_assoc]
  · rfl

private theorem scanAngle_add (c : Char) :
    scanAngle (k + start) c chars = (scanAngle start c chars).relocate (k + ·) := by
  unfold scanAngle
  repeat' split
  all_goals rfl

/-- A token that stands further behind. -/
private theorem scan_add (c : Char) :
    scan (k + start) c chars = shiftScan k (scan start c chars) := by
  unfold scan
  split
  · rfl
  · split
    · rw [scanAngle_add]
      rfl
    · split
      · rw [scanString, scanString, shiftScan_map, Nat.add_assoc, scanStringBody_add]
      · split
        · exact scanVariable_add k start chars
        · split
          · exact scanNumber_add k start (c :: chars)
          · split
            · rw [scanIdentifier, Nat.add_assoc]
              rfl
            · rfl

end

/-- Characters that stand further behind have the same tokens, further behind. -/
theorem tokenize_add (k offset : Nat) (chars : List Char) :
    tokenize (k + offset) chars = (tokenize offset chars).relocate (k + ·) := by
  fun_induction tokenize offset chars with
  | case1 offset chars stop hskip =>
    have hskip' : skipBlanks (k + offset) chars = (k + stop, []) := by rw [skipBlanks_add, hskip]
    exact tokenize_nil hskip'
  | case2 offset chars start c rest hskip e hscan =>
    have hskip' : skipBlanks (k + offset) chars = (k + start, c :: rest) := by
      rw [skipBlanks_add, hskip]
    refine tokenize_error hskip' ?_
    rw [scan_add, hscan]
    rfl
  | case3 offset chars start c rest hskip s hscan more ih =>
    have hskip' : skipBlanks (k + offset) chars = (k + start, c :: rest) := by
      rw [skipBlanks_add, hskip]
    have hscan' : scan (k + start) c rest = .ok (s.relocate (k + ·)) := by
      rw [scan_add, hscan]
      rfl
    rw [tokenize_cons hskip' hscan', Scanned.relocate, ih]
    rfl

/-! ### Blanks -/

private theorem skipBlanks_append {blanks : List Char} (h : ∀ c ∈ blanks, Text.isBlank c = true)
    (offset : Nat) (rest : List Char) :
    skipBlanks offset (blanks ++ rest) = skipBlanks (utf8Len blanks + offset) rest := by
  induction blanks generalizing offset with
  | nil => rw [List.nil_append, String.utf8Len_nil, Nat.zero_add]
  | cons c blanks ih =>
    obtain ⟨hc, hblanks⟩ := List.forall_mem_cons.mp h
    rw [List.cons_append, skipBlanks, if_pos hc, ih hblanks, String.utf8Len_cons, Nat.add_assoc,
      Nat.add_comm offset]

private theorem parseStart_add (k : Nat) (scope : Scope) (offset : Nat) (chars : List Char) :
    parseStart scope (k + offset, chars) =
      relocateResult (k + ·) (Expr.relocate (k + ·)) (parseStart scope (offset, chars)) := by
  cases chars with
  | nil => rfl
  | cons c rest =>
    simp only [parseStart]
    split
    · rw [Nat.add_assoc, tokenize_add, parseTokens_relocate]
    · rfl

section

variable {scope : Scope} {blanks : String} (h : ∀ c ∈ blanks.toList, Text.isBlank c = true)

include h

private theorem parseFormula_blanks_append (text : String) : parseFormula scope (blanks ++ text) =
    relocateResult (blanks.utf8ByteSize + ·) (Expr.relocate (blanks.utf8ByteSize + ·))
      (parseFormula scope text) := by
  have hsize : utf8Len blanks.toList = blanks.utf8ByteSize := by
    rw [← String.utf8ByteSize_ofList, String.ofList_toList]
  rw [parseFormula_eq, parseFormula_eq, String.toList_append, skipBlanks_append h, hsize,
    skipBlanks_add, parseStart_add]

/-- Blanks behind the equals sign move the tree of a text, or the error. -/
private theorem parseFormula_equals_blanks {before : String}
    (hbefore : ∀ c ∈ before.toList, Text.isBlank c = true) (behind : String) :
    parseFormula scope (before ++ "=" ++ blanks ++ behind) =
      relocateResult (blanks.utf8ByteSize + ·) (Expr.relocate (blanks.utf8ByteSize + ·))
        (parseFormula scope (before ++ "=" ++ behind)) := by
  have hstart : ∀ rest : List Char, skipBlanks 0 (before.toList ++ '=' :: rest) =
      (utf8Len before.toList, '=' :: rest) := by
    intro rest
    rw [skipBlanks_append hbefore]
    rfl
  have htokens : ∀ offset, tokenize offset (blanks.toList ++ behind.toList) =
      (tokenize offset behind.toList).relocate (blanks.utf8ByteSize + ·) := by
    intro offset
    rw [tokenize_of_skipBlanks (skipBlanks_append h offset behind.toList), tokenize_add,
      ← String.utf8ByteSize_ofList, String.ofList_toList]
  have hequals : "=".toList = ['='] := rfl
  rw [parseFormula_eq, parseFormula_eq]
  simp only [String.toList_append, List.append_assoc, hequals, List.cons_append, List.nil_append,
    hstart]
  exact (congrArg (parseTokens scope) (htokens _)).trans (parseTokens_relocate scope _)

end

/-! ### Formulas -/

/-- A text is read as another one is, with other offsets: it has the same tree or error, it
compiles to the same code or to the same error, and the code has the same value or error in
every run. Only the offsets of nodes, instructions and errors differ; so messages are the same. -/
structure ReadsAs (scope : Scope) (g : Nat → Nat) (text text' : String) : Prop where
  /-- Trees. -/
  tree : parseFormula scope text' = relocateResult g (Expr.relocate g) (parseFormula scope text)
  /-- Code. -/
  code : Formula.compile scope text' =
    relocateResult g (Formula.relocate g text') (Formula.compile scope text)
  /-- Values. -/
  run : ∀ f, Formula.compile scope text = .ok f → ∃ f', Formula.compile scope text' = .ok f' ∧
    ∀ functions binding, f'.run functions binding = relocateRun g (f.run functions binding)

/-- A text with the same tree is read in the same way. -/
private theorem readsAs_of_tree {scope : Scope} {g : Nat → Nat} {text text' : String}
    (h : parseFormula scope text' =
      relocateResult g (Expr.relocate g) (parseFormula scope text)) :
    ReadsAs scope g text text' := by
  have hcode : Formula.compile scope text' =
      relocateResult g (Formula.relocate g text') (Formula.compile scope text) := by
    rw [Formula.compile, Formula.compile, h]
    cases parseFormula scope text with
    | error e => rfl
    | ok e => exact Formula.ofExpr_relocate text text' e
  refine ⟨h, hcode, fun f hf => ⟨f.relocate g text', ?_, fun functions binding => ?_⟩⟩
  · rw [hcode, hf]
    rfl
  · exact f.run_relocate functions text' binding

/-- Blanks at the start of a formula, or behind its equals sign, only add the number of their bytes
to the offsets. -/
theorem readsAs_of_blanks {blanks : String} (h : ∀ c ∈ blanks.toList, Text.isBlank c = true)
    (scope : Scope) :
    (∀ text, ReadsAs scope (blanks.utf8ByteSize + ·) text (blanks ++ text)) ∧
      ∀ before behind : String, (∀ c ∈ before.toList, Text.isBlank c = true) →
        ReadsAs scope (blanks.utf8ByteSize + ·) (before ++ "=" ++ behind)
          (before ++ "=" ++ blanks ++ behind) :=
  ⟨fun text => readsAs_of_tree (parseFormula_blanks_append h text),
    fun _ behind hbefore => readsAs_of_tree (parseFormula_equals_blanks h hbefore behind)⟩

/-- A blank of two bytes and a line break, behind another blank and the equals sign. -/
theorem readsAs_of_blanks_of_broken_line :
    " 
".toList.all Text.isBlank = true ∧ " ".toList.all Text.isBlank = true ∧
      ReadsAs ⟨Dict.empty, Registry.empty⟩ (3 + ·) " =1+" " = 
1+" := by
  have hblanks : " 
".toList.all Text.isBlank = true := by decide
  have hbefore : " ".toList.all Text.isBlank = true := by decide
  exact ⟨hblanks, hbefore, (readsAs_of_blanks (List.all_eq_true.mp hblanks) _).2 " " "1+"
    (List.all_eq_true.mp hbefore)⟩

end TypedFormula
