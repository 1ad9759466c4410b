import TypedFormula.Proofs.Grammar.Completeness
import TypedFormula.Proofs.Grammar.Soundness

/-!
# Which texts are formulas

A text has a tree exactly when it is blanks, an equals sign and words that can all be read, the
words are a comparison of the grammar, the comparison is an expression within the scope, and it
needs no more levels than an expression may open. The tree is this expression.

Main statements:

* `expression_ok_iff` — what the procedures for any number of levels accept as a whole;
* `parseFormula_ok_iff` — what is accepted as a formula.
-/

namespace TypedFormula

variable {scope : Scope}

/-- Where the text ends well, tokens are read to the last as an expression exactly when they are a
comparison of the grammar that is this expression, and there are the levels that it needs. -/
theorem expression_ok_iff {stop levels : Nat} {tokens : List Located} {e : Expr} :
    (procedures scope (.ok stop) levels).expression tokens = .ok (e, []) ↔
      ∃ a, Derives (.chain .comparison) tokens a ∧ Typed scope a e ∧ a.need ≤ levels := by
  rw [expression_procedures]
  constructor
  · intro h
    obtain ⟨used, a, rfl, hder, hty, hneed, -⟩ := reads_of_reader h
    exact ⟨a, by simpa using hder, hty, hneed⟩
  · rintro ⟨a, hder, hty, hneed⟩
    simpa using reader_of_derives hder hty hneed (ends_nil _)

/-- A text is accepted exactly when its words behind the equals sign are readable and are read to
the last as an expression. -/
theorem parseFormula_ok_iff_expression {text : String} {e : Expr} :
    parseFormula scope text = .ok e ↔
      ∃ start rest tokens stop, skipBlanks 0 text.toList = (start, '=' :: rest) ∧
        tokenize (start + 1) rest = ⟨tokens, .ok stop⟩ ∧
        (procedures scope (.ok stop) maxNesting).expression tokens = .ok (e, []) := by
  constructor
  · intro h
    rw [parseFormula] at h
    split at h
    · cases h
    · rename_i start c rest hblanks
      split at h
      · rename_i hc
        subst hc
        simp only at h
        split at h
        · cases h
        · rename_i tokens hadvance
          obtain ⟨rfl, -⟩ := advance_ok_iff.mp hadvance
          split at h
          · cases h
          · rename_i node hnode
            obtain rfl := Except.ok.inj h
            -- only behind readable words the parser moves on to the end
            have hnode' := hnode
            rw [expression_procedures] at hnode'
            obtain ⟨-, -, -, -, -, -, hready⟩ := reads_of_reader hnode'
            obtain ⟨stop, hstop⟩ := hready rfl
            rw [hstop] at hnode
            refine ⟨start, rest, _, stop, hblanks, ?_, hnode⟩
            rw [← hstop]
          · cases h
      · cases h
  · rintro ⟨start, rest, tokens, stop, hblanks, htokens, hnode⟩
    simp only [parseFormula, hblanks, if_true, htokens,
      advance_ok_iff.mpr ⟨rfl, ready_of_ok stop _⟩, hnode]

/-- The tree of a text is what a phrase is within the scope, which needs no more levels than there
are. -/
theorem exists_phrase_of_parseFormula {text : String} {e : Expr}
    (h : parseFormula scope text = .ok e) :
    ∃ tokens a, Derives (.chain .comparison) tokens a ∧ Typed scope a e ∧
      a.need ≤ maxNesting := by
  obtain ⟨start, rest, tokens, stop, -, -, hnode⟩ := parseFormula_ok_iff_expression.mp h
  exact ⟨tokens, expression_ok_iff.mp hnode⟩

/-- A text is accepted with a tree exactly when it is blanks, an equals sign and readable words,
these are a comparison of the grammar, and the comparison is the tree within the scope and needs no
more levels than there are. -/
theorem parseFormula_ok_iff {text : String} {e : Expr} :
    parseFormula scope text = .ok e ↔
      ∃ start rest tokens stop a, skipBlanks 0 text.toList = (start, '=' :: rest) ∧
        tokenize (start + 1) rest = ⟨tokens, .ok stop⟩ ∧
        Derives (.chain .comparison) tokens a ∧ Typed scope a e ∧ a.need ≤ maxNesting := by
  rw [parseFormula_ok_iff_expression]
  simp only [expression_ok_iff, exists_and_left]

end TypedFormula
