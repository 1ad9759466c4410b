import TypedFormula.Token.Scan

/-!
# The tokens of a text

A text is turned into its tokens up to its end, or up to the first word that cannot be read. The
reader of tokens sees such an error only when it moves on to the word in question, so the error
is kept behind the tokens before it.

Main statements:

* `length_rest_scan` — a scanner never gives back more characters than it was given;
* `tokenize_nil`, `tokenize_error`, `tokenize_cons` — the tokens of a text are its first token and
  the tokens of the rest.
-/

namespace TypedFormula

/-- A token and the byte offset at which it starts. -/
structure Located where
  /-- The token. -/
  token : Token
  /-- The byte offset. -/
  offset : Nat
deriving DecidableEq

/-- The tokens of a text, and what follows the last of them: the end of the text at a byte
offset, or a word that cannot be read. -/
structure TokenStream where
  /-- The tokens. -/
  tokens : List Located
  /-- What follows them. -/
  ending : Except CompileError Nat

/-! ### Scanners go forward -/

/-- The body of a text is taken from the front. -/
private theorem length_scanStringBody {start offset : Nat} {chars : List Char}
    {s : Scanned (List Char)} (h : scanStringBody start offset chars = .ok s) :
    s.rest.length ≤ chars.length := by
  fun_induction scanStringBody start offset chars generalizing s with
  | case1 => cases h
  | case2 => cases h; simp
  | case3 => cases h
  | case4 => cases h
  | case5 offset rest d e _ _ ih =>
    obtain ⟨t, ht, rfl⟩ := ok_map_iff.mp h
    have := ih ht
    simp only [Scanned.map, List.length_cons]; omega
  | case6 offset c rest _ _ ih =>
    obtain ⟨t, ht, rfl⟩ := ok_map_iff.mp h
    have := ih ht
    simp only [Scanned.map, List.length_cons]; omega

/-- A default is taken from the front. -/
private theorem length_scanDefault {start offset : Nat} {chars : List Char}
    {s : Scanned (List Char)} (h : scanDefault start offset chars = .ok s) :
    s.rest.length ≤ chars.length := by
  fun_induction scanDefault start offset chars generalizing s with
  | case1 => cases h
  | case2 => cases h; simp
  | case3 => cases h
  | case4 offset d rest _ ih =>
    obtain ⟨t, ht, rfl⟩ := ok_map_iff.mp h
    have := ih ht
    simp only [Scanned.map, List.length_cons]; omega
  | case5 offset c rest _ _ ih =>
    obtain ⟨t, ht, rfl⟩ := ok_map_iff.mp h
    have := ih ht
    simp only [Scanned.map, List.length_cons]; omega

/-- A reference is taken from the front. -/
private theorem length_scanReference {start offset : Nat} {chars : List Char}
    {s : Scanned (List Char × Option (List Char))} (h : scanReference start offset chars = .ok s) :
    s.rest.length ≤ chars.length := by
  fun_induction scanReference start offset chars generalizing s with
  | case1 => cases h
  | case2 => cases h; simp
  | case3 offset rest _ =>
    obtain ⟨t, ht, rfl⟩ := ok_map_iff.mp h
    have := length_scanDefault ht
    simp only [Scanned.map, List.length_cons]; omega
  | case4 => cases h
  | case5 offset d rest _ _ ih =>
    obtain ⟨t, ht, rfl⟩ := ok_map_iff.mp h
    have := ih ht
    simp only [Scanned.map, List.length_cons]; omega
  | case6 offset c rest _ _ _ ih =>
    obtain ⟨t, ht, rfl⟩ := ok_map_iff.mp h
    have := ih ht
    simp only [Scanned.map, List.length_cons]; omega

private theorem length_splitPlaces (chars : List Char) :
    (splitPlaces chars).2.length ≤ chars.length := by
  cases chars with
  | nil => simp [splitPlaces]
  | cons c rest =>
    rw [splitPlaces]
    split
    · exact Nat.le_succ_of_le (List.dropWhile_suffix _).length_le
    · exact Nat.le_refl _

private theorem length_splitExponentSign (chars : List Char) :
    (splitExponentSign chars).2.length ≤ chars.length := by
  cases chars with
  | nil => exact Nat.le_refl _
  | cons c rest =>
    rw [splitExponentSign]
    split
    · exact Nat.le_succ _
    · exact Nat.le_refl _

private theorem length_splitExponent (chars : List Char) :
    (splitExponent chars).2.1.length ≤ chars.length := by
  cases chars with
  | nil => exact Nat.le_refl _
  | cons c rest =>
    rw [splitExponent]
    split
    · exact Nat.le_succ_of_le
        (Nat.le_trans (List.dropWhile_suffix _).length_le (length_splitExponentSign rest))
    · exact Nat.le_refl _

/-- A variable reference is taken from the front. -/
private theorem length_scanVariable {start : Nat} {rest : List Char} {s : Scanned Token}
    (h : scanVariable start rest = .ok s) : s.rest.length ≤ rest.length := by
  unfold scanVariable at h
  split at h
  · cases hr : scanReference start (start + 2) rest.tail with
    | error e => simp [hr] at h
    | ok r =>
      have hlen := length_scanReference hr
      have htail : rest.tail.length ≤ rest.length := by simp
      simp only [hr] at h
      split at h
      · cases h
      · cases h
        exact Nat.le_trans hlen htail
  · simp only at h
    split at h
    · cases h
    · cases h
      exact (List.dropWhile_suffix _).length_le

/-- A number is taken from the front, with its first character. -/
private theorem length_scanNumber {start : Nat} {c : Char} {rest : List Char} {s : Scanned Token}
    (hc : c.isDigit = true ∨ c = '.') (h : scanNumber start (c :: rest) = .ok s) :
    s.rest.length ≤ rest.length := by
  have hplaces :
      (splitPlaces ((c :: rest).dropWhile Char.isDigit)).2.length ≤ rest.length := by
    by_cases hdigit : c.isDigit = true
    · rw [List.dropWhile_cons_of_pos hdigit]
      exact Nat.le_trans (length_splitPlaces _) (List.dropWhile_suffix _).length_le
    · rw [List.dropWhile_cons_of_neg (by simpa using hdigit), splitPlaces,
        if_pos (hc.resolve_left hdigit)]
      exact (List.dropWhile_suffix _).length_le
  unfold scanNumber at h
  simp only at h
  split at h
  · cases h
    exact Nat.le_trans (length_splitExponent _) hplaces
  · cases h

/-- A scanner never gives back more characters than stand behind the first one. -/
theorem length_rest_scan {start : Nat} {c : Char} {rest : List Char} {s : Scanned Token}
    (h : scan start c rest = .ok s) : s.rest.length ≤ rest.length := by
  unfold scan at h
  split at h
  · cases h; exact Nat.le_refl _
  · split at h
    · cases h
      have htail : rest.tail.length ≤ rest.length := by simp
      unfold scanAngle
      repeat' split
      all_goals simp
    · split at h
      · obtain ⟨t, ht, rfl⟩ := ok_map_iff.mp h
        exact length_scanStringBody ht
      · split at h
        · exact length_scanVariable h
        · split at h
          · rename_i hnum
            refine length_scanNumber ?_ h
            simp only [Bool.or_eq_true, Bool.and_eq_true, beq_iff_eq] at hnum
            exact hnum.imp id And.left
          · split at h
            · rename_i hid
              cases h
              have hfirst : isIdentifierChar c = true := by
                simp only [isIdentifierChar, isNameChar, Char.isAlphanum]
                simp only [Bool.or_eq_true] at hid
                rcases hid with hid | hid <;> simp [hid]
              simp only [scanIdentifier, List.dropWhile_cons_of_pos hfirst]
              exact (List.dropWhile_suffix _).length_le
            · cases h

/-! ### The stream -/

/-- The tokens of the characters that start at a byte offset. -/
def tokenize (offset : Nat) (chars : List Char) : TokenStream :=
  match _hskip : skipBlanks offset chars with
  | (stop, []) => ⟨[], .ok stop⟩
  | (start, c :: rest) =>
    match _hscan : scan start c rest with
    | .error e => ⟨[], .error e⟩
    | .ok s =>
      let more := tokenize s.next s.rest
      ⟨⟨s.value, start⟩ :: more.tokens, more.ending⟩
termination_by chars.length
decreasing_by
  have hskipped := length_skipBlanks offset chars
  have hscanned := length_rest_scan _hscan
  rw [_hskip] at hskipped
  simp only [List.length_cons] at hskipped
  omega

/-- Blanks have no tokens. -/
theorem tokenize_nil {offset stop : Nat} {chars : List Char}
    (h : skipBlanks offset chars = (stop, [])) : tokenize offset chars = ⟨[], .ok stop⟩ := by
  rw [tokenize]; split <;> simp_all

/-- A word that cannot be read ends the tokens. -/
theorem tokenize_error {offset start : Nat} {chars rest : List Char} {c : Char} {e : CompileError}
    (hskip : skipBlanks offset chars = (start, c :: rest)) (hscan : scan start c rest = .error e) :
    tokenize offset chars = ⟨[], .error e⟩ := by
  rw [tokenize]
  split
  · simp_all
  · rename_i start' c' rest' heq
    rw [hskip] at heq
    cases heq
    split <;> simp_all

/-- The tokens are the first token and those of the rest. -/
theorem tokenize_cons {offset start : Nat} {chars rest : List Char} {c : Char} {s : Scanned Token}
    (hskip : skipBlanks offset chars = (start, c :: rest)) (hscan : scan start c rest = .ok s) :
    tokenize offset chars =
      ⟨⟨s.value, start⟩ :: (tokenize s.next s.rest).tokens, (tokenize s.next s.rest).ending⟩ := by
  rw [tokenize]
  split
  · simp_all
  · rename_i start' c' rest' heq
    rw [hskip] at heq
    cases heq
    split <;> simp_all

end TypedFormula
