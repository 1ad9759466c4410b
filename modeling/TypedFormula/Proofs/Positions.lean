import Mathlib.Data.String.Basic
import TypedFormula.Token.Stream

/-!
# Scanners keep count of bytes

Every scanner counts the bytes of the characters that it passes over. The number that it gives with
the rest of the characters is therefore the byte offset of this rest (`Moves`), and so it is the
place between two characters, or before the first or behind the last one (`Between`). Most scanners
add the size of the character at hand. Plain names, digits and marks are counted by characters; what
they pass over takes one byte each (`IsNarrow`), so that the counts agree.

A token takes at least one character. So tokens stand at offsets that increase (`Placed`), each in
front of a character of the text, and the end of the text, or the word that cannot be read, is
behind them.

Main statements:

* `moves_of_scan`, `between_of_scan` — where a scanner stops, and where its errors are;
* `placed_tokenize` — where the tokens of a text are.
-/

namespace TypedFormula

open String (utf8Len)

/-! ### Moving over characters -/

/-- From an offset at some characters, passing over the first of them leads to another offset and
the rest. -/
def Moves (offset : Nat) (chars : List Char) (next : Nat) (rest : List Char) : Prop :=
  ∃ word, chars = word ++ rest ∧ next = offset + utf8Len word

/-- An offset that some of the first characters lead to. -/
def Between (offset : Nat) (chars : List Char) (position : Nat) : Prop :=
  ∃ rest, Moves offset chars position rest

section

variable {offset middle next : Nat} {chars more rest : List Char}

/-- Staying is moving over no characters. -/
private theorem Moves.refl (offset : Nat) (chars : List Char) : Moves offset chars offset chars :=
  ⟨[], rfl, rfl⟩

theorem Moves.trans (h : Moves offset chars middle more) (h' : Moves middle more next rest) :
    Moves offset chars next rest := by
  obtain ⟨word, rfl, rfl⟩ := h
  obtain ⟨word', rfl, rfl⟩ := h'
  refine ⟨word ++ word', by simp, ?_⟩
  rw [String.utf8Len_append, Nat.add_assoc]

private theorem Moves.cons {c : Char} (h : Moves (offset + c.utf8Size) chars next rest) :
    Moves offset (c :: chars) next rest := by
  refine Moves.trans ⟨[c], rfl, ?_⟩ h
  rw [String.utf8Len_cons, String.utf8Len_nil, Nat.zero_add]

theorem Moves.head (offset : Nat) (c : Char) (rest : List Char) :
    Moves offset (c :: rest) (offset + c.utf8Size) rest :=
  (Moves.refl _ rest).cons

theorem Moves.le (h : Moves offset chars next rest) : offset ≤ next := by
  obtain ⟨word, -, rfl⟩ := h
  exact Nat.le_add_right _ _

/-- Moving over a character goes forward by a byte at least. -/
theorem Moves.lt (h : Moves offset chars next rest) (hlen : rest.length < chars.length) :
    offset < next := by
  obtain ⟨word, rfl, rfl⟩ := h
  cases word with
  | nil => exact absurd hlen (Nat.lt_irrefl _)
  | cons c word =>
    have hpos := c.utf8Size_pos
    rw [String.utf8Len_cons]
    omega

theorem Moves.between (h : Moves offset chars next rest) : Between offset chars next := ⟨rest, h⟩

theorem Moves.between_trans (h : Moves offset chars middle more) {position : Nat}
    (h' : Between middle more position) : Between offset chars position :=
  h'.imp fun _ hmoves => h.trans hmoves

/-! ### Narrow characters -/

/-- Characters that take one byte each. -/
def IsNarrow (word : List Char) : Prop := ∀ c ∈ word, c.utf8Size = 1

private theorem IsNarrow.utf8Len_eq {word : List Char} (h : IsNarrow word) :
    utf8Len word = word.length := by
  induction word with
  | nil => rfl
  | cons c word ih =>
    obtain ⟨hc, hword⟩ := List.forall_mem_cons.mp h
    rw [String.utf8Len_cons, ih hword, hc, List.length_cons]

private theorem IsNarrow.append {word word' : List Char} (h : IsNarrow word) (h' : IsNarrow word') :
    IsNarrow (word ++ word') :=
  List.forall_mem_append.mpr ⟨h, h'⟩

private theorem IsNarrow.moves {word : List Char} (h : IsNarrow word) (offset : Nat)
    (rest : List Char) :
    Moves offset (word ++ rest) (offset + word.length) rest :=
  ⟨word, rfl, by rw [h.utf8Len_eq]⟩

private theorem isNarrow_takeWhile {p : Char → Bool} (hp : ∀ c, p c = true → c.utf8Size = 1)
    (chars : List Char) : IsNarrow (chars.takeWhile p) :=
  fun c hc => hp c (List.all_eq_true.mp List.all_takeWhile c hc)

private theorem moves_takeWhile {p : Char → Bool} (hp : ∀ c, p c = true → c.utf8Size = 1)
    (offset : Nat) (chars : List Char) :
    Moves offset chars (offset + (chars.takeWhile p).length) (chars.dropWhile p) := by
  have h := (isNarrow_takeWhile hp chars).moves offset (chars.dropWhile p)
  rwa [List.takeWhile_append_dropWhile] at h

end

private theorem utf8Size_of_le {c : Char} (h : c.toNat ≤ 127) : c.utf8Size = 1 :=
  Char.utf8Size_eq_one_iff.mpr h

private theorem utf8Size_of_isDigit {c : Char} (h : c.isDigit = true) : c.utf8Size = 1 := by
  simp only [Char.isDigit, Bool.and_eq_true, decide_eq_true_eq, UInt32.le_iff_toNat_le] at h
  exact utf8Size_of_le (Nat.le_trans h.2 (by decide))

private theorem utf8Size_of_isAlpha {c : Char} (h : c.isAlpha = true) : c.utf8Size = 1 := by
  -- upper case up to Z, or lower case up to z
  rcases (Bool.or_eq_true c.isUpper c.isLower).mp h with h | h
  · have hle : c.val ≤ 'Z'.val := (of_decide_eq_true h).2
    exact utf8Size_of_le (Nat.le_trans (UInt32.le_iff_toNat_le.mp hle) (by decide))
  · have hle : c.val ≤ 'z'.val := of_decide_eq_true ((Bool.and_eq_true _ _).mp h).2
    exact utf8Size_of_le (Nat.le_trans (UInt32.le_iff_toNat_le.mp hle) (by decide))

private theorem utf8Size_of_isNameChar {c : Char} (h : isNameChar c = true) : c.utf8Size = 1 := by
  simp only [isNameChar, Char.isAlphanum, Bool.or_eq_true, beq_iff_eq] at h
  rcases h with (h | h) | rfl
  · exact utf8Size_of_isAlpha h
  · exact utf8Size_of_isDigit h
  · rfl

theorem utf8Size_of_isIdentifierChar {c : Char} (h : isIdentifierChar c = true) :
    c.utf8Size = 1 := by
  simp only [isIdentifierChar, Bool.or_eq_true, beq_iff_eq] at h
  rcases h with h | rfl
  · exact utf8Size_of_isNameChar h
  · rfl

private theorem utf8Size_of_singleMark? {c : Char} {m : Mark} (h : singleMark? c = some m) :
    c.utf8Size = 1 := by
  unfold singleMark? at h
  repeat' split at h
  all_goals first
    | (subst_vars; rfl)
    | cases h

/-! ### Pieces of words -/

/-- Blanks are passed over. -/
theorem moves_skipBlanks {offset stop : Nat} {chars rest : List Char}
    (h : skipBlanks offset chars = (stop, rest)) : Moves offset chars stop rest := by
  induction chars generalizing offset with
  | nil =>
    obtain ⟨rfl, rfl⟩ := Prod.mk.inj h
    exact .refl offset []
  | cons c chars ih =>
    rw [skipBlanks] at h
    split at h
    · exact (ih h).cons
    · obtain ⟨rfl, rfl⟩ := Prod.mk.inj h
      exact .refl offset _

section

variable {start offset : Nat} {chars : List Char}

private theorem Moves.escaped {next : Nat} {d : Char} {rest : List Char}
    (h : Moves (offset + 1 + d.utf8Size) chars next rest) :
    Moves offset ('\\' :: d :: chars) next rest :=
  h.cons.cons

/-- The body of a text is passed over. -/
private theorem moves_of_scanStringBody {s : Scanned (List Char)}
    (h : scanStringBody start offset chars = .ok s) : Moves offset chars s.next s.rest := by
  fun_induction scanStringBody start offset chars generalizing s with
  | case1 => cases h
  | case2 offset rest =>
    obtain rfl := Except.ok.inj h
    exact .head offset _ rest
  | case3 => cases h
  | case4 => cases h
  | case5 offset rest d e _ _ ih =>
    obtain ⟨t, ht, rfl⟩ := ok_map_iff.mp h
    exact (ih ht).escaped
  | case6 offset c rest _ _ ih =>
    obtain ⟨t, ht, rfl⟩ := ok_map_iff.mp h
    exact (ih ht).cons

/-- A default is passed over. -/
private theorem moves_of_scanDefault {s : Scanned (List Char)}
    (h : scanDefault start offset chars = .ok s) : Moves offset chars s.next s.rest := by
  fun_induction scanDefault start offset chars generalizing s with
  | case1 => cases h
  | case2 offset rest =>
    obtain rfl := Except.ok.inj h
    exact .head offset _ rest
  | case3 => cases h
  | case4 offset d rest _ ih =>
    obtain ⟨t, ht, rfl⟩ := ok_map_iff.mp h
    exact (ih ht).escaped
  | case5 offset c rest _ _ ih =>
    obtain ⟨t, ht, rfl⟩ := ok_map_iff.mp h
    exact (ih ht).cons

/-- A name and its default are passed over. -/
private theorem moves_of_scanReference {s : Scanned (List Char × Option (List Char))}
    (h : scanReference start offset chars = .ok s) : Moves offset chars s.next s.rest := by
  fun_induction scanReference start offset chars generalizing s with
  | case1 => cases h
  | case2 offset rest =>
    obtain rfl := Except.ok.inj h
    exact .head offset _ rest
  | case3 offset rest _ =>
    obtain ⟨t, ht, rfl⟩ := ok_map_iff.mp h
    exact (moves_of_scanDefault ht : Moves _ _ _ _).cons
  | case4 => cases h
  | case5 offset d rest _ _ ih =>
    obtain ⟨t, ht, rfl⟩ := ok_map_iff.mp h
    exact (ih ht).escaped
  | case6 offset c rest _ _ _ ih =>
    obtain ⟨t, ht, rfl⟩ := ok_map_iff.mp h
    exact (ih ht).cons

private theorem error_map_iff {α β : Type} {f : α → β} {r : Except CompileError (Scanned α)}
    {e : CompileError} : r.map (·.map f) = .error e ↔ r = .error e := by
  cases r <;> simp [Except.map]

/-- An error in a text is about its start or about a backslash in it. -/
private theorem between_of_scanStringBody {e : CompileError}
    (h : scanStringBody start offset chars = .error e) :
    e.offset = start ∨ Between offset chars e.offset := by
  fun_induction scanStringBody start offset chars with
  | case1 =>
    obtain rfl := Except.error.inj h
    exact .inl rfl
  | case2 => cases h
  | case3 =>
    obtain rfl := Except.error.inj h
    exact .inl rfl
  | case4 offset =>
    obtain rfl := Except.error.inj h
    exact .inr (Moves.refl offset _).between
  | case5 offset rest d u _ _ ih =>
    exact (ih (error_map_iff.mp h)).imp_right fun hbetween => hbetween.imp fun _ => Moves.escaped
  | case6 offset c rest _ _ ih =>
    exact (ih (error_map_iff.mp h)).imp_right fun hbetween => hbetween.imp fun _ => Moves.cons

private theorem offset_of_scanDefault {e : CompileError}
    (h : scanDefault start offset chars = .error e) :
    e.offset = start := by
  fun_induction scanDefault start offset chars with
  | case1 =>
    obtain rfl := Except.error.inj h
    rfl
  | case2 => cases h
  | case3 =>
    obtain rfl := Except.error.inj h
    rfl
  | case4 offset d rest _ ih => exact ih (error_map_iff.mp h)
  | case5 offset c rest _ _ ih => exact ih (error_map_iff.mp h)

/-- An error in a reference is about its start. -/
private theorem offset_of_scanReference {e : CompileError}
    (h : scanReference start offset chars = .error e) : e.offset = start := by
  fun_induction scanReference start offset chars with
  | case1 =>
    obtain rfl := Except.error.inj h
    rfl
  | case2 => cases h
  | case3 offset rest _ => exact offset_of_scanDefault (error_map_iff.mp h)
  | case4 =>
    obtain rfl := Except.error.inj h
    rfl
  | case5 offset d rest _ _ ih => exact ih (error_map_iff.mp h)
  | case6 offset c rest _ _ _ ih => exact ih (error_map_iff.mp h)

end

/-! ### Numbers -/

private theorem splitPlaces_append (chars : List Char) :
    (splitPlaces chars).1 ++ (splitPlaces chars).2 = chars := by
  cases chars with
  | nil => rfl
  | cons c rest =>
    rw [splitPlaces]
    split
    · exact congrArg (c :: ·) List.takeWhile_append_dropWhile
    · rfl

private theorem splitExponentSign_append (chars : List Char) :
    (splitExponentSign chars).1 ++ (splitExponentSign chars).2 = chars := by
  cases chars with
  | nil => rfl
  | cons c rest =>
    rw [splitExponentSign]
    split <;> rfl

private theorem splitExponent_append (chars : List Char) :
    (splitExponent chars).1 ++ (splitExponent chars).2.1 = chars := by
  cases chars with
  | nil => rfl
  | cons c rest =>
    rw [splitExponent]
    split
    · simp only [List.cons_append, List.append_assoc, List.takeWhile_append_dropWhile,
        splitExponentSign_append]
    · rfl

private theorem isNarrow_splitPlaces (chars : List Char) : IsNarrow (splitPlaces chars).1 := by
  cases chars with
  | nil => exact List.forall_mem_nil _
  | cons c rest =>
    rw [splitPlaces]
    split
    · rename_i hc
      refine List.forall_mem_cons.mpr ⟨hc ▸ rfl, ?_⟩
      exact isNarrow_takeWhile (fun _ => utf8Size_of_isDigit) rest
    · exact List.forall_mem_nil _

private theorem isNarrow_splitExponentSign (chars : List Char) :
    IsNarrow (splitExponentSign chars).1 := by
  cases chars with
  | nil => exact List.forall_mem_nil _
  | cons c rest =>
    rw [splitExponentSign]
    split
    · rename_i hc
      refine List.forall_mem_singleton.mpr ?_
      rcases hc with rfl | rfl <;> rfl
    · exact List.forall_mem_nil _

private theorem isNarrow_splitExponent (chars : List Char) : IsNarrow (splitExponent chars).1 := by
  cases chars with
  | nil => exact List.forall_mem_nil _
  | cons c rest =>
    rw [splitExponent]
    split
    · rename_i hc
      refine List.forall_mem_cons.mpr ⟨?_, ?_⟩
      · rcases hc with rfl | rfl <;> rfl
      · exact (isNarrow_splitExponentSign rest).append
          (isNarrow_takeWhile (fun _ => utf8Size_of_isDigit) _)
    · exact List.forall_mem_nil _

/-! ### Words -/

section

variable {start : Nat} {c : Char} {chars rest : List Char} {s : Scanned Token} {e : CompileError}

/-- A number is passed over. -/
private theorem moves_of_scanNumber (h : scanNumber start chars = .ok s) :
    Moves start chars s.next s.rest := by
  unfold scanNumber at h
  simp only at h
  split at h
  · obtain rfl := Except.ok.inj h
    have hnarrow := ((isNarrow_takeWhile (fun _ => utf8Size_of_isDigit) chars).append
      (isNarrow_splitPlaces (chars.dropWhile Char.isDigit))).append
      (isNarrow_splitExponent (splitPlaces (chars.dropWhile Char.isDigit)).2)
    have hmoves := hnarrow.moves start
      (splitExponent (splitPlaces (chars.dropWhile Char.isDigit)).2).2.1
    rwa [List.append_assoc, splitExponent_append, List.append_assoc, splitPlaces_append,
      List.takeWhile_append_dropWhile] at hmoves
  · cases h

private theorem offset_of_scanNumber (h : scanNumber start chars = .error e) :
    e.offset = start := by
  unfold scanNumber at h
  simp only at h
  split at h
  · cases h
  · obtain rfl := Except.error.inj h
    rfl

/-- A variable is passed over behind its dollar sign. -/
private theorem moves_of_scanVariable (h : scanVariable start rest = .ok s) :
    Moves (start + 1) rest s.next s.rest := by
  unfold scanVariable at h
  split at h
  · rename_i hbrace
    obtain ⟨rest, rfl⟩ := List.head?_eq_some_iff.mp hbrace
    cases hr : scanReference start (start + 2) rest with
    | error e => simp [hr] at h
    | ok r =>
      simp only [List.tail_cons, hr] at h
      split at h
      · cases h
      · obtain rfl := Except.ok.inj h
        exact (moves_of_scanReference hr : Moves (start + 1 + '\x7b'.utf8Size) _ _ _).cons
  · simp only at h
    split at h
    · cases h
    · obtain rfl := Except.ok.inj h
      exact moves_takeWhile (fun _ => utf8Size_of_isNameChar) (start + 1) rest

/-- An error in a variable is about its start. -/
private theorem offset_of_scanVariable (h : scanVariable start rest = .error e) :
    e.offset = start := by
  unfold scanVariable at h
  split at h
  · cases hr : scanReference start (start + 2) rest.tail with
    | error err =>
      simp only [hr] at h
      obtain rfl := Except.error.inj h
      exact offset_of_scanReference hr
    | ok r =>
      simp only [hr] at h
      split at h
      · obtain rfl := Except.error.inj h
        rfl
      · cases h
  · simp only at h
    split at h
    · obtain rfl := Except.error.inj h
      rfl
    · cases h

/-- A mark that starts with an angle bracket is passed over. -/
private theorem moves_scanAngle (hc : c = '<' ∨ c = '>') :
    Moves start (c :: rest) (scanAngle start c rest).next (scanAngle start c rest).rest := by
  have hsize : c.utf8Size = 1 := by rcases hc with rfl | rfl <;> rfl
  have hone : Moves start (c :: rest) (start + 1) rest := hsize ▸ Moves.head start c rest
  have htwo : ∀ d : Char, d.utf8Size = 1 → rest.head? = some d →
      Moves start (c :: rest) (start + 2) rest.tail := by
    intro d hd hhead
    obtain ⟨rest, rfl⟩ := List.head?_eq_some_iff.mp hhead
    have hsecond : Moves (start + 1) (d :: rest) (start + 1 + 1) rest := by
      have hmoves := Moves.head (start + 1) d rest
      rwa [hd] at hmoves
    exact hone.trans hsecond
  unfold scanAngle
  split
  · split
    · exact htwo '=' rfl ‹_›
    · split
      · exact htwo '>' rfl ‹_›
      · exact hone
  · split
    · exact htwo '=' rfl ‹_›
    · exact hone

/-- A token is passed over from its first character on. -/
theorem moves_of_scan (h : scan start c rest = .ok s) :
    Moves start (c :: rest) s.next s.rest := by
  unfold scan at h
  split at h
  · rename_i m hmark
    obtain rfl := Except.ok.inj h
    exact utf8Size_of_singleMark? hmark ▸ Moves.head start c rest
  · split at h
    · rename_i hangle
      obtain rfl := Except.ok.inj h
      exact moves_scanAngle hangle
    · split at h
      · rename_i hquote
        subst hquote
        obtain ⟨t, ht, rfl⟩ := ok_map_iff.mp h
        exact (moves_of_scanStringBody ht : Moves (start + '\x22'.utf8Size) _ _ _).cons
      · split at h
        · rename_i hdollar
          subst hdollar
          exact (moves_of_scanVariable h : Moves (start + '$'.utf8Size) _ _ _).cons
        · split at h
          · exact moves_of_scanNumber h
          · split at h
            · obtain rfl := Except.ok.inj h
              exact moves_takeWhile (fun _ => utf8Size_of_isIdentifierChar) start (c :: rest)
            · cases h

/-- An error in a token is about a place between its characters. -/
theorem between_of_scan (h : scan start c rest = .error e) :
    Between start (c :: rest) e.offset := by
  have hstart : e.offset = start → Between start (c :: rest) e.offset := by
    rintro heq
    rw [heq]
    exact (Moves.refl start _).between
  unfold scan at h
  split at h
  · cases h
  · split at h
    · cases h
    · split at h
      · rename_i hquote
        subst hquote
        refine (between_of_scanStringBody (error_map_iff.mp h)).elim hstart ?_
        exact (Moves.head start '\x22' rest).between_trans
      · split at h
        · exact hstart (offset_of_scanVariable h)
        · split at h
          · exact hstart (offset_of_scanNumber h)
          · split at h
            · cases h
            · obtain rfl := Except.error.inj h
              exact hstart rfl

end

/-! ### Tokens -/

/-- Every token of a text is one that is scanned. -/
theorem exists_scan_of_mem_tokenize (offset : Nat) (chars : List Char) :
    ∀ t ∈ (tokenize offset chars).tokens, ∃ c rest s,
      scan t.offset c rest = .ok s ∧ s.value = t.token := by
  fun_induction tokenize offset chars with
  | case1 => exact List.forall_mem_nil _
  | case2 => exact List.forall_mem_nil _
  | case3 offset chars start c rest hskip s hscan more ih =>
    exact List.forall_mem_cons.mpr ⟨⟨c, rest, s, hscan, rfl⟩, ih⟩

/-- The offset of what follows the last token: the end of the text, or an error. -/
def endOffset : Except CompileError Nat → Nat
  | .ok stop => stop
  | .error e => e.offset

/-- Tokens stand in front of characters, at increasing offsets, and what follows them is between
the characters; the text ends behind the last character. -/
structure Placed (offset : Nat) (chars : List Char) (stream : TokenStream) : Prop where
  /-- A token stands in front of a character. -/
  tokens : ∀ t ∈ stream.tokens, ∃ c rest, Moves offset chars t.offset (c :: rest)
  /-- The offsets increase. -/
  ordered : stream.tokens.Pairwise fun t u => t.offset < u.offset
  /-- What follows the tokens is between the characters. -/
  ending : Between offset chars (endOffset stream.ending)
  /-- The text ends behind the last character. -/
  stop : ∀ stop, stream.ending = .ok stop → Moves offset chars stop []

/-- The tokens of characters are placed among them. -/
theorem placed_tokenize (offset : Nat) (chars : List Char) :
    Placed offset chars (tokenize offset chars) := by
  fun_induction tokenize offset chars with
  | case1 offset chars stop hskip =>
    have hmoves := moves_skipBlanks hskip
    refine ⟨nofun, .nil, hmoves.between, ?_⟩
    rintro stop' hstop
    exact Except.ok.inj hstop ▸ hmoves
  | case2 offset chars start c rest hskip e hscan =>
    exact ⟨nofun, .nil, (moves_skipBlanks hskip).between_trans (between_of_scan hscan), nofun⟩
  | case3 offset chars start c rest hskip s hscan more ih =>
    have hfirst := moves_skipBlanks hskip
    have hword := moves_of_scan hscan
    have hnext := hfirst.trans hword
    refine ⟨?_, ?_, hnext.between_trans ih.ending,
      fun stop hstop => hnext.trans (ih.stop stop hstop)⟩
    · refine List.forall_mem_cons.mpr ⟨⟨c, rest, hfirst⟩, fun t ht => ?_⟩
      obtain ⟨d, others, hmoves⟩ := ih.tokens t ht
      exact ⟨d, others, hnext.trans hmoves⟩
    · refine List.pairwise_cons.mpr ⟨fun t ht => ?_, ih.ordered⟩
      -- the word takes a character, and other tokens are behind it
      obtain ⟨d, others, hmoves⟩ := ih.tokens t ht
      have hlen := length_rest_scan hscan
      exact Nat.lt_of_lt_of_le (hword.lt (Nat.lt_succ_of_le hlen)) hmoves.le

end TypedFormula
