import TypedFormula.Proofs.Escapes
import TypedFormula.Proofs.Positions
import TypedFormula.Proofs.Spelling

/-!
# Respelled texts

A text is respelled (`Respelled`) by writing its numbers, truth values and names in other letter
case. All else is kept: blanks and marks, and also texts and references, where letters stand for
themselves.

A respelled text has the same words at the same places. There are two reasons for this. Numbers,
names and marks are read in any letter case. Texts and references are read up to a closing quote or
brace, whatever is behind them (`ReadsAlone`); only a plain name behind a dollar sign goes on as
long as there are letters, and what ends it is no letter in either text.

Main statements:

* `scan_of_sameLetters`, `scan_of_kept` — the two ways in which words are read again;
* `tokenize_of_respelled` — the tokens of a respelled text.
-/

namespace TypedFormula

open Text (CaseBlind SameLetters)

/-! ### Words that end themselves -/

/-- A scanner reads some of the first characters, whatever is behind them. -/
def ReadsAlone {α : Type} (read : List Char → Except CompileError (Scanned α)) (chars : List Char)
    (s : Scanned α) : Prop :=
  ∃ word, chars = word ++ s.rest ∧ ∀ rest, read (word ++ rest) = .ok ⟨s.value, s.next, rest⟩

/-- A scanner that goes on behind characters as another one reads these and what that one reads. -/
private theorem ReadsAlone.behind {α β : Type} {read : List Char → Except CompileError (Scanned α)}
    {inner : List Char → Except CompileError (Scanned β)} {f : β → α} {chars : List Char}
    {s : Scanned β} (h : ReadsAlone inner chars s) (front : List Char)
    (hread : ∀ rest, read (front ++ rest) = (inner rest).map (·.map f)) :
    ReadsAlone read (front ++ chars) (s.map f) := by
  obtain ⟨word, rfl, hword⟩ := h
  refine ⟨front ++ word, (List.append_assoc _ _ _).symm, fun rest => ?_⟩
  rw [List.append_assoc, hread, hword]
  rfl

section

variable {start offset : Nat} {chars : List Char}

/-- The body of a text is read up to its quote. -/
private theorem readsAlone_scanStringBody {s : Scanned (List Char)}
    (h : scanStringBody start offset chars = .ok s) :
    ReadsAlone (scanStringBody start offset) chars s := by
  fun_induction scanStringBody start offset chars generalizing s with
  | case1 => cases h
  | case2 offset rest =>
    obtain rfl := Except.ok.inj h
    exact ⟨['\x22'], rfl, scanStringBody_quote start offset⟩
  | case3 => cases h
  | case4 => cases h
  | case5 offset d rest e hescape hquote ih =>
    obtain ⟨t, ht, rfl⟩ := ok_map_iff.mp h
    refine (ih ht).behind ['\\', d] fun rest => ?_
    rw [List.cons_append, List.cons_append, scanStringBody, if_neg (by decide), if_pos rfl]
    simp only [hescape, List.nil_append]
  | case6 offset c rest hquote hescape ih =>
    obtain ⟨t, ht, rfl⟩ := ok_map_iff.mp h
    refine (ih ht).behind [c] fun rest => ?_
    cases rest <;> simp only [List.cons_append, List.nil_append, scanStringBody, if_neg hquote,
      if_neg hescape]

/-- A default is read up to its brace. -/
private theorem readsAlone_scanDefault {s : Scanned (List Char)}
    (h : scanDefault start offset chars = .ok s) :
    ReadsAlone (scanDefault start offset) chars s := by
  fun_induction scanDefault start offset chars generalizing s with
  | case1 => cases h
  | case2 offset rest =>
    obtain rfl := Except.ok.inj h
    exact ⟨['\x7d'], rfl, scanDefault_brace start offset⟩
  | case3 => cases h
  | case4 offset d rest hbrace ih =>
    obtain ⟨t, ht, rfl⟩ := ok_map_iff.mp h
    refine (ih ht).behind ['\\', d] fun rest => ?_
    rw [List.cons_append, List.cons_append, scanDefault, if_neg (by decide), if_pos rfl]
    rfl
  | case5 offset c rest hbrace hescape ih =>
    obtain ⟨t, ht, rfl⟩ := ok_map_iff.mp h
    refine (ih ht).behind [c] fun rest => ?_
    cases rest <;> simp only [List.cons_append, List.nil_append, scanDefault, if_neg hbrace,
      if_neg hescape]

/-- A name and its default are read up to the brace. -/
private theorem readsAlone_scanReference {s : Scanned (List Char × Option (List Char))}
    (h : scanReference start offset chars = .ok s) :
    ReadsAlone (scanReference start offset) chars s := by
  fun_induction scanReference start offset chars generalizing s with
  | case1 => cases h
  | case2 offset rest =>
    obtain rfl := Except.ok.inj h
    exact ⟨['\x7d'], rfl, scanReference_brace start offset⟩
  | case3 offset rest hbrace =>
    obtain ⟨t, ht, rfl⟩ := ok_map_iff.mp h
    exact (readsAlone_scanDefault ht).behind [':'] (scanReference_colon start offset)
  | case4 => cases h
  | case5 offset d rest hbrace hcolon ih =>
    obtain ⟨t, ht, rfl⟩ := ok_map_iff.mp h
    refine (ih ht).behind ['\\', d] fun rest => ?_
    rw [List.cons_append, List.cons_append, scanReference, if_neg (by decide),
      if_neg (by decide), if_pos rfl]
    rfl
  | case6 offset c rest hbrace hcolon hescape ih =>
    obtain ⟨t, ht, rfl⟩ := ok_map_iff.mp h
    refine (ih ht).behind [c] fun rest => ?_
    cases rest <;> simp only [List.cons_append, List.nil_append, scanReference, if_neg hbrace,
      if_neg hcolon, if_neg hescape]

end

private theorem takeWhile_dropWhile_eq_nil (p : Char → Bool) (chars : List Char) :
    (chars.dropWhile p).takeWhile p = [] := by
  induction chars with
  | nil => rfl
  | cons c chars ih =>
    by_cases hc : p c = true
    · rw [List.dropWhile_cons_of_pos hc, ih]
    · rw [List.dropWhile_cons_of_neg hc, List.takeWhile_cons_of_neg hc]

/-- A run of characters of a case blind class ends where it ended, if the letters behind it are the
same. -/
private theorem takeWhile_append_of_sameLetters {p : Char → Bool} (hp : CaseBlind p)
    {chars rest : List Char} (h : SameLetters (chars.dropWhile p) rest) :
    (chars.takeWhile p ++ rest).takeWhile p = chars.takeWhile p ∧
      (chars.takeWhile p ++ rest).dropWhile p = rest := by
  have hnil : rest.takeWhile p = [] := by
    have hletters := h.takeWhile hp
    rw [takeWhile_dropWhile_eq_nil] at hletters
    exact hletters.eq_nil
  have hrest : rest.dropWhile p = rest := by
    have hall := List.takeWhile_append_dropWhile (p := p) (l := rest)
    rwa [hnil, List.nil_append] at hall
  have hrun := List.all_eq_true.mp (List.all_takeWhile (p := p) (l := chars))
  rw [List.takeWhile_append_of_pos hrun, List.dropWhile_append_of_pos hrun, hnil, hrest,
    List.append_nil]
  exact ⟨rfl, rfl⟩

section

variable {start : Nat} {c : Char} {chars rest : List Char} {s : Scanned Token}

private theorem readsAlone_scanString (h : scanString start chars = .ok s) :
    ReadsAlone (scanString start) chars s := by
  obtain ⟨t, ht, rfl⟩ := ok_map_iff.mp h
  exact (readsAlone_scanStringBody ht).behind [] fun _ => rfl

/-- A reference is read where the letters behind it are the same. -/
private theorem scanVariable_of_sameLetters (h : scanVariable start chars = .ok s)
    (hrest : SameLetters s.rest rest) :
    ∃ word, chars = word ++ s.rest ∧
      scanVariable start (word ++ rest) = .ok ⟨s.value, s.next, rest⟩ := by
  unfold scanVariable at h
  split at h
  · rename_i hbrace
    cases hr : scanReference start (start + 2) chars.tail with
    | error e => simp [hr] at h
    | ok r =>
      obtain ⟨word, htail, hread⟩ := readsAlone_scanReference hr
      simp only [hr] at h
      split at h
      · cases h
      · rename_i hname
        obtain rfl := Except.ok.inj h
        refine ⟨'\x7b' :: word, ?_, ?_⟩
        · rw [← List.cons_head?_tail hbrace, htail]
          rfl
        · rw [scanVariable, List.cons_append, if_pos List.head?_cons, List.tail_cons, hread]
          simp only [if_neg hname]
          rfl
  · rename_i hbrace
    simp only at h
    split at h
    · cases h
    · rename_i hname
      obtain rfl := Except.ok.inj h
      obtain ⟨htake, hdrop⟩ := takeWhile_append_of_sameLetters Text.caseBlind_isNameChar hrest
      refine ⟨chars.takeWhile isNameChar, List.takeWhile_append_dropWhile.symm, ?_⟩
      have hbrace' : ¬ (chars.takeWhile isNameChar ++ rest).head? = some '\x7b' := by
        have hne : chars.takeWhile isNameChar ≠ [] := by simpa using hname
        obtain ⟨d, name, hcons⟩ := List.exists_cons_of_ne_nil hne
        have hhead : chars.head? = some d := by
          rw [← List.takeWhile_append_dropWhile (p := isNameChar) (l := chars), hcons]
          rfl
        rw [hhead] at hbrace
        rw [hcons]
        exact hbrace
      rw [scanVariable, if_neg hbrace']
      simp only [htake, hdrop, if_neg hname]

/-- Texts and references are read where the letters behind them are the same. -/
theorem scan_of_kept (hc : c = '\x22' ∨ c = '$') (h : scan start c chars = .ok s)
    (hrest : SameLetters s.rest rest) :
    ∃ word, chars = word ++ s.rest ∧ scan start c (word ++ rest) = .ok ⟨s.value, s.next, rest⟩ := by
  rcases hc with rfl | rfl
  · replace h : scanString start chars = .ok s := h
    obtain ⟨word, hword, hread⟩ := readsAlone_scanString h
    exact ⟨word, hword, hread rest⟩
  · replace h : scanVariable start chars = .ok s := h
    exact scanVariable_of_sameLetters h hrest

/-- All other words are read in any letter case. -/
theorem scan_of_sameLetters {d : Char} {chars' : List Char} (hquote : c ≠ '\x22')
    (hdollar : c ≠ '$') (hcd : c.toUpper = d.toUpper) (hchars : SameLetters chars chars')
    (h : scan start c chars = .ok s) : ∃ s', scan start d chars' = .ok s' ∧ s.Alike s' := by
  have hless : c = '<' ↔ d = '<' := Text.eq_iff_of_toUpper (by decide) hcd
  have hgreater : c = '>' ↔ d = '>' := Text.eq_iff_of_toUpper (by decide) hcd
  have hquote' : c = '\x22' ↔ d = '\x22' := Text.eq_iff_of_toUpper (by decide) hcd
  have hdollar' : c = '$' ↔ d = '$' := Text.eq_iff_of_toUpper (by decide) hcd
  have hpoint : (c == '.') = (d == '.') :=
    beq_eq_beq.mpr (Text.eq_iff_of_toUpper (by decide) hcd)
  have hunderscore : (c == '_') = (d == '_') :=
    beq_eq_beq.mpr (Text.eq_iff_of_toUpper (by decide) hcd)
  have hletters := hchars.cons hcd
  rw [scan] at h ⊢
  rw [← Text.caseBlind_singleMark?.eq_of_toUpper hcd]
  cases hmark : singleMark? c with
  | some m =>
    simp only [hmark] at h
    obtain rfl := Except.ok.inj h
    exact ⟨_, rfl, rfl, rfl, hchars⟩
  | none =>
    simp only [hmark, if_neg hquote, if_neg hdollar] at h
    simp only [if_neg (mt hquote'.mpr hquote), if_neg (mt hdollar'.mpr hdollar),
      ← Text.caseBlind_isDigit.eq_of_toUpper hcd, ← Text.caseBlind_isAlpha.eq_of_toUpper hcd,
      ← hpoint, ← hunderscore, ← startsWithDigit_of_sameLetters hchars]
    split at h
    · rename_i hangle
      obtain rfl := Except.ok.inj h
      have hsame : c = d := by
        rcases hangle with rfl | rfl
        · exact (hless.mp rfl).symm
        · exact (hgreater.mp rfl).symm
      rw [← hsame, if_pos hangle]
      exact ⟨_, rfl, scanAngle_of_sameLetters hchars⟩
    · rename_i hangle
      rw [if_neg (mt (or_congr hless hgreater).mpr hangle)]
      split at h
      · rename_i hnumber
        rw [if_pos hnumber]
        exact scanNumber_of_sameLetters hletters h
      · rename_i hnumber
        rw [if_neg hnumber]
        split at h
        · rename_i hidentifier
          obtain rfl := Except.ok.inj h
          rw [if_pos hidentifier]
          exact ⟨_, rfl, scanIdentifier_of_sameLetters hletters⟩
        · cases h

end

/-! ### Respelled texts -/

/-- Whether a word may be written in any letter case. -/
def Token.ignoresCase : Token → Bool
  | .number _ => true
  | .boolean _ => true
  | .identifier _ => true
  | _ => false

/-- Characters at an offset are blanks and words, and other characters are the same blanks and
words, but that numbers, truth values and names may be written in another letter case. -/
inductive Respelled : Nat → List Char → List Char → Prop where
  /-- No characters. -/
  | nil (offset : Nat) : Respelled offset [] []
  /-- A blank is kept. -/
  | blank {offset : Nat} {c : Char} {rest rest' : List Char} (hc : Text.isBlank c = true)
      (h : Respelled (offset + c.utf8Size) rest rest') : Respelled offset (c :: rest) (c :: rest')
  /-- A word has the same letters, and is kept unless it may be written in any letter case. -/
  | word {offset : Nat} {c : Char} {rest word word' rest' : List Char} {s : Scanned Token}
      (hc : Text.isBlank c = false) (hscan : scan offset c rest = .ok s)
      (hword : c :: rest = word ++ s.rest) (hletters : SameLetters word word')
      (hkept : s.value.ignoresCase = false → word' = word) (h : Respelled s.next s.rest rest') :
      Respelled offset (c :: rest) (word' ++ rest')

private theorem Respelled.sameLetters {offset : Nat} {chars chars' : List Char}
    (h : Respelled offset chars chars') : SameLetters chars chars' := by
  induction h with
  | nil => exact .refl []
  | blank _ _ ih => exact ih.cons rfl
  | word _ _ hword hletters _ _ ih => exact hword ▸ hletters.append ih

section

variable {start offset : Nat} {c : Char} {chars chars' word word' rest : List Char}
  {s : Scanned Token}

/-- Texts and references are not written in any letter case. -/
theorem ignoresCase_of_kept (hc : c = '\x22' ∨ c = '$') (h : scan start c chars = .ok s) :
    s.value.ignoresCase = false := by
  rcases hc with rfl | rfl
  · obtain ⟨t, -, rfl⟩ := ok_map_iff.mp (h : scanString start chars = .ok s)
    rfl
  · replace h : scanVariable start chars = .ok s := h
    unfold scanVariable at h
    split at h
    · split at h
      · cases h
      · split at h
        · cases h
        · obtain rfl := Except.ok.inj h
          rfl
    · simp only at h
      split at h
      · cases h
      · obtain rfl := Except.ok.inj h
        rfl

/-- The first word of a respelled text is read as in the text, up to the letter case of a name. -/
private theorem scan_of_respelled (h : scan start c chars = .ok s)
    (hword : c :: chars = word ++ s.rest) (hletters : SameLetters word word')
    (hkept : s.value.ignoresCase = false → word' = word) (hrest : SameLetters s.rest rest) :
    ∃ d chars' t, word' ++ rest = d :: chars' ∧ c.toUpper = d.toUpper ∧
      scan start d chars' = .ok ⟨t, s.next, rest⟩ ∧ t.key = s.value.key := by
  by_cases hc : c = '\x22' ∨ c = '$'
  · obtain rfl := hkept (ignoresCase_of_kept hc h)
    obtain ⟨tail, htail, hread⟩ := scan_of_kept hc h hrest
    have htaken : c :: tail ++ s.rest = word' ++ s.rest := by
      rw [← hword, List.cons_append, ← htail]
    obtain rfl := List.append_cancel_right htaken
    exact ⟨c, tail ++ rest, s.value, rfl, rfl, hread, rfl⟩
  · obtain ⟨hquote, hdollar⟩ := not_or.mp hc
    have hall : SameLetters (c :: chars) (word' ++ rest) := hword ▸ hletters.append hrest
    obtain ⟨d, chars', hd, hcd, hchars⟩ := hall.exists_cons
    obtain ⟨s', hs', halike⟩ := scan_of_sameLetters hquote hdollar hcd hchars h
    -- as many characters are left as before, so they are those behind the word
    obtain ⟨read, hread, -⟩ := moves_of_scan hs'
    have hlength : s'.rest.length = rest.length :=
      halike.rest.length_eq.symm.trans hrest.length_eq
    obtain ⟨-, hsame⟩ := List.append_inj' (hread.symm.trans hd.symm) hlength
    refine ⟨d, chars', s'.value, hd, hcd, ?_, halike.key⟩
    rw [hs', ← halike.next, ← hsame]

/-- Blanks in front of a text have no tokens. -/
theorem tokenize_of_skipBlanks {chars : List Char} {offset' : Nat} {chars' : List Char}
    (h : skipBlanks offset chars = skipBlanks offset' chars') :
    tokenize offset chars = tokenize offset' chars' := by
  rcases hskip : skipBlanks offset' chars' with ⟨start, _ | ⟨c, rest⟩⟩
  · rw [tokenize_nil (h.trans hskip), tokenize_nil hskip]
  · cases hscan : scan start c rest with
    | error e => rw [tokenize_error (h.trans hskip) hscan, tokenize_error hskip hscan]
    | ok s => rw [tokenize_cons (h.trans hskip) hscan, tokenize_cons hskip hscan]

/-- A located token, a name in its upper-case form. -/
def Located.key (t : Located) : Located := ⟨t.token.key, t.offset⟩

/-- Tokens at the same offsets are the same up to the letter case of names. -/
def SameWords (tokens tokens' : List Located) : Prop :=
  tokens.map Located.key = tokens'.map Located.key

/-- The tokens of a respelled text are those of the text up to the letter case of names. -/
theorem tokenize_of_respelled (h : Respelled offset chars chars') :
    ∃ tokens tokens' stop, tokenize offset chars = ⟨tokens, .ok stop⟩ ∧
      tokenize offset chars' = ⟨tokens', .ok stop⟩ ∧ SameWords tokens tokens' := by
  induction h with
  | nil offset => exact ⟨[], [], offset, tokenize_nil rfl, tokenize_nil rfl, rfl⟩
  | @blank offset c _ _ hc _ ih =>
    have hskip : ∀ rest, skipBlanks offset (c :: rest) = skipBlanks (offset + c.utf8Size) rest :=
      fun rest => by rw [skipBlanks, if_pos hc]
    rw [tokenize_of_skipBlanks (hskip _), tokenize_of_skipBlanks (hskip _)]
    exact ih
  | @word offset c _ _ _ _ s hc hscan hword hletters hkept hrest ih =>
    obtain ⟨tokens, tokens', stop, htokens, htokens', hsame⟩ := ih
    obtain ⟨d, chars', t, hd, hcd, hscan', hkey⟩ :=
      scan_of_respelled hscan hword hletters hkept hrest.sameLetters
    have hstays : ∀ {c rest}, Text.isBlank c = false → skipBlanks offset (c :: rest) =
        (offset, c :: rest) := fun hc => by rw [skipBlanks, hc]; rfl
    have hd' : Text.isBlank d = false := Text.caseBlind_isBlank.eq_of_toUpper hcd ▸ hc
    refine ⟨⟨s.value, offset⟩ :: tokens, ⟨t, offset⟩ :: tokens', stop, ?_, ?_, ?_⟩
    · rw [tokenize_cons (hstays hc) hscan, htokens]
    · rw [hd, tokenize_cons (hstays hd') hscan', htokens']
    · exact congrArg₂ List.cons (congrArg (Located.mk · offset) hkey.symm) hsame

/-- A respelled text begins with an equals sign as the text does, and goes on respelled. -/
theorem skipBlanks_of_respelled (h : Respelled offset chars chars')
    (hblanks : skipBlanks offset chars = (start, '=' :: rest)) :
    ∃ rest', skipBlanks offset chars' = (start, '=' :: rest') ∧
      Respelled (start + 1) rest rest' := by
  induction h with
  | nil => cases hblanks
  | blank hc _ ih =>
    rw [skipBlanks, if_pos hc] at hblanks ⊢
    exact ih hblanks
  | @word offset c _ word _ _ s hc hscan hword hletters hkept hrest _ =>
    rw [skipBlanks, hc] at hblanks
    obtain ⟨rfl, hcons⟩ := Prod.mk.inj hblanks
    obtain ⟨rfl, rfl⟩ := List.cons.inj hcons
    obtain rfl := Except.ok.inj hscan
    obtain rfl : ['='] = word := List.append_cancel_right hword
    obtain rfl := hkept rfl
    exact ⟨_, rfl, hrest⟩

end

end TypedFormula
