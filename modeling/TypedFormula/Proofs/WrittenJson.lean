import TypedFormula.Json.Reader
import TypedFormula.Proofs.Binary64.Arithmetic
import TypedFormula.Proofs.Numerals

/-!
# JSON that was written

How a tree is written down: without blanks except for one behind every comma and colon, with as few
escapes as possible, and with whole numbers only (`Json.WrittenAs`). This is all that is asked of a
reader of JSON (`LawfulJsonReader`): a tree that was written down is found again, and so are its
texts and, rounded once to binary64, its integers of 64 bits.

The reader that programs run with is such a reader. Each tree is read up to the mark behind it, a
comma, a bracket or a brace, none of which belongs to a number (`EndsNumber`), in twice as many
steps as it has characters (`ReadsUpToMarks`). All digits of an integer of 64 bits fit into an
unsigned word, and no power of ten is left, so that the product with a power of ten, which might
round again, is one with `1`.

Main statements:

* `Json.WrittenAs.readsUpToMarks` — a tree that was written down is read up to a mark;
* `exists_value?_integerLiteral` — the value of a number that an integer is written as;
* `lawfulJsonReader_standard` — the reader that programs run with is lawful.
-/

namespace TypedFormula

open Decimal Binary64

/-! ### Writing trees -/

/-- The number of JSON that the text of an integer is. -/
def integerLiteral (z : ℤ) : NumberLiteral := ⟨decide (z < 0), (toString z.natAbs).toList, [], 0⟩

/-- A text between quotes. -/
def quoted (chars : List Char) : List Char := '\x22' :: (encodeText chars ++ ['\x22'])

/-- Parts with a comma and a blank between them. -/
def separated (parts : List (List Char)) : List Char := List.intercalate [',', ' '] parts

/-- A member of an object with a name and a value that is written down. -/
def memberText (name value : List Char) : List Char := quoted name ++ (':' :: ' ' :: value)

/-- A tree is written down as a text. -/
inductive Json.WrittenAs : Json → List Char → Prop
  | null : WrittenAs .null ['n', 'u', 'l', 'l']
  | yes : WrittenAs (.boolean true) ['t', 'r', 'u', 'e']
  | no : WrittenAs (.boolean false) ['f', 'a', 'l', 's', 'e']
  | integer (z : ℤ) : WrittenAs (.number (integerLiteral z)) (toString z).toList
  | string (chars : List Char) : WrittenAs (.string (encodeText chars)) (quoted chars)
  /-- The items stand between brackets, each with its text. -/
  | array (items : List (Json × List Char)) (h : ∀ p ∈ items, WrittenAs p.1 p.2) :
      WrittenAs (.array (items.map Prod.fst)) ('[' :: (separated (items.map Prod.snd) ++ [']']))
  /-- The members stand between braces, each with its name and the text of its value. -/
  | object (members : List (List Char × Json × List Char))
      (h : ∀ m ∈ members, WrittenAs m.2.1 m.2.2) :
      WrittenAs (.object (members.map fun m => (encodeText m.1, m.2.1)))
        ('\x7b' :: (separated (members.map fun m => memberText m.1 m.2.2) ++ ['\x7d']))

/-- A reader of JSON finds what was written down. -/
class LawfulJsonReader [JsonReader] : Prop where
  /-- The tree of a text that was written down is read. -/
  tree?_of_writtenAs {t : Json} {text : List Char} (h : t.WrittenAs text) :
    JsonReader.tree? text = some t
  /-- A text between quotes is read. -/
  text?_encodeText (chars : List Char) : JsonReader.text? (encodeText chars) = some chars
  /-- An integer of 64 bits is read with one rounding. -/
  exists_number?_integerLiteral {z : ℤ} (h : z.natAbs ≤ 2 ^ 63) :
    ∃ x, JsonReader.number? (integerLiteral z) = some x ∧ toRat? x = some (rounded z)

variable {c : Char} {chars rest tail name value : List Char} {z : ℤ}

/-! ### Reading a number -/

/-- A text is empty or has a mark in front, so that a number ends there. -/
def EndsNumber (rest : List Char) : Prop :=
  ∀ c tail, rest = c :: tail → c = ',' ∨ c = ']' ∨ c = '\x7d'

private theorem endsNumber_cons (h : c = ',' ∨ c = ']' ∨ c = '\x7d') : EndsNumber (c :: tail) := by
  rintro c' tail' heq
  rwa [← (List.cons.inj heq).1]

/-- A mark is not a part of a number. -/
private theorem EndsNumber.of_cons (h : EndsNumber (c :: tail)) :
    c.isDigit = false ∧ c ≠ '.' ∧ c ≠ 'e' ∧ c ≠ 'E' := by
  rcases h c tail rfl with rfl | rfl | rfl <;> decide

private theorem splitDigits_append {digits : List Char} (h : Digits digits)
    (hrest : EndsNumber rest) : splitDigits (digits ++ rest) = (digits, rest) := by
  rw [splitDigits, List.takeWhile_append_of_pos h.all, List.dropWhile_append_of_pos h.all]
  cases rest with
  | nil => simp
  | cons c tail => simp [hrest.of_cons.1]

private theorem Digits.isDigit_of_append_eq_cons {digits : List Char} (h : Digits digits)
    (heq : digits ++ rest = c :: tail) : c.isDigit = true := by
  obtain ⟨d, ds, rfl⟩ := List.exists_cons_of_ne_nil h.ne_nil
  obtain ⟨rfl, -⟩ := List.cons.inj heq
  exact h.all _ List.mem_cons_self

private theorem Digits.denoted_lt {digits : List Char} (h : ∀ c ∈ digits, c.isDigit = true) :
    denoted digits < 10 ^ digits.length := by
  have hlt := Nat.ofDigits_lt_base_pow_length (b := 10) (l := digits.reverse.map digitValue)
    (by decide) fun d hd => ?_
  · rwa [List.length_map, List.length_reverse] at hlt
  · obtain ⟨c, hc, rfl⟩ := List.mem_map.mp hd
    have hdigit := h c (List.mem_reverse.mp hc)
    rw [Char.isDigit_iff_toNat] at hdigit
    have hzero : '0'.toNat = 48 ∧ '9'.toNat = 57 := by decide
    rw [digitValue]
    omega

/-- The text of a natural number starts with a zero only if this is the only digit. -/
private theorem toString_ne_zero_cons (n : ℕ) (d : Char) (ds : List Char) :
    (toString n).toList ≠ '0' :: d :: ds := by
  intro heq
  have hall : ∀ c ∈ d :: ds, c.isDigit = true := fun c hc =>
    (digits_toString n).all c (heq ▸ List.mem_cons_of_mem _ hc)
  have hzero : denoted ['0'] = 0 := rfl
  have hn : n = denoted (d :: ds) := by
    rw [← denoted_toString n, heq, ← List.singleton_append, denoted_append, hzero, Nat.zero_mul,
      Nat.zero_add]
  have hlt : n < 10 ^ (d :: ds).length := hn ▸ Digits.denoted_lt hall
  have hlength := (Nat.length_toDigits_le_iff (by decide) (Nat.succ_pos ds.length)).mpr hlt
  rw [Nat.toString_eq_ofList_toDigits, String.toList_ofList] at heq
  rw [heq] at hlength
  simp only [List.length_cons] at hlength
  omega

private theorem readWhole?_toString (n : ℕ) (hrest : EndsNumber rest) :
    readWhole? ((toString n).toList ++ rest) = some ((toString n).toList, rest) := by
  rw [readWhole?, splitDigits_append (digits_toString n) hrest]
  split
  · rename_i heq
    exact absurd (congrArg Prod.fst heq) (digits_toString n).ne_nil
  · rename_i heq
    exact absurd (congrArg Prod.fst heq) (toString_ne_zero_cons n _ _)
  · rfl

/-- There is no fraction and no exponent in front of a mark. -/
private theorem readFraction?_of_endsNumber (hrest : EndsNumber rest) :
    readFraction? rest = some ([], rest) ∧ readPower? rest = some (0, rest) := by
  cases rest with
  | nil => exact ⟨rfl, rfl⟩
  | cons c tail =>
    obtain ⟨-, hpoint, hpower⟩ := hrest.of_cons
    constructor
    · unfold readFraction?
      split
      · rename_i heq
        exact absurd (List.cons.inj heq).1 hpoint
      · rfl
    · rw [readPower?, if_neg (not_or.mpr hpower)]

/-- The text of an integer is read up to a mark. -/
private theorem readLiteral?_toString (z : ℤ) (hrest : EndsNumber rest) :
    readLiteral? ((toString z).toList ++ rest) = some (integerLiteral z, rest) := by
  have hwhole := readWhole?_toString z.natAbs hrest
  obtain ⟨hfraction, hpower⟩ := readFraction?_of_endsNumber hrest
  rw [toList_toString, integerLiteral]
  split
  · rename_i hneg
    rw [decide_eq_true hneg, List.cons_append, readLiteral?]
    simp only [hwhole, hfraction, hpower, Option.bind_eq_bind, Option.bind_some, Option.pure_def]
  · rename_i hnonneg
    rw [decide_eq_false hnonneg]
    unfold readLiteral?
    split
    rename_i heq
    split at heq
    · rename_i htext
      cases (digits_toString z.natAbs).isDigit_of_append_eq_cons htext
    · obtain ⟨rfl, rfl⟩ := Prod.mk.inj heq
      simp only [hwhole, hfraction, hpower, Option.bind_eq_bind, Option.bind_some, Option.pure_def]

/-! ### Reading trees -/

private theorem isDigit_of_toString_append_eq_cons
    (heq : (toString z).toList ++ rest = c :: tail) : c = '-' ∨ c.isDigit = true := by
  rw [toList_toString] at heq
  split at heq
  · exact .inl (List.cons.inj heq).1.symm
  · exact .inr ((digits_toString z.natAbs).isDigit_of_append_eq_cons heq)

/-- What is written down starts with a character that is neither a blank nor a bracket that
closes. -/
private theorem Json.WrittenAs.exists_cons {t : Json} {text : List Char} (h : t.WrittenAs text) :
    ∃ c tail, text = c :: tail ∧ isJsonBlank c = false ∧ c ≠ ']' := by
  cases h with
  | integer z =>
    obtain ⟨c, tail, heq⟩ := List.exists_cons_of_ne_nil (toString_ne_nil z)
    refine ⟨c, tail, heq, ?_⟩
    have hfirst : c = '-' ∨ c.isDigit = true := by
      rw [← List.append_nil (toString z).toList] at heq
      exact isDigit_of_toString_append_eq_cons heq
    constructor
    · rw [← Bool.not_eq_true]
      intro hblank
      simp only [isJsonBlank, Bool.or_eq_true, decide_eq_true_eq] at hblank
      rcases hblank with ((rfl | rfl) | rfl) | rfl <;> exact absurd hfirst (by decide)
    · rintro rfl
      exact absurd hfirst (by decide)
  | _ => exact ⟨_, _, rfl, rfl, by decide⟩

/-- What is written down is not skipped. -/
private theorem Json.WrittenAs.skip_append {t : Json} {text : List Char} (h : t.WrittenAs text)
    (rest : List Char) : skipJsonBlanks (text ++ rest) = text ++ rest := by
  obtain ⟨c, tail, rfl, hblank, -⟩ := h.exists_cons
  rw [List.cons_append, skipJsonBlanks, List.dropWhile_cons, hblank]
  rfl

/-- A tree is read off its text up to a mark, behind any blanks and in enough steps. -/
def ReadsUpToMarks (t : Json) (text : List Char) : Prop :=
  ∀ steps chars rest, EndsNumber rest → 2 * text.length + 1 ≤ steps →
    skipJsonBlanks chars = text ++ rest → readTree? steps chars = some (t, rest)

/-- An integer is read up to a mark. -/
private theorem readsUpToMarks_integer (z : ℤ) :
    ReadsUpToMarks (.number (integerLiteral z)) (toString z).toList := by
  intro steps chars rest hrest hsteps hchars
  obtain ⟨k, rfl⟩ : ∃ k, steps = k + 1 := Nat.exists_eq_add_of_le' (by omega)
  have hsign : ∀ {d more}, (toString z).toList ++ rest = d :: more → d = '-' ∨ d.isDigit = true :=
    isDigit_of_toString_append_eq_cons
  rw [readTree?, hchars]
  -- A minus or a digit leads to the number: every other case asks for a letter or a mark.
  split
  case h_7 =>
    rw [readLiteral?_toString z hrest]
    rfl
  all_goals
    rename_i heq
    exact absurd (hsign heq) (by decide)

private theorem readWritten?_escape {e : Char}
    (h : e ∈ ['\x22', '\\', '/', 'b', 'f', 'n', 'r', 't']) (rest : List Char) :
    readWritten? ('\\' :: e :: rest) =
      (readWritten? rest).map fun r => ('\\' :: e :: r.1, r.2) := by
  simp only [List.mem_cons, List.not_mem_nil, or_false] at h
  rcases h with rfl | rfl | rfl | rfl | rfl | rfl | rfl | rfl <;> rfl

/-- A written character is taken as it is written, whatever follows. -/
private theorem readWritten?_encodeChar (c : Char) (rest : List Char) :
    readWritten? (encodeChar c ++ rest) =
      (readWritten? rest).map fun r => (encodeChar c ++ r.1, r.2) := by
  unfold encodeChar
  split
  · rename_i h
    rcases h with rfl | rfl <;> exact readWritten?_escape (by decide) rest
  split
  · exact readWritten?_escape (by decide) rest
  split
  · exact readWritten?_escape (by decide) rest
  split
  · exact readWritten?_escape (by decide) rest
  split
  · exact readWritten?_escape (by decide) rest
  split
  · exact readWritten?_escape (by decide) rest
  split
  · rename_i hsmall
    have hhex : ∀ n < 32,
        ['0', '0', Nat.digitChar (n / 16), Nat.digitChar (n % 16)].all isHexDigit = true := by
      decide
    rw [readWritten?.eq_def]
    simp only [List.cons_append, List.nil_append, hhex _ hsmall, if_true]
  · rename_i hmark _ _ _ _ _ hlarge
    obtain ⟨hquote, hbackslash⟩ := not_or.mp hmark
    rw [readWritten?.eq_def]
    simp [hbackslash, hlarge]

private theorem readWritten?_encodeText (chars rest : List Char) :
    readWritten? (encodeText chars ++ '\x22' :: rest) = some (encodeText chars, rest) := by
  induction chars with
  | nil => rfl
  | cons c chars ih =>
    have hcons : encodeText (c :: chars) = encodeChar c ++ encodeText chars := List.flatMap_cons
    rw [hcons, List.append_assoc, readWritten?_encodeChar, ih]
    rfl

private theorem readMemberName?_memberText
    (hchars : skipJsonBlanks chars = memberText name value ++ rest) :
    readMemberName? chars = some (encodeText name, ' ' :: (value ++ rest)) := by
  have hwritten := readWritten?_encodeText name (':' :: ' ' :: (value ++ rest))
  have htext : memberText name value ++ rest =
      '\x22' :: (encodeText name ++ '\x22' :: ':' :: ' ' :: (value ++ rest)) := by
    simp [memberText, quoted]
  rw [readMemberName?, hchars, htext]
  simp only [hwritten]
  rfl

private theorem length_le_memberText (name value : List Char) :
    value.length ≤ (memberText name value).length := by
  simp only [memberText, List.length_append, List.length_cons]
  omega

@[simp] theorem separated_singleton (part : List Char) : separated [part] = part := by
  simp [separated, List.intercalate]

@[simp] theorem separated_cons_cons (part part' : List Char) (parts : List (List Char)) :
    separated (part :: part' :: parts) = part ++ ',' :: ' ' :: separated (part' :: parts) := by
  simp [separated, List.intercalate]

/-- Several trees start with the first character of the first one. -/
private theorem Json.WrittenAs.exists_cons_separated {t : Json} {text : List Char}
    (h : t.WrittenAs text) (parts : List (List Char)) :
    ∃ c tail, separated (text :: parts) = c :: tail ∧ isJsonBlank c = false ∧ c ≠ ']' := by
  obtain ⟨c, tail, rfl, hc⟩ := h.exists_cons
  cases parts with
  | nil => exact ⟨c, tail, separated_singleton _, hc⟩
  | cons part parts => exact ⟨c, _, separated_cons_cons _ _ _, hc⟩

/-- They are not skipped either. -/
private theorem Json.WrittenAs.skip_separated {t : Json} {text : List Char} (h : t.WrittenAs text)
    (parts : List (List Char)) (rest : List Char) :
    skipJsonBlanks (separated (text :: parts) ++ rest) = separated (text :: parts) ++ rest := by
  obtain ⟨c, tail, heq, hblank, -⟩ := h.exists_cons_separated parts
  rw [heq, List.cons_append, skipJsonBlanks, List.dropWhile_cons, hblank]
  rfl

/-- Items are read up to the bracket if each of them is read. -/
private theorem readItems?_separated {first : Json × List Char} {others : List (Json × List Char)}
    (h : ∀ p ∈ first :: others, p.1.WrittenAs p.2 ∧ ReadsUpToMarks p.1 p.2) {steps : ℕ}
    (hsteps : 2 * (separated ((first :: others).map Prod.snd)).length + 2 ≤ steps)
    (hchars : skipJsonBlanks chars = separated ((first :: others).map Prod.snd) ++ ']' :: rest) :
    readItems? steps chars = some ((first :: others).map Prod.fst, rest) := by
  induction others generalizing first steps chars with
  | nil =>
    obtain ⟨k, rfl⟩ : ∃ k, steps = k + 1 := Nat.exists_eq_add_of_le' (by omega)
    simp only [List.map_cons, List.map_nil, separated_singleton] at hsteps hchars
    have hread := (h first List.mem_cons_self).2 k chars (']' :: rest)
      (endsNumber_cons (by decide)) (by omega) hchars
    rw [readItems?, hread]
    rfl
  | cons second others ih =>
    obtain ⟨k, rfl⟩ : ∃ k, steps = k + 1 := Nat.exists_eq_add_of_le' (by omega)
    obtain ⟨hfirst, hothers⟩ := List.forall_mem_cons.mp h
    simp only [List.map_cons, separated_cons_cons, List.append_assoc, List.length_append,
      List.length_cons, List.cons_append] at hsteps hchars
    have hread := hfirst.2 k chars _ (endsNumber_cons (.inl rfl)) (by omega) hchars
    have hskip := (hothers second List.mem_cons_self).1.skip_separated (others.map Prod.snd)
      (']' :: rest)
    have hmore :
        readItems? k (' ' :: (separated ((second :: others).map Prod.snd) ++ ']' :: rest)) =
          some ((second :: others).map Prod.fst, rest) :=
      ih hothers (by simp only [List.map_cons]; omega) hskip
    rw [readItems?, hread]
    exact congrArg (Option.map fun r => (first.1 :: r.1, r.2)) hmore

/-- Members start with a quote. -/
private theorem exists_cons_members (m : List Char × Json × List Char)
    (others : List (List Char × Json × List Char)) :
    ∃ tail, separated ((m :: others).map fun m => memberText m.1 m.2.2) = '\x22' :: tail := by
  cases others with
  | nil => exact ⟨_, separated_singleton _⟩
  | cons m' others => exact ⟨_, separated_cons_cons _ _ _⟩

/-- So they are not skipped. -/
private theorem skip_separated_members (m : List Char × Json × List Char)
    (others : List (List Char × Json × List Char)) (rest : List Char) :
    skipJsonBlanks (separated ((m :: others).map fun m => memberText m.1 m.2.2) ++ rest) =
      separated ((m :: others).map fun m => memberText m.1 m.2.2) ++ rest := by
  obtain ⟨tail, hcons⟩ := exists_cons_members m others
  rw [hcons]
  rfl

/-- Members are read up to the brace if each of their values is read. -/
private theorem readMembers?_separated {first : List Char × Json × List Char}
    {others : List (List Char × Json × List Char)}
    (h : ∀ m ∈ first :: others, m.2.1.WrittenAs m.2.2 ∧ ReadsUpToMarks m.2.1 m.2.2) {steps : ℕ}
    (hsteps : 2 * (separated ((first :: others).map fun m => memberText m.1 m.2.2)).length + 2 ≤
      steps)
    (hchars : skipJsonBlanks chars =
      separated ((first :: others).map fun m => memberText m.1 m.2.2) ++ '\x7d' :: rest) :
    readMembers? steps chars =
      some ((first :: others).map fun m => (encodeText m.1, m.2.1), rest) := by
  induction others generalizing first steps chars with
  | nil =>
    obtain ⟨k, rfl⟩ : ∃ k, steps = k + 1 := Nat.exists_eq_add_of_le' (by omega)
    have hfirst := h first List.mem_cons_self
    simp only [List.map_cons, List.map_nil, separated_singleton] at hsteps hchars
    have hlength := length_le_memberText first.1 first.2.2
    have hread := hfirst.2 k (' ' :: (first.2.2 ++ '\x7d' :: rest)) ('\x7d' :: rest)
      (endsNumber_cons (by decide)) (by omega) (hfirst.1.skip_append _)
    rw [readMembers?, readMemberName?_memberText hchars]
    simp only [hread]
    rfl
  | cons second others ih =>
    obtain ⟨k, rfl⟩ : ∃ k, steps = k + 1 := Nat.exists_eq_add_of_le' (by omega)
    obtain ⟨hfirst, hothers⟩ := List.forall_mem_cons.mp h
    simp only [List.map_cons, separated_cons_cons, List.append_assoc, List.length_append,
      List.length_cons, List.cons_append] at hsteps hchars
    have hlength := length_le_memberText first.1 first.2.2
    have hread := fun tail => hfirst.2 k (' ' :: (first.2.2 ++ ',' :: tail)) (',' :: tail)
      (endsNumber_cons (.inl rfl)) (by omega) (hfirst.1.skip_append _)
    have hmore : readMembers? k (' ' :: (separated
        ((second :: others).map fun m => memberText m.1 m.2.2) ++ '\x7d' :: rest)) =
          some ((second :: others).map fun m => (encodeText m.1, m.2.1), rest) :=
      ih hothers (by simp only [List.map_cons]; omega) (skip_separated_members second others _)
    rw [readMembers?, readMemberName?_memberText hchars]
    simp only [hread]
    exact congrArg (Option.map fun r => ((encodeText first.1, first.2.1) :: r.1, r.2)) hmore

/-- An array is read if its items are. -/
private theorem readsUpToMarks_array {items : List (Json × List Char)}
    (h : ∀ p ∈ items, p.1.WrittenAs p.2 ∧ ReadsUpToMarks p.1 p.2) :
    ReadsUpToMarks (.array (items.map Prod.fst))
      ('[' :: (separated (items.map Prod.snd) ++ [']'])) := by
  intro steps chars rest hrest hsteps hchars
  obtain ⟨k, rfl⟩ : ∃ k, steps = k + 1 := Nat.exists_eq_add_of_le' (by omega)
  simp only [List.length_cons, List.length_append, List.length_nil, List.cons_append,
    List.append_assoc, List.nil_append] at hsteps hchars
  rw [readTree?, hchars]
  cases items with
  | nil => rfl
  | cons first others =>
    have hwritten := (h first List.mem_cons_self).1
    have hskip := hwritten.skip_separated (others.map Prod.snd) (']' :: rest)
    have hitems : readItems? k (separated ((first :: others).map Prod.snd) ++ ']' :: rest) =
        some ((first :: others).map Prod.fst, rest) := readItems?_separated h (by omega) hskip
    rw [List.map_cons] at hitems
    simp only [List.map_cons, hskip]
    split
    · rename_i heq
      obtain ⟨c, tail, hcons, -, hbracket⟩ := hwritten.exists_cons_separated (others.map Prod.snd)
      rw [hcons] at heq
      exact absurd (List.cons.inj heq).1 hbracket
    · rw [hitems]
      rfl

/-- An object is read if the values of its members are. -/
private theorem readsUpToMarks_object {members : List (List Char × Json × List Char)}
    (h : ∀ m ∈ members, m.2.1.WrittenAs m.2.2 ∧ ReadsUpToMarks m.2.1 m.2.2) :
    ReadsUpToMarks (.object (members.map fun m => (encodeText m.1, m.2.1)))
      ('\x7b' :: (separated (members.map fun m => memberText m.1 m.2.2) ++ ['\x7d'])) := by
  intro steps chars rest hrest hsteps hchars
  obtain ⟨k, rfl⟩ : ∃ k, steps = k + 1 := Nat.exists_eq_add_of_le' (by omega)
  simp only [List.length_cons, List.length_append, List.length_nil, List.cons_append,
    List.append_assoc, List.nil_append] at hsteps hchars
  rw [readTree?, hchars]
  cases members with
  | nil => rfl
  | cons first others =>
    have hskip := skip_separated_members first others ('\x7d' :: rest)
    have hmembers : readMembers? k (separated ((first :: others).map fun m =>
        memberText m.1 m.2.2) ++ '\x7d' :: rest) =
          some ((first :: others).map fun m => (encodeText m.1, m.2.1), rest) :=
      readMembers?_separated h (by omega) hskip
    simp only [hskip]
    split
    · rename_i heq
      obtain ⟨tail, hcons⟩ := exists_cons_members first others
      rw [hcons] at heq
      cases heq
    · rw [hmembers]
      rfl

/-- A tree that was written down is read up to a mark. -/
theorem Json.WrittenAs.readsUpToMarks {t : Json} {text : List Char} (h : t.WrittenAs text) :
    ReadsUpToMarks t text := by
  induction h with
  | integer z => exact readsUpToMarks_integer z
  | array items h ih => exact readsUpToMarks_array fun p hp => ⟨h p hp, ih p hp⟩
  | object members h ih => exact readsUpToMarks_object fun m hm => ⟨h m hm, ih m hm⟩
  | string text =>
    intro steps chars rest hrest hsteps hchars
    obtain ⟨k, rfl⟩ : ∃ k, steps = k + 1 := Nat.exists_eq_add_of_le' (by omega)
    rw [quoted, List.cons_append, List.append_assoc] at hchars
    rw [readTree?, hchars]
    exact congrArg (Option.map fun r => (Json.string r.1, r.2)) (readWritten?_encodeText text rest)
  | _ =>
    intro steps chars rest hrest hsteps hchars
    obtain ⟨k, rfl⟩ : ∃ k, steps = k + 1 := Nat.exists_eq_add_of_le' (by omega)
    rw [readTree?, hchars]
    rfl

private theorem Json.WrittenAs.readJson? {t : Json} {text : List Char} (h : t.WrittenAs text) :
    readJson? text = some t := by
  have hskip := h.skip_append []
  rw [List.append_nil] at hskip
  have htree := h.readsUpToMarks (2 * text.length + 1) text [] (fun _ _ heq => nomatch heq)
    (Nat.le_refl _) (hskip.trans (List.append_nil text).symm)
  rw [TypedFormula.readJson?, htree]
  rfl

/-! ### Values -/

/-- All digits of a small number fit into an unsigned word. -/
private theorem addWhole_of_lt {digits : List Char} {n : ℕ} {power : ℤ}
    (h : digitsValue n digits < NumberLiteral.wordLimit) :
    (⟨n, power⟩ : NumberLiteral.Significand).addWhole digits = ⟨digitsValue n digits, power⟩ := by
  induction digits generalizing n with
  | nil => rfl
  | cons c digits ih =>
    have hstep : digitsValue n (c :: digits) = digitsValue (10 * n + digitValue c) digits := rfl
    have hle : 10 * n + digitValue c ≤ digitsValue n (c :: digits) := by
      rw [hstep, digitsValue_eq]
      exact Nat.le_add_right_of_le (Nat.le_mul_of_pos_left _ (Nat.pow_pos (by decide)))
    have htakes : NumberLiteral.Significand.takes ⟨n, power⟩ c = true :=
      decide_eq_true (hle.trans_lt h)
    rw [NumberLiteral.Significand.addWhole, htakes, if_pos rfl]
    exact ih h

private theorem significand_integerLiteral (hz : z.natAbs ≤ 2 ^ 63) :
    (integerLiteral z).significand = ⟨z.natAbs, 0⟩ := by
  have hvalue : digitsValue 0 (toString z.natAbs).toList = z.natAbs := by
    rw [digitsValue_zero, denoted_toString]
  have hlt : digitsValue 0 (toString z.natAbs).toList < NumberLiteral.wordLimit := by
    rw [hvalue, NumberLiteral.wordLimit]
    omega
  rw [NumberLiteral.significand, integerLiteral]
  simp only [addWhole_of_lt hlt, hvalue]
  rfl

private theorem toRat?_powerOfTen_zero : toRat? (NumberLiteral.powerOfTen 0) = some 1 := by
  have hone : NumberLiteral.powerOfTen 0 = ofNat 1 := by decide +kernel
  rw [hone, toRat?_ofNat (by decide), Nat.cast_one]

/-- Integers of 64 bits are in range, also when they are rounded. -/
theorem inRange?_rounded_intCast (hz : z.natAbs ≤ 2 ^ 63) :
    inRange? (rounded z) = some (rounded z) := by
  have hle : |(z : ℚ)| ≤ 2 ^ (63 : ℤ) := by
    rw [← Int.cast_abs, Int.abs_eq_natAbs]
    exact_mod_cast hz
  have hlargest : (2 : ℚ) ^ (63 : ℤ) ≤ largest := by
    rw [largest, ← one_mul ((2 : ℚ) ^ (63 : ℤ))]
    exact mul_le_mul (by norm_num) (zpow_le_zpow_right₀ (by norm_num) (by decide)) (by positivity)
      (by norm_num)
  refine inRange?_eq_some_iff.mpr ⟨le_trans ?_ hlargest, rfl⟩
  exact abs_rounded_le (representable_two_zpow (by decide)) hle

/-- The value of an integer of 64 bits is the integer, rounded. -/
theorem exists_value?_integerLiteral (hz : z.natAbs ≤ 2 ^ 63) :
    ∃ x, (integerLiteral z).value? = some x ∧ toRat? x = some (rounded z) := by
  have hmagnitude : inRange? (rounded (z.natAbs : ℤ)) = some (rounded (z.natAbs : ℤ)) :=
    inRange?_rounded_intCast hz
  have hproduct : toRat? (ofInt z.natAbs * NumberLiteral.powerOfTen 0) =
      some (rounded (z.natAbs : ℤ)) := by
    rw [toRat?_mul ((toRat?_ofInt _).trans hmagnitude) toRat?_powerOfTen_zero, mul_one,
      rounded_of_representable (representable_rounded _), hmagnitude]
  have hgrow : NumberLiteral.grow? (ofInt z.natAbs) 0 =
      some (ofInt z.natAbs * NumberLiteral.powerOfTen 0) := by
    have hfinite : (ofInt z.natAbs * NumberLiteral.powerOfTen 0).isFinite = true := by
      rw [isFinite_eq_isSome_toRat?, hproduct]
      rfl
    rw [NumberLiteral.grow?, if_pos (Nat.zero_le _), Option.filter_some, if_pos hfinite]
  rw [NumberLiteral.value?, significand_integerLiteral hz]
  simp only [lt_irrefl, if_false, Int.toNat_zero, hgrow, Option.map_some, Option.some.injEq,
    exists_eq_left']
  rw [integerLiteral]
  split
  · rename_i hneg
    have hz' : -((z.natAbs : ℤ) : ℚ) = z := by
      rw [← Int.cast_neg, Int.ofNat_natAbs_of_nonpos (of_decide_eq_true hneg).le, neg_neg]
    rw [toRat?_neg, hproduct, Option.map_some, ← rounded_neg, hz']
  · rename_i hnonneg
    have hz' : (z.natAbs : ℤ) = z :=
      Int.natAbs_of_nonneg (not_lt.mp fun hneg => hnonneg (decide_eq_true hneg))
    rw [hproduct, hz']

/-- The reader that programs run with finds what was written down. -/
instance lawfulJsonReader_standard : LawfulJsonReader where
  tree?_of_writtenAs := Json.WrittenAs.readJson?
  text?_encodeText := decodeText?_encodeText
  exists_number?_integerLiteral := exists_value?_integerLiteral

end TypedFormula
