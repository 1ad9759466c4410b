import TypedFormula.Text.HiddenTable

/-!
# Quoted text

A quoted text stands between double quotes. Quotes and backslashes in it get a backslash, the
four usual controls have a letter (`\0`, `\t`, `\r`, `\n`), and any other character without a form
of its own is written by its code point in hexadecimal.

Main statement: `oneLine_quotedChars` — a quoted text stays on one line.
-/

namespace TypedFormula.Text

/-- The lower-case hexadecimal digits of a number. -/
def hexDigits (n : Nat) : List Char :=
  if n < 16 then [Nat.digitChar n] else hexDigits (n / 16) ++ [Nat.digitChar (n % 16)]
termination_by n
decreasing_by omega

/-- The letter that stands for a character after a backslash, where there is one. -/
def escapeLetter? (c : Char) : Option Char :=
  if c = '\x00' then some '0'
  else if c = '\t' then some 't'
  else if c = '\r' then some 'r'
  else if c = '\n' then some 'n'
  else if c = '\\' then some '\\'
  else if c = '\x22' then some '\x22'
  else none

/-- A character as it stands inside quotes. -/
def quotedChar (c : Char) : List Char :=
  match escapeLetter? c with
  | some letter => ['\\', letter]
  | none =>
    if inRanges c.toNat hiddenRanges then
      ['\\', 'u', '\x7b'] ++ hexDigits c.toNat ++ ['\x7d']
    else [c]

/-- A text between quotes. -/
def quotedChars (chars : List Char) : List Char :=
  '\x22' :: chars.flatMap quotedChar ++ ['\x22']

/-- A text between quotes. -/
def quoted (s : String) : String := String.ofList (quotedChars s.toList)

/-! ### Lines -/

/-- The characters that end a line: the line feed, the vertical tab, the form feed, the carriage
return, the next line, and the separators of lines and of paragraphs. -/
def lineBreaks : List Char := ['\n', '\x0b', '\x0c', '\r', '\x85', '\u2028', '\u2029']

/-- Characters that stay on one line. -/
def OneLine (chars : List Char) : Prop := ∀ c ∈ chars, c ∉ lineBreaks

instance (chars : List Char) : Decidable (OneLine chars) :=
  List.decidableBAll _ chars

@[simp] theorem oneLine_nil : OneLine [] := List.forall_mem_nil _

@[simp] theorem oneLine_cons {c : Char} {chars : List Char} :
    OneLine (c :: chars) ↔ c ∉ lineBreaks ∧ OneLine chars := List.forall_mem_cons

@[simp] theorem oneLine_append {chars chars' : List Char} :
    OneLine (chars ++ chars') ↔ OneLine chars ∧ OneLine chars' := List.forall_mem_append

private theorem oneLine_hexDigits (n : Nat) : OneLine (hexDigits n) := by
  have hdigit : ∀ k < 16, Nat.digitChar k ∉ lineBreaks := by decide
  fun_induction hexDigits n with
  | case1 n h => exact oneLine_cons.mpr ⟨hdigit n h, oneLine_nil⟩
  | case2 n h ih =>
    have hlast := hdigit (n % 16) (Nat.mod_lt n (by omega))
    exact oneLine_append.mpr ⟨ih, oneLine_cons.mpr ⟨hlast, oneLine_nil⟩⟩

private theorem notMem_of_escapeLetter? {c letter : Char} (h : escapeLetter? c = some letter) :
    letter ∉ lineBreaks := by
  unfold escapeLetter? at h
  repeat' split at h
  all_goals cases h
  all_goals decide

/-- A character is written without a line break: what ends a line has a letter or is hidden. -/
private theorem oneLine_quotedChar (c : Char) : OneLine (quotedChar c) := by
  have hall : lineBreaks.all (fun b =>
      (escapeLetter? b).isSome || inRanges b.toNat hiddenRanges) = true := by decide +kernel
  have hwritten : ∀ b ∈ lineBreaks,
      (escapeLetter? b).isSome = true ∨ inRanges b.toNat hiddenRanges = true :=
    fun b hb => (Bool.or_eq_true _ _).mp (List.all_eq_true.mp hall b hb)
  unfold quotedChar
  split
  · rename_i letter h
    have hbackslash : '\\' ∉ lineBreaks := by decide
    simp [hbackslash, notMem_of_escapeLetter? h]
  · rename_i h
    split
    · have hfront : OneLine ['\\', 'u', '\x7b'] := by decide
      have hback : OneLine ['\x7d'] := by decide
      exact oneLine_append.mpr ⟨oneLine_append.mpr ⟨hfront, oneLine_hexDigits _⟩, hback⟩
    · rename_i hhidden
      have hc : c ∉ lineBreaks := fun hmem =>
        (hwritten c hmem).elim (fun hletter => by simp [h] at hletter) hhidden
      simp [hc]

/-- A quoted text stays on one line. -/
theorem oneLine_quotedChars (chars : List Char) : OneLine (quotedChars chars) := by
  have hquote : '\x22' ∉ lineBreaks := by decide
  have hbody : OneLine (chars.flatMap quotedChar) := by
    intro c hc
    obtain ⟨d, -, hd⟩ := List.mem_flatMap.mp hc
    exact oneLine_quotedChar d c hd
  simp [quotedChars, hquote, hbody]

end TypedFormula.Text
