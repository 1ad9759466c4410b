import TypedFormula.Json
import TypedFormula.Text.Quoted

/-!
# Texts in JSON

Between its quotes a text has escapes: a backslash before a letter or a mark, or before `u` and
four hexadecimal digits that name a unit of UTF-16. A character outside the basic plane takes a
pair of units, and half a pair names nothing. Texts are written with as few escapes as possible.

Main statement: `decodeText?_encodeText` — a text that was written reads back.
-/

namespace TypedFormula

/-! ### Reading -/

/-- The value of a hexadecimal digit in either letter case. -/
def hexValue? (c : Char) : Option Nat :=
  if c.isDigit then some (c.toNat - '0'.toNat)
  else if 'a' ≤ c ∧ c ≤ 'f' then some (c.toNat - 'a'.toNat + 10)
  else if 'A' ≤ c ∧ c ≤ 'F' then some (c.toNat - 'A'.toNat + 10)
  else none

/-- The number that four hexadecimal digits write. -/
def unit? (a b c d : Char) : Option Nat := do
  let w ← hexValue? a
  let x ← hexValue? b
  let y ← hexValue? c
  let z ← hexValue? d
  return 4096 * w + 256 * x + 16 * y + z

/-- Whether a unit is the first half of a pair. -/
def isFirstHalf (n : Nat) : Bool := decide (0xD800 ≤ n ∧ n < 0xDC00)

/-- Whether a unit is the second half of a pair. -/
def isSecondHalf (n : Nat) : Bool := decide (0xDC00 ≤ n ∧ n < 0xE000)

/-- The character of a pair of units. -/
def pairChar (first second : Nat) : Char :=
  Char.ofNat (0x10000 + 1024 * (first - 0xD800) + (second - 0xDC00))

/-- What a letter or mark after a backslash stands for. -/
def escaped? (c : Char) : Option Char :=
  if c = '\x22' ∨ c = '\\' ∨ c = '/' then some c
  else if c = 'b' then some '\x08'
  else if c = 'f' then some '\x0c'
  else if c = 'n' then some '\n'
  else if c = 'r' then some '\r'
  else if c = 't' then some '\t'
  else none

/-- The text that characters between quotes write, behind the first half of a pair if there is
one. -/
def decodeAfter? : Option Nat → List Char → Option (List Char)
  | half, '\\' :: 'u' :: a :: b :: c :: d :: rest =>
    match half, unit? a b c d with
    | _, none => none
    | none, some n =>
      if isFirstHalf n then decodeAfter? (some n) rest
      else if isSecondHalf n then none
      else (decodeAfter? none rest).map (Char.ofNat n :: ·)
    | some first, some n =>
      if isSecondHalf n then (decodeAfter? none rest).map (pairChar first n :: ·) else none
  | some _, _ => none
  | none, '\\' :: c :: rest =>
    match escaped? c with
    | none => none
    | some e => (decodeAfter? none rest).map (e :: ·)
  | none, c :: rest => (decodeAfter? none rest).map (c :: ·)
  | none, [] => some []

/-- The text that characters between quotes write. -/
def decodeText? (written : List Char) : Option (List Char) := decodeAfter? none written

/-! ### Writing -/

/-- A character as it is written between quotes. -/
def encodeChar (c : Char) : List Char :=
  if c = '\x22' ∨ c = '\\' then ['\\', c]
  else if c = '\x08' then ['\\', 'b']
  else if c = '\x0c' then ['\\', 'f']
  else if c = '\n' then ['\\', 'n']
  else if c = '\r' then ['\\', 'r']
  else if c = '\t' then ['\\', 't']
  else if c.toNat < 32 then
    ['\\', 'u', '0', '0', Nat.digitChar (c.toNat / 16), Nat.digitChar (c.toNat % 16)]
  else [c]

/-- The characters between the quotes of a written text. -/
def encodeText (chars : List Char) : List Char := chars.flatMap encodeChar

/-- A text as JSON. -/
def jsonText (s : String) : String :=
  String.ofList ('\x22' :: encodeText s.toList ++ ['\x22'])

/-! ### Round trip -/

private theorem unit?_digitChar {n : Nat} (h : n < 32) :
    unit? '0' '0' (Nat.digitChar (n / 16)) (Nat.digitChar (n % 16)) = some n := by
  revert n; decide

private theorem decodeAfter?_escape {e c : Char} (h : escaped? e = some c) (rest : List Char) :
    decodeAfter? none ('\\' :: e :: rest) = (decodeAfter? none rest).map (c :: ·) := by
  have hu : e ≠ 'u' := by
    rintro rfl
    have hnone : escaped? 'u' = none := by decide
    rw [hnone] at h
    cases h
  rw [decodeAfter?.eq_def]
  simp [hu, h]

private theorem decodeAfter?_cons {c : Char} (h : c ≠ '\\') (rest : List Char) :
    decodeAfter? none (c :: rest) = (decodeAfter? none rest).map (c :: ·) := by
  rw [decodeAfter?.eq_def]
  simp [h]

/-- A written character reads back, whatever follows. -/
private theorem decodeAfter?_encodeChar (c : Char) (rest : List Char) :
    decodeAfter? none (encodeChar c ++ rest) = (decodeAfter? none rest).map (c :: ·) := by
  unfold encodeChar
  split
  · rename_i h
    rcases h with rfl | rfl <;> exact decodeAfter?_escape (by decide) rest
  split
  · rename_i h; rw [h]; exact decodeAfter?_escape (by decide) rest
  split
  · rename_i h; rw [h]; exact decodeAfter?_escape (by decide) rest
  split
  · rename_i h; rw [h]; exact decodeAfter?_escape (by decide) rest
  split
  · rename_i h; rw [h]; exact decodeAfter?_escape (by decide) rest
  split
  · rename_i h; rw [h]; exact decodeAfter?_escape (by decide) rest
  split
  · rename_i hsmall
    have hchar : Char.ofNat c.toNat = c := Char.ofNat_toNat c
    have hfirst : isFirstHalf c.toNat = false := by simp [isFirstHalf]; omega
    have hsecond : isSecondHalf c.toNat = false := by simp [isSecondHalf]; omega
    simp [decodeAfter?, unit?_digitChar hsmall, hfirst, hsecond]
  · rename_i h _ _ _ _ _ _
    exact decodeAfter?_cons (fun heq => h (.inr heq)) rest

/-- A text that was written reads back. -/
theorem decodeText?_encodeText (chars : List Char) :
    decodeText? (encodeText chars) = some chars := by
  unfold decodeText? encodeText
  induction chars with
  | nil => rfl
  | cons c cs ih => rw [List.flatMap_cons, decodeAfter?_encodeChar, ih, Option.map_some]

end TypedFormula
