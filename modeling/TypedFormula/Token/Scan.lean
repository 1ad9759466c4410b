import TypedFormula.CompileError
import TypedFormula.Decimal.Reader
import TypedFormula.Text.Blank

/-!
# From characters to tokens

Blanks separate tokens and are skipped; a token is the longest word that its first character
starts. Every scanner knows the byte offset at which it stands and gives the offset behind its
word with the characters that are left.

Main statement: `ok_map_iff` — a reading that is mapped stops where it stopped.
-/

namespace TypedFormula

/-! ### Pieces of words -/

/-- What a scanner read, and where it stopped. -/
structure Scanned (α : Type) where
  /-- What was read. -/
  value : α
  /-- The byte offset behind it. -/
  next : Nat
  /-- The characters behind it. -/
  rest : List Char

/-- The same stop with another reading. -/
def Scanned.map {α β : Type} (f : α → β) (s : Scanned α) : Scanned β := ⟨f s.value, s.next, s.rest⟩

/-- The characters behind blanks, and their byte offset. -/
def skipBlanks (offset : Nat) : List Char → Nat × List Char
  | [] => (offset, [])
  | c :: rest =>
    if Text.isBlank c then skipBlanks (offset + c.utf8Size) rest else (offset, c :: rest)

/-- The character that a backslash and a letter stand for in a text. -/
def unescape? (c : Char) : Option Char :=
  if c = '\x22' then some '\x22'
  else if c = '\\' then some '\\'
  else if c = 'n' then some '\n'
  else if c = 't' then some '\t'
  else none

/-- Reads the characters of a text up to the closing quote. -/
def scanStringBody (start : Nat) : Nat → List Char → Except CompileError (Scanned (List Char))
  | _, [] => .error ⟨.unterminatedString, start⟩
  | offset, c :: rest =>
    if c = '\x22' then .ok ⟨[], offset + 1, rest⟩
    else if c = '\\' then
      match rest with
      | [] => .error ⟨.unterminatedString, start⟩
      | d :: rest' =>
        match unescape? d with
        | none => .error ⟨.invalidEscape d, offset⟩
        | some e => (scanStringBody start (offset + 1 + d.utf8Size) rest').map (·.map (e :: ·))
    else (scanStringBody start (offset + c.utf8Size) rest).map (·.map (c :: ·))

/-- Reads the default of a reference up to the closing brace; a backslash stands before a
character that means itself. -/
def scanDefault (start : Nat) : Nat → List Char → Except CompileError (Scanned (List Char))
  | _, [] => .error ⟨.unterminatedReference, start⟩
  | offset, c :: rest =>
    if c = '\x7d' then .ok ⟨[], offset + 1, rest⟩
    else if c = '\\' then
      match rest with
      | [] => .error ⟨.unterminatedReference, start⟩
      | d :: rest' => (scanDefault start (offset + 1 + d.utf8Size) rest').map (·.map (d :: ·))
    else (scanDefault start (offset + c.utf8Size) rest).map (·.map (c :: ·))

/-- Reads the name of a reference, and its default behind a colon, up to the closing brace. -/
def scanReference (start : Nat) :
    Nat → List Char → Except CompileError (Scanned (List Char × Option (List Char)))
  | _, [] => .error ⟨.unterminatedReference, start⟩
  | offset, c :: rest =>
    if c = '\x7d' then .ok ⟨([], none), offset + 1, rest⟩
    else if c = ':' then (scanDefault start (offset + 1) rest).map (·.map fun d => ([], some d))
    else if c = '\\' then
      match rest with
      | [] => .error ⟨.unterminatedReference, start⟩
      | d :: rest' =>
        (scanReference start (offset + 1 + d.utf8Size) rest').map
          (·.map fun r => (d :: r.1, r.2))
    else (scanReference start (offset + c.utf8Size) rest).map (·.map fun r => (c :: r.1, r.2))

/-- Whether a character may stand in a name behind a dollar sign. -/
def isNameChar (c : Char) : Bool := c.isAlphanum || c == '_'

/-- Whether a character may stand in the name of a function behind its first character. -/
def isIdentifierChar (c : Char) : Bool := isNameChar c || c == '.'

/-- Whether a digit comes first. -/
def startsWithDigit : List Char → Bool
  | [] => false
  | c :: _ => c.isDigit

/-- The decimal places of a number, with the point, and what is left. -/
def splitPlaces : List Char → List Char × List Char
  | [] => ([], [])
  | c :: rest =>
    if c = '.' then (c :: rest.takeWhile Char.isDigit, rest.dropWhile Char.isDigit)
    else ([], c :: rest)

/-- The sign of an exponent, if it has one, and what is left. -/
def splitExponentSign : List Char → List Char × List Char
  | [] => ([], [])
  | c :: rest => if c = '+' ∨ c = '-' then ([c], rest) else ([], c :: rest)

/-- The exponent of a number and what is left; the flag tells that digits are not missing. -/
def splitExponent : List Char → List Char × List Char × Bool
  | [] => ([], [], true)
  | c :: rest =>
    if c = 'e' ∨ c = 'E' then
      let digits := (splitExponentSign rest).2
      (c :: (splitExponentSign rest).1 ++ digits.takeWhile Char.isDigit,
        digits.dropWhile Char.isDigit, startsWithDigit digits)
    else ([], c :: rest, true)

/-! ### Words -/

/-- Reads a text behind its opening quote. -/
def scanString (start : Nat) (rest : List Char) : Except CompileError (Scanned Token) :=
  (scanStringBody start (start + 1) rest).map (·.map fun s => .string (String.ofList s))

/-- Reads a reference behind its dollar sign: a plain name, or a name between braces. -/
def scanVariable (start : Nat) (rest : List Char) : Except CompileError (Scanned Token) :=
  if rest.head? = some '\x7b' then
    match scanReference start (start + 2) rest.tail with
    | .error e => .error e
    | .ok r =>
      if r.value.1.isEmpty then .error ⟨.emptyVariableName, start⟩
      else .ok (r.map fun v => .reference (String.ofList v.1) (v.2.map String.ofList))
  else
    let name := rest.takeWhile isNameChar
    if name.isEmpty then .error ⟨.missingVariableName, start⟩
    else
      .ok ⟨.reference (String.ofList name) none, start + 1 + name.length, rest.dropWhile isNameChar⟩

/-- Reads a number. -/
def scanNumber (start : Nat) (chars : List Char) : Except CompileError (Scanned Token) :=
  let whole := chars.takeWhile Char.isDigit
  let (places, rest) := splitPlaces (chars.dropWhile Char.isDigit)
  let (exponent, rest, complete) := splitExponent rest
  let text := whole ++ places ++ exponent
  match (if complete then Decimal.readFinite? text else none) with
  | some x => .ok ⟨.number x, start + text.length, rest⟩
  | none => .error ⟨.invalidNumber (String.ofList text), start⟩

/-- The token of a name: a truth value, unless arguments follow. -/
def identifierToken (name rest : List Char) : Token :=
  match if rest.head? = some '(' then none else stringBoolean? (String.ofList name) with
  | some b => .boolean b
  | none => .identifier (String.ofList name)

/-- Reads a name. -/
def scanIdentifier (start : Nat) (chars : List Char) : Scanned Token :=
  let name := chars.takeWhile isIdentifierChar
  let rest := chars.dropWhile isIdentifierChar
  ⟨identifierToken name rest, start + name.length, rest⟩

/-- The mark that a character is by itself. -/
def singleMark? (c : Char) : Option Mark :=
  if c = '+' then some .plus
  else if c = '-' then some .minus
  else if c = '*' then some .star
  else if c = '/' then some .slash
  else if c = '^' then some .caret
  else if c = '&' then some .ampersand
  else if c = '=' then some .equal
  else if c = ',' then some .comma
  else if c = '(' then some .leftParen
  else if c = ')' then some .rightParen
  else none

/-- Reads a mark that starts with an angle bracket. -/
def scanAngle (start : Nat) (c : Char) (rest : List Char) : Scanned Token :=
  if c = '<' then
    if rest.head? = some '=' then ⟨.mark .lessEqual, start + 2, rest.tail⟩
    else if rest.head? = some '>' then ⟨.mark .notEqual, start + 2, rest.tail⟩
    else ⟨.mark .less, start + 1, rest⟩
  else if rest.head? = some '=' then ⟨.mark .greaterEqual, start + 2, rest.tail⟩
  else ⟨.mark .greater, start + 1, rest⟩

/-- Reads the token that a character starts. -/
def scan (start : Nat) (c : Char) (rest : List Char) : Except CompileError (Scanned Token) :=
  match singleMark? c with
  | some m => .ok ⟨.mark m, start + 1, rest⟩
  | none =>
    if c = '<' ∨ c = '>' then .ok (scanAngle start c rest)
    else if c = '\x22' then scanString start rest
    else if c = '$' then scanVariable start rest
    else if c.isDigit || (c == '.' && startsWithDigit rest) then scanNumber start (c :: rest)
    else if c.isAlpha || c == '_' then .ok (scanIdentifier start (c :: rest))
    else .error ⟨.unexpectedCharacter c, start⟩

/-! ### Scanners go forward -/

/-- Blanks are taken from the front. -/
theorem length_skipBlanks (offset : Nat) (chars : List Char) :
    (skipBlanks offset chars).2.length ≤ chars.length := by
  induction chars generalizing offset with
  | nil => simp [skipBlanks]
  | cons c rest ih =>
    rw [skipBlanks]
    split
    · exact Nat.le_succ_of_le (ih _)
    · exact Nat.le_refl _

/-- A reading that is mapped stops where it stopped. -/
theorem ok_map_iff {α β : Type} {f : α → β} {r : Except CompileError (Scanned α)}
    {s : Scanned β} :
    r.map (·.map f) = .ok s ↔ ∃ t, r = .ok t ∧ s = t.map f := by
  cases r <;> simp [Except.map, eq_comm]

end TypedFormula
