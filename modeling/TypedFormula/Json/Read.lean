import TypedFormula.Decimal.Reader
import TypedFormula.Json

/-!
# Reading JSON

The reader takes JSON as its standard gives it and nothing else: no comments, no trailing commas,
no leading zeros or plus signs, no bare control characters in texts, and nothing but blanks behind
the value. It does not say where a text is wrong.

Every step of the reader that does not take a character is followed by one that does, so that
twice as many steps as characters are enough.
-/

namespace TypedFormula

/-! ### Blanks and literals -/

/-- Whether a character may stand between the words of JSON. -/
def isJsonBlank (c : Char) : Bool := c = ' ' || c = '\t' || c = '\n' || c = '\r'

/-- The text from its first character on that is no blank. -/
def skipJsonBlanks (text : List Char) : List Char := text.dropWhile isJsonBlank

/-- Whether a character is a hexadecimal digit. -/
def isHexDigit (c : Char) : Bool :=
  c.isDigit || ('a' ≤ c && c ≤ 'f') || ('A' ≤ c && c ≤ 'F')

/-- Splits off the rest of a text behind its first quote: the characters up to the second quote,
and what follows that. -/
def readWritten? : List Char → Option (List Char × List Char)
  | [] => none
  | '\x22' :: rest => some ([], rest)
  | '\\' :: 'u' :: a :: b :: c :: d :: rest =>
    if [a, b, c, d].all isHexDigit then
      (readWritten? rest).map fun r => ('\\' :: 'u' :: a :: b :: c :: d :: r.1, r.2)
    else none
  | '\\' :: c :: rest =>
    if ['\x22', '\\', '/', 'b', 'f', 'n', 'r', 't'].contains c then
      (readWritten? rest).map fun r => ('\\' :: c :: r.1, r.2)
    else none
  | c :: rest =>
    if c.toNat < 32 || c = '\\' then none
    else (readWritten? rest).map fun r => (c :: r.1, r.2)

/-! ### Numbers -/

/-- Splits off the digits in front. -/
def splitDigits (text : List Char) : List Char × List Char :=
  (text.takeWhile Char.isDigit, text.dropWhile Char.isDigit)

/-- Splits off the digits before the point: a zero alone, or digits that start with another. -/
def readWhole? (text : List Char) : Option (List Char × List Char) :=
  match splitDigits text with
  | ([], _) => none
  | ('0' :: _ :: _, _) => none
  | split => some split

/-- Splits off the fraction, if there is a point: at least one digit behind it. -/
def readFraction? : List Char → Option (List Char × List Char)
  | '.' :: text =>
    match splitDigits text with
    | ([], _) => none
    | split => some split
  | text => some ([], text)

/-- Splits off the exponent, if there is a mark: an optional sign and at least one digit. -/
def readPower? : List Char → Option (Int × List Char)
  | mark :: text =>
    if mark = 'e' ∨ mark = 'E' then
      let (negative, text) := Decimal.splitSign text
      match splitDigits text with
      | ([], _) => none
      | (digits, rest) =>
        let n : Int := Decimal.digitsValue 0 digits
        some (if negative then -n else n, rest)
    else some (0, mark :: text)
  | [] => some (0, [])

/-- Splits off a number. -/
def readLiteral? (text : List Char) : Option (NumberLiteral × List Char) := do
  let (negative, text) := match text with
    | '-' :: text => (true, text)
    | text => (false, text)
  let (whole, text) ← readWhole? text
  let (fraction, text) ← readFraction? text
  let (exponent, text) ← readPower? text
  return (⟨negative, whole, fraction, exponent⟩, text)

/-! ### Trees -/

/-- Splits off the name of a member and the colon behind it. -/
def readMemberName? (text : List Char) : Option (List Char × List Char) :=
  match skipJsonBlanks text with
  | '\x22' :: rest =>
    match readWritten? rest with
    | none => none
    | some (name, rest) =>
      match skipJsonBlanks rest with
      | ':' :: rest => some (name, rest)
      | _ => none
  | _ => none

mutual

/-- Splits off a value, in so many steps. -/
def readTree? : Nat → List Char → Option (Json × List Char)
  | 0, _ => none
  | steps + 1, text =>
    match skipJsonBlanks text with
    | 'n' :: 'u' :: 'l' :: 'l' :: rest => some (.null, rest)
    | 't' :: 'r' :: 'u' :: 'e' :: rest => some (.boolean true, rest)
    | 'f' :: 'a' :: 'l' :: 's' :: 'e' :: rest => some (.boolean false, rest)
    | '\x22' :: rest => (readWritten? rest).map fun r => (.string r.1, r.2)
    | '[' :: rest =>
      match skipJsonBlanks rest with
      | ']' :: rest => some (.array [], rest)
      | _ => (readItems? steps rest).map fun r => (.array r.1, r.2)
    | '\x7b' :: rest =>
      match skipJsonBlanks rest with
      | '\x7d' :: rest => some (.object [], rest)
      | _ => (readMembers? steps rest).map fun r => (.object r.1, r.2)
    | rest => (readLiteral? rest).map fun r => (.number r.1, r.2)

/-- Splits off the items of an array and its closing bracket, in so many steps. -/
def readItems? : Nat → List Char → Option (List Json × List Char)
  | 0, _ => none
  | steps + 1, text =>
    match readTree? steps text with
    | none => none
    | some (item, rest) =>
      match skipJsonBlanks rest with
      | ']' :: rest => some ([item], rest)
      | ',' :: rest => (readItems? steps rest).map fun r => (item :: r.1, r.2)
      | _ => none

/-- Splits off the members of an object and its closing brace, in so many steps. -/
def readMembers? : Nat → List Char → Option (List (List Char × Json) × List Char)
  | 0, _ => none
  | steps + 1, text =>
    match readMemberName? text with
    | none => none
    | some (name, rest) =>
      match readTree? steps rest with
      | none => none
      | some (value, rest) =>
        match skipJsonBlanks rest with
        | '\x7d' :: rest => some ([(name, value)], rest)
        | ',' :: rest => (readMembers? steps rest).map fun r => ((name, value) :: r.1, r.2)
        | _ => none

end

/-- The value of a text that holds nothing else. -/
def readJson? (text : List Char) : Option Json :=
  match readTree? (2 * text.length + 1) text with
  | none => none
  | some (value, rest) => if (skipJsonBlanks rest).isEmpty then some value else none

end TypedFormula
