import TypedFormula.Number

/-!
# Reading numbers

Two grammars of number texts:

* `readInteger?` — an optional sign and digits, refused outside the range of 64 bits;
* `readNumber?` — an optional sign before `inf`, `infinity` or `nan` in any letter case, or before
  digits with an optional point and an optional exponent, at least one digit standing before the
  exponent. The number is the one nearest to the decimal written, but an exponent counts only as
  far as `exponentValue` says.
-/

namespace TypedFormula.Decimal

/-! ### Digits -/

/-- The value of a decimal digit. -/
def digitValue (c : Char) : Nat := c.toNat - '0'.toNat

/-- The number that digits after `acc` write. -/
def digitsValue (acc : Nat) (digits : List Char) : Nat :=
  digits.foldl (fun n c => 10 * n + digitValue c) acc

/-- Splits off a leading sign; the flag tells a minus. -/
def splitSign : List Char → Bool × List Char
  | '-' :: rest => (true, rest)
  | '+' :: rest => (false, rest)
  | chars => (false, chars)

/-! ### Integers -/

/-- The integer that an optional sign and at least one digit write, of any size. -/
def readInt? (chars : List Char) : Option Int :=
  let (negative, digits) := splitSign chars
  if digits.isEmpty || !digits.all Char.isDigit then none
  else
    let n := digitsValue 0 digits
    some (if negative then -(n : Int) else n)

/-- The integer as a whole number of 64 bits, if it is in range. -/
def toInt64? (n : Int) : Option Int64 :=
  if -9223372036854775808 ≤ n ∧ n ≤ 9223372036854775807 then some (Int64.ofInt n) else none

/-- The whole number of 64 bits that a text writes. -/
def readInteger? (chars : List Char) : Option Int64 := (readInt? chars).bind toInt64?

/-! ### Numbers with fraction and exponent -/

/-- The number nearest to `digits · 10 ^ exponent`, negative if so asked. -/
def nearest (negative : Bool) (digits : Nat) (exponent : Int) : Float :=
  let x := Float.ofModel (.ofScientific digits exponent)
  if negative then -x else x

/-- The number that the digits of an exponent write. Once it has reached 65536 the digits that
follow do not count, which bounds it. -/
def exponentValue (digits : List Char) : Nat :=
  digits.foldl (fun n c => if n < 65536 then 10 * n + digitValue c else n) 0

/-- The exponent part of a number text: nothing, or a mark, an optional sign and digits. -/
def readExponent? : List Char → Option Int
  | [] => some 0
  | mark :: rest =>
    let (negative, digits) := splitSign rest
    if (mark = 'e' ∨ mark = 'E') ∧ digits ≠ [] ∧ digits.all Char.isDigit then
      let n := exponentValue digits
      some (if negative then -(n : Int) else n)
    else none

/-- The digits of a number text and the exponent they carry: digits, an optional point with more
digits, an optional exponent. -/
def readDecimal? (chars : List Char) : Option (Nat × Int) :=
  let whole := chars.takeWhile Char.isDigit
  let (places, rest) := match chars.dropWhile Char.isDigit with
    | '.' :: rest => (rest.takeWhile Char.isDigit, rest.dropWhile Char.isDigit)
    | rest => ([], rest)
  if whole.isEmpty && places.isEmpty then none
  else (readExponent? rest).map fun e =>
    (digitsValue (digitsValue 0 whole) places, e - places.length)

/-- A number text without its sign, if it is one of the names of infinity and NaN. -/
def readName? (negative : Bool) (chars : List Char) : Option Number :=
  let name := String.ofList (chars.map Char.toLower)
  if name = "inf" ∨ name = "infinity" then some (.plain (if negative then -(1 / 0) else 1 / 0))
  else if name = "nan" then some (if negative then .negativeNaN else .plain (0 / 0))
  else none

/-- The number that a text writes. -/
def readNumber? (chars : List Char) : Option Number :=
  let (negative, body) := splitSign chars
  match readName? negative body with
  | some x => some x
  | none => (readDecimal? body).map fun (digits, e) => .plain (nearest negative digits e)

/-- The finite number that a text writes. -/
def readFinite? (chars : List Char) : Option Float :=
  ((readNumber? chars).map Number.value).filter Float.isFinite

end TypedFormula.Decimal
