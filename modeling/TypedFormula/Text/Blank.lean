import TypedFormula.Text.Ranges

/-!
# Blanks

A blank is a character with the property `White_Space`: 25 characters, of which the ASCII ones
are the blank itself and the five controls from tab to carriage return.
-/

namespace TypedFormula.Text

/-- The blanks, in ascending order. -/
def blankRanges : List (Nat × Nat) :=
  [(0x9, 0xD), (0x20, 0x20), (0x85, 0x85), (0xA0, 0xA0), (0x1680, 0x1680), (0x2000, 0x200A),
   (0x2028, 0x2029), (0x202F, 0x202F), (0x205F, 0x205F), (0x3000, 0x3000)]

/-- Whether a character is a blank. -/
def isBlank (c : Char) : Bool := inRanges c.toNat blankRanges

/-- The text without the blanks at its end. -/
def trimEnd (chars : List Char) : List Char := (chars.reverse.dropWhile isBlank).reverse

/-- The text without the blanks at either end. -/
def trim (chars : List Char) : List Char := trimEnd (chars.dropWhile isBlank)

end TypedFormula.Text
