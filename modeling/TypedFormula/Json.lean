/-!
# JSON trees

A JSON text as a tree. Numbers and texts are kept as they are written, and only what is used of
them is read: a number that is too large, or an escape that names no character, does no harm in a
part that nobody looks at.

Reading is a parameter (`JsonReader`), since nothing that is done with a tree depends on how it was
found.
-/

namespace TypedFormula

/-- A number as it is written. -/
structure NumberLiteral where
  /-- Whether a minus stands in front. -/
  negative : Bool
  /-- The digits before the point. -/
  whole : List Char
  /-- The digits behind the point. -/
  fraction : List Char
  /-- The exponent. -/
  exponent : Int
deriving DecidableEq

/-- A JSON tree. -/
inductive Json where
  /-- The word `null`. -/
  | null
  /-- A truth value. -/
  | boolean (b : Bool)
  /-- A number. -/
  | number (literal : NumberLiteral)
  /-- A text, by the characters between its quotes. -/
  | string (written : List Char)
  /-- An array. -/
  | array (items : List Json)
  /-- An object: its members in order, names by the characters between their quotes. -/
  | object (members : List (List Char × Json))

/-- How JSON is read: a text as a tree, and the scalars of the tree as they are used. -/
class JsonReader where
  /-- The tree of a text that holds nothing else. -/
  tree? : List Char → Option Json
  /-- The text that the characters between quotes write. -/
  text? : List Char → Option (List Char)
  /-- The value of a number, unless it is too large. -/
  number? : NumberLiteral → Option Float

end TypedFormula
