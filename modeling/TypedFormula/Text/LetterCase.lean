import TypedFormula.Text.CaseTable

/-!
# Upper and lower case

`upper` and `lower` map every character of a text to its upper-case or lower-case form, which may
have several characters (`ß` becomes `SS`). Two rules look beyond the single character table: a
character without another case stays, and a capital sigma at the end of a word becomes `ς`, which
is decided by the nearest characters on both sides that are not ignorable.
-/

namespace TypedFormula.Text

/-! ### Single characters -/

/-- Whether a run holds a code point. -/
def CaseRun.holds (run : CaseRun) (n : Nat) : Bool :=
  run.first ≤ n && n ≤ run.last && (n - run.first) % run.step == 0

/-- The other case of a character by the given tables, or the character itself. -/
def changeCase (runs : List CaseRun) (expansions : List (Nat × List Nat)) (c : Char) :
    List Char :=
  match runs.find? fun run => run.holds c.toNat with
  | some run => [Char.ofNat (c.toNat + run.shift).toNat]
  | none =>
    match expansions.find? fun expansion => expansion.1 == c.toNat with
    | some expansion => expansion.2.map Char.ofNat
    | none => [c]

/-- The upper-case form of a character. -/
def upperChar (c : Char) : List Char := changeCase upperRuns upperExpansions c

/-- The lower-case form of a character that stands alone. -/
def lowerChar (c : Char) : List Char := changeCase lowerRuns lowerExpansions c

/-- Whether the first character that is not ignorable is a letter with case. -/
def startsCased (chars : List Char) : Bool :=
  match chars.dropWhile fun c => inRanges c.toNat ignorableRanges with
  | [] => false
  | c :: _ => inRanges c.toNat casedRanges

/-! ### Texts -/

/-- The upper-case form of a text. -/
def upperChars (chars : List Char) : List Char := chars.flatMap upperChar

/-- The lower-case form of a text that stands after the reversed text `before`. -/
def lowerCharsAfter (before : List Char) : List Char → List Char
  | [] => []
  | c :: rest =>
    let form :=
      if c = 'Σ' then (if startsCased before && !startsCased rest then ['ς'] else ['σ'])
      else lowerChar c
    form ++ lowerCharsAfter (c :: before) rest

/-- The upper-case form of a text. -/
def upper (s : String) : String := String.ofList (upperChars s.toList)

/-- The lower-case form of a text. -/
def lower (s : String) : String := String.ofList (lowerCharsAfter [] s.toList)

end TypedFormula.Text
