/-!
# Occurrences of one text in another

`pieces old text` splits a text at the occurrences of `old`, found from left to right without
overlap. Replacing all of them is joining the pieces again with another text in between. Where only
one of them is replaced, the text is cut at the offsets of its ends in bytes.
-/

namespace TypedFormula.Text

/-- A character put in front of the first piece. -/
def consHead (c : Char) : List (List Char) → List (List Char)
  | [] => [[c]]
  | piece :: more => (c :: piece) :: more

/-- The pieces of a text between the occurrences of `o :: old`, from left to right. -/
def pieces (o : Char) (old : List Char) (text : List Char) : List (List Char) :=
  match text with
  | [] => [[]]
  | c :: rest =>
    if (o :: old).isPrefixOf (c :: rest) then [] :: pieces o old (rest.drop old.length)
    else consHead c (pieces o old rest)
termination_by text.length
decreasing_by
  · simp only [List.length_drop, List.length_cons]; omega
  · simp

/-- The number of bytes of a text. -/
def byteLength : List Char → Nat
  | [] => 0
  | c :: rest => c.utf8Size + byteLength rest

/-- The offsets in bytes at which `o :: old` occurs in a text that starts at an offset, from left to
right without overlap. -/
def occurrences (o : Char) (old : List Char) (offset : Nat) (text : List Char) : List Nat :=
  match text with
  | [] => []
  | c :: rest =>
    if (o :: old).isPrefixOf (c :: rest) then
      offset :: occurrences o old (offset + byteLength (o :: old)) (rest.drop old.length)
    else occurrences o old (offset + c.utf8Size) rest
termination_by text.length
decreasing_by
  · simp only [List.length_drop, List.length_cons]; omega
  · simp

/-- The text before an offset in bytes, and the text behind it. A character around the offset is
behind it. -/
def splitAtByte (offset : Nat) : List Char → List Char × List Char
  | [] => ([], [])
  | c :: rest =>
    if offset < c.utf8Size then ([], c :: rest)
    else ((splitAtByte (offset - c.utf8Size) rest).map (c :: ·) id)

/-- The text with every occurrence of `old` replaced; an empty `old` does not occur. -/
def replaceAll (old new text : List Char) : List Char :=
  match old with
  | [] => text
  | o :: old => List.intercalate new (pieces o old text)

/-- The text with the occurrence of `old` numbered `n` from zero replaced, if there is one. -/
def replaceNth (old new : List Char) (n : Nat) (text : List Char) : List Char :=
  match old with
  | [] => text
  | o :: tail =>
    match (occurrences o tail 0 text)[n]? with
    | none => text
    | some offset =>
      (splitAtByte offset text).1 ++ new ++ (splitAtByte (offset + byteLength old) text).2

/-- There is always a piece. -/
theorem pieces_ne_nil (o : Char) (old text : List Char) : pieces o old text ≠ [] := by
  cases text with
  | nil => simp [pieces]
  | cons c rest =>
    rw [pieces]
    split
    · simp
    · cases pieces o old rest <;> simp [consHead]

theorem intercalate_consHead {sep : List Char} (c : Char) {ps : List (List Char)} (h : ps ≠ []) :
    List.intercalate sep (consHead c ps) = c :: List.intercalate sep ps := by
  cases ps with
  | nil => exact absurd rfl h
  | cons piece more => cases more <;> simp [consHead, List.intercalate, List.intersperse]

end TypedFormula.Text
