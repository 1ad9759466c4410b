import TypedFormula.Proofs.Assignments
import TypedFormula.Proofs.WrittenJson

/-!
# Integers as variables

A variable of whole numbers can be given in a file or as an argument. The argument is read as an
integer, and the variable has exactly this value. The number in a file is read before anything is
known of the kind, and then it is a binary64 number, which is converted to a whole number at last.
So a file rounds its integers (`Rounds`): the two ways agree as long as an integer has room in 53
binary digits, and the file refuses the integers that are rounded to `2 ^ 63`. Nothing changes for
lists of integers but that this holds of every element.

What is said of files holds of every reader of JSON that finds what was written down
(`LawfulJsonReader`).

Main statements:

* `givenDefinition_integer`, `givenDefinition_integers` — an argument gives the integers exactly;
* `fileDefinitions_integer_iff`, `fileDefinitions_integers_iff` — a file gives them rounded;
* `file_agrees_iff_representable` — when the two ways agree.
-/

namespace TypedFormula

open Binary64

/-! ### Arguments -/

namespace Text

variable {o : Char} {word rest : List Char}

/-- A text without the mark is a piece. -/
private theorem pieces_of_notMem (h : o ∉ word) : pieces o [] word = [word] := by
  induction word with
  | nil => rw [pieces]
  | cons c word ih =>
    obtain ⟨hc, hword⟩ := not_or.mp (mt List.mem_cons.mpr h)
    have hmark : ¬ [o].isPrefixOf (c :: word) = true := by simp [List.isPrefixOf, hc]
    rw [pieces, if_neg hmark, ih hword]
    rfl

/-- A text in front of the first mark is the first piece. -/
private theorem pieces_append_cons (h : o ∉ word) :
    pieces o [] (word ++ o :: rest) = word :: pieces o [] rest := by
  induction word with
  | nil =>
    have hmark : [o].isPrefixOf (o :: rest) = true := by simp [List.isPrefixOf]
    rw [List.nil_append, pieces, if_pos hmark]
    rfl
  | cons c word ih =>
    obtain ⟨hc, hword⟩ := not_or.mp (mt List.mem_cons.mpr h)
    have hmark : ¬ [o].isPrefixOf (c :: (word ++ o :: rest)) = true := by
      simp [List.isPrefixOf, hc]
    rw [List.cons_append, pieces, if_neg hmark, ih hword]
    rfl

/-- Texts without the mark are the pieces of what is joined by the mark. -/
private theorem pieces_intercalate {words : List (List Char)} (hne : words ≠ [])
    (h : ∀ w ∈ words, o ∉ w) : pieces o [] (List.intercalate [o] words) = words := by
  induction words with
  | nil => exact absurd rfl hne
  | cons w words ih =>
    obtain ⟨hw, hwords⟩ := List.forall_mem_cons.mp h
    cases words with
    | nil =>
      have hsingle : List.intercalate [o] [w] = w := by simp [List.intercalate]
      rw [hsingle, pieces_of_notMem hw]
    | cons w' words =>
      have hjoin : List.intercalate [o] (w :: w' :: words) =
          w ++ o :: List.intercalate [o] (w' :: words) := by simp [List.intercalate]
      rw [hjoin, pieces_append_cons hw, ih (List.cons_ne_nil w' words) hwords]

end Text

section

variable {n m : Int64} {ns : List Int64}

/-- There is no comma in the text of an integer. -/
private theorem comma_notMem_toString (z : ℤ) : ',' ∉ (toString z).toList := by
  intro hmem
  have hdigit := (digits_toString z.natAbs).all ','
  rw [toList_toString] at hmem
  split at hmem
  · rcases List.mem_cons.mp hmem with heq | hmem
    · cases heq
    · cases hdigit hmem
  · cases hdigit hmem

/-- The argument that gives a variable a whole number. -/
def integerGiven (n : Int64) : String := "x:integer=" ++ toString n.toInt

/-- The argument that gives a variable whole numbers. -/
def integersGiven (ns : List Int64) : String :=
  "x:integer_list=" ++ String.intercalate "," (ns.map fun n => toString n.toInt)

/-- Whole numbers as they stand between commas. -/
private def integerTexts (ns : List Int64) : List (List Char) :=
  ns.map fun n => (toString n.toInt).toList

/-- An argument gives the whole number that it writes. -/
theorem givenDefinition_integer (n : Int64) :
    givenDefinition (integerGiven n) = .ok ⟨"x", .integer, some (.integer n)⟩ := by
  have hsplit : splitAtFirst? '=' (integerGiven n).toList =
      some ("x:integer".toList, (toString n.toInt).toList) := by
    rw [integerGiven, String.toList_append]
    rfl
  have hdeclared : declared "x:integer".toList = .ok ("x", .integer) := rfl
  have hgiven : givenValue .integer (toString n.toInt).toList = .ok (.integer n) := by
    rw [givenValue, String.ofList_toList, fitValue, Value.convert, toInteger_toString]
    rfl
  rw [givenDefinition, hsplit]
  simp only [hdeclared, hgiven]

/-- Values are fitted to a list of whole numbers one by one. -/
private theorem fitList_integer_iff {vs : List Value} {w : Value} :
    fitList .integer vs = .ok w ↔ ∃ ms, w = .list (.integers ms) ∧
      List.Forall₂ (fun v m => v.toInteger = .ok m) (vs.flatMap Value.scalars) ms := by
  have hall : ∀ ms, flattenWith Value.toInteger vs = .ok ms ↔
      List.Forall₂ (fun v m => v.toInteger = .ok m) (vs.flatMap Value.scalars) ms := by
    intro ms
    rw [flattenWith, flattenFrom_ok_iff, ← List.forall₂_eq_eq_eq, List.forall₂_map_left_iff,
      List.forall₂_map_right_iff]
  rw [fitList, flatten]
  cases hflat : flattenWith Value.toInteger vs with
  | error e =>
    refine iff_of_false (fun h => by cases h) ?_
    rintro ⟨ms, -, hms⟩
    cases ((hall ms).mpr hms).symm.trans hflat
  | ok ms =>
    constructor
    · intro h
      exact ⟨ms, (Except.ok.inj h).symm, (hall ms).mp hflat⟩
    · rintro ⟨ms', rfl, hms'⟩
      obtain rfl := Except.ok.inj (((hall ms').mpr hms').symm.trans hflat)
      rfl

private theorem forall₂_toInteger_toString (ns : List Int64) :
    List.Forall₂ (fun v m => v.toInteger = .ok m)
      (ns.map fun n => Value.string (toString n.toInt)) ns := by
  rw [List.forall₂_map_left_iff, List.forall₂_same]
  exact fun n _ => toInteger_toString n

private theorem exists_intercalate_cons_eq {α : Type} (separator part : List α)
    (parts : List (List α)) :
    ∃ more, List.intercalate separator (part :: parts) = part ++ more := by
  cases parts with
  | nil => exact ⟨[], by simp [List.intercalate]⟩
  | cons part' parts =>
    exact ⟨separator ++ List.intercalate separator (part' :: parts), by simp [List.intercalate]⟩

/-- What is joined by commas is taken apart again. -/
private theorem pieces_integerTexts (ns : List Int64) :
    (if (Text.trim (List.intercalate [','] (integerTexts ns))).isEmpty then []
      else Text.pieces ',' [] (List.intercalate [','] (integerTexts ns))) = integerTexts ns := by
  cases ns with
  | nil => rfl
  | cons n ns =>
    obtain ⟨c, hc⟩ := List.exists_mem_of_ne_nil _ (toString_ne_nil n.toInt)
    have hmem : c ∈ List.intercalate [','] (integerTexts (n :: ns)) := by
      obtain ⟨more, hmore⟩ := exists_intercalate_cons_eq [','] (toString n.toInt).toList
        (integerTexts ns)
      exact hmore ▸ List.mem_append_left more hc
    have htrim := trim_ne_nil hmem (isBlank_of_mem_toString hc)
    have hcommas : ∀ t ∈ integerTexts (n :: ns), ',' ∉ t := by
      intro t ht
      obtain ⟨m, -, rfl⟩ := List.mem_map.mp ht
      exact comma_notMem_toString m.toInt
    rw [if_neg (mt List.isEmpty_iff.mp htrim)]
    exact Text.pieces_intercalate (List.cons_ne_nil _ _) hcommas

/-- What is joined by commas is read as a list of whole numbers. -/
private theorem givenValue_integers (ns : List Int64) :
    givenValue (.list .integer) (List.intercalate [','] (integerTexts ns)) =
      .ok (.list (.integers ns)) := by
  have hvalues : (integerTexts ns).map
      (fun item => Value.string (String.ofList (Text.trim item))) =
        ns.map fun n => Value.string (toString n.toInt) := by
    rw [integerTexts, List.map_map]
    refine List.map_congr_left fun n _ => ?_
    rw [Function.comp_apply, trim_toString, String.ofList_toList]
  have hscalars : (ns.map fun n => Value.string (toString n.toInt)).flatMap Value.scalars =
      ns.map fun n => Value.string (toString n.toInt) := by
    rw [List.flatMap_map, List.map_eq_flatMap]
    rfl
  rw [givenValue]
  simp only [pieces_integerTexts]
  rw [hvalues, fitList_integer_iff, hscalars]
  exact ⟨ns, rfl, forall₂_toInteger_toString ns⟩

/-- An argument gives the whole numbers that it writes. -/
theorem givenDefinition_integers (ns : List Int64) :
    givenDefinition (integersGiven ns) =
      .ok ⟨"x", .list .integer, some (.list (.integers ns))⟩ := by
  have hsplit : splitAtFirst? '=' (integersGiven ns).toList =
      some ("x:integer_list".toList, List.intercalate [','] (integerTexts ns)) := by
    rw [integersGiven, String.toList_append, String.toList_intercalate, List.map_map]
    rfl
  have hdeclared : declared "x:integer_list".toList = .ok ("x", .list .integer) := rfl
  rw [givenDefinition, hsplit]
  simp only [hdeclared, givenValue_integers]

end

/-! ### Files -/

section

variable {v : Value} {json : Json}

/-- The text that declares a variable of the kind of a value, and gives it the value. -/
def declarationText (v : Value) : String :=
  "\x7b\"x\": \x7b\"kind\": \"" ++ v.kind.word ++ "\", \"value\": " ++ v.text ++ "\x7d\x7d"

/-- The members that give a kind and a value. -/
private def entryMembers (kind : Kind) (json : Json) : List (List Char × Json) :=
  [(['k', 'i', 'n', 'd'], .string kind.word.toList), (['v', 'a', 'l', 'u', 'e'], json)]

/-- The tree of a declaration. -/
private def declarationTree (kind : Kind) (json : Json) : Json :=
  .object [(['x'], .object (entryMembers kind json))]

/-- The words of kinds are written without escapes. -/
private theorem encodeText_word (kind : Kind) :
    encodeText kind.word.toList = kind.word.toList := by
  rcases kind with ⟨⟨⟩⟩ | ⟨⟨⟩⟩ <;> decide

/-- The entry of a declaration. -/
private def entryText (v : Value) : List Char :=
  '\x7b' :: (separated [memberText ['k', 'i', 'n', 'd'] (quoted v.kind.word.toList),
    memberText ['v', 'a', 'l', 'u', 'e'] v.text.toList] ++ ['\x7d'])

private theorem writtenAs_entryText (h : json.WrittenAs v.text.toList) :
    (Json.object (entryMembers v.kind json)).WrittenAs (entryText v) := by
  have hkind : (Json.string v.kind.word.toList).WrittenAs (quoted v.kind.word.toList) := by
    have hword := Json.WrittenAs.string v.kind.word.toList
    rwa [encodeText_word] at hword
  have hmembers : ∀ m ∈ [(['k', 'i', 'n', 'd'], Json.string v.kind.word.toList,
      quoted v.kind.word.toList), (['v', 'a', 'l', 'u', 'e'], json, v.text.toList)],
        m.2.1.WrittenAs m.2.2 :=
    List.forall_mem_cons.mpr ⟨hkind, List.forall_mem_singleton.mpr h⟩
  exact Json.WrittenAs.object _ hmembers

/-- The characters of a declaration. -/
private theorem toList_declarationText (v : Value) :
    (declarationText v).toList =
      '\x7b' :: (separated [memberText ['x'] (entryText v)] ++ ['\x7d']) := by
  have hopening : "\x7b\"x\": \x7b\"kind\": \"".toList = ['\x7b', '\x22', 'x', '\x22', ':', ' ',
      '\x7b', '\x22', 'k', 'i', 'n', 'd', '\x22', ':', ' ', '\x22'] := by decide +kernel
  have hmiddle : "\", \"value\": ".toList =
      ['\x22', ',', ' ', '\x22', 'v', 'a', 'l', 'u', 'e', '\x22', ':', ' '] := by decide +kernel
  have hclosing : "\x7d\x7d".toList = ['\x7d', '\x7d'] := rfl
  have hx : encodeText ['x'] = ['x'] := rfl
  have hkind : encodeText ['k', 'i', 'n', 'd'] = ['k', 'i', 'n', 'd'] := rfl
  have hvalue : encodeText ['v', 'a', 'l', 'u', 'e'] = ['v', 'a', 'l', 'u', 'e'] := rfl
  unfold declarationText entryText
  simp only [String.toList_append, hopening, hmiddle, hclosing, memberText, quoted, hx, hkind,
    hvalue, encodeText_word, separated_singleton, separated_cons_cons, List.append_assoc,
    List.cons_append, List.nil_append]

private theorem writtenAs_declarationText (h : json.WrittenAs v.text.toList) :
    (declarationTree v.kind json).WrittenAs (declarationText v).toList := by
  rw [toList_declarationText]
  exact Json.WrittenAs.object [(['x'], _, entryText v)]
    (List.forall_mem_singleton.mpr (writtenAs_entryText h))

private theorem fitValue_integer_iff {v w : Value} :
    fitValue .integer v = .ok w ↔ ∃ m, v.toInteger = .ok m ∧ w = .integer m := by
  rw [fitValue, Value.convert]
  cases v.toInteger with
  | error e =>
    refine iff_of_false (fun h => by cases h) ?_
    rintro ⟨m, hm, -⟩
    cases hm
  | ok m => simp [Except.map, eq_comm]

private theorem text?_of_encodeText_eq [JsonReader] [LawfulJsonReader] {chars : List Char}
    (h : encodeText chars = chars) :
    JsonReader.text? chars = some chars := by
  have hread := LawfulJsonReader.text?_encodeText chars
  rwa [h] at hread

private theorem readKind?_word [JsonReader] [LawfulJsonReader] (kind : Kind) :
    readKind? (.string kind.word.toList) = some kind := by
  rw [readKind?, text?_of_encodeText_eq (encodeText_word kind), Option.bind_some,
    String.ofList_toList, Kind.ofWord?_word]

/-- An entry is read from its tree if its value is read. -/
private theorem ofJson?_entryMembers [JsonReader] [LawfulJsonReader] (kind : Kind) (json : Json) :
    FileEntry.ofJson? (.object (entryMembers kind json)) =
      (readOptionalValue? json).map fun v? => ⟨kind, v?⟩ := by
  have hnames : readMemberNames? (entryMembers kind json) = some (entryMembers kind json) := by
    rw [readMemberNames?, entryMembers, List.mapM_cons, List.mapM_cons, List.mapM_nil,
      text?_of_encodeText_eq rfl, text?_of_encodeText_eq rfl]
    rfl
  have hparts : readParts? (.string kind.word.toList) (some json) =
      (readOptionalValue? json).map fun v? => ⟨kind, v?⟩ := by
    unfold readParts?
    simp only [readKind?_word]
  rw [← hparts, FileEntry.ofJson?, hnames]
  rfl

/-- A file has one entry if its value is read. -/
private theorem readBindings?_declaration [JsonReader] [LawfulJsonReader] {w : Value}
    (hwritten : json.WrittenAs v.text.toList) (hvalue : readOptionalValue? json = some (some w)) :
    readBindings? (declarationText v) = some [("x", ⟨v.kind, some w⟩)] := by
  have htree := LawfulJsonReader.tree?_of_writtenAs (writtenAs_declarationText hwritten)
  have hnames : readMemberNames? [(['x'], .object (entryMembers v.kind json))] =
      some [(['x'], .object (entryMembers v.kind json))] := by
    rw [readMemberNames?, List.mapM_cons, List.mapM_nil, text?_of_encodeText_eq rfl]
    rfl
  have hentry := ofJson?_entryMembers v.kind json
  rw [hvalue, Option.map_some] at hentry
  have hentries : readEntries? (declarationText v) = some [("x", ⟨v.kind, some w⟩)] := by
    rw [readEntries?, htree, declarationTree]
    simp only [hnames, List.mapM_cons, List.mapM_nil, hentry]
    rfl
  rw [readBindings?_eq, hentries]
  exact congrArg some (List.mergeSort_singleton _)

/-- A file gives the value that is read, if it fits. -/
private theorem fileDefinitions_declaration_iff [JsonReader] [LawfulJsonReader] (path : String)
    {w : Value} {ds : List Definition} (hwritten : json.WrittenAs v.text.toList)
    (hvalue : readOptionalValue? json = some (some w)) :
    fileDefinitions (some ⟨path, .ok (declarationText v)⟩) = .ok ds ↔
      ∃ u, fitValue v.kind w = .ok u ∧ ds = [⟨"x", v.kind, some u⟩] := by
  have hbindings := readBindings?_declaration hwritten hvalue
  have hsingle : fileDefinitions (some ⟨path, .ok (declarationText v)⟩) =
      (fileDefinition ("x", ⟨v.kind, some w⟩)).map fun d => [d] := by
    rw [fileDefinitions]
    simp only [hbindings, List.mapM_cons, List.mapM_nil]
    cases fileDefinition ("x", ⟨v.kind, some w⟩) <;> rfl
  rw [hsingle, fileDefinition]
  cases hfit : fitValue v.kind w <;> simp [hfit, Except.map, eq_comm]

end

/-! ### Rounded integers -/

section

variable {n m : Int64} {ns : List Int64} {x : Float}

/-- A whole number is another one rounded to 53 digits. -/
def Rounds (n m : Int64) : Prop := (m.toInt : ℚ) = rounded n.toInt

/-- A whole number that has room in 53 digits is not rounded, and no other one stays. -/
private theorem rounds_self_iff : Rounds n n ↔ Representable n.toInt := by
  constructor
  · intro h
    rw [h]
    exact representable_rounded _
  · exact fun h => (rounded_of_representable h).symm

private theorem toInteger_iff_rounds (hx : toRat? x = some (rounded n.toInt)) :
    (Value.float (.plain x)).toInteger = .ok m ↔ Rounds n m := by
  have hmultiple : IsMultiple 0 (rounded n.toInt) :=
    isMultiple_rounded ⟨n.toInt, by rw [zpow_zero, mul_one]⟩
  obtain ⟨k, hk⟩ := hmultiple
  rw [zpow_zero, mul_one] at hk
  have hnearest : (Value.float (.plain x)).toInteger = .ok m ↔ nearestInteger? x = some m := by
    rw [Value.toInteger, Number.value, floatToInteger]
    cases nearestInteger? x <;> simp [orConversionError]
  rw [hnearest, nearestInteger?_of_toRat? (hk ▸ hx) (nearestEven_intCast.mpr rfl),
    toInt64?_eq_some_iff, Rounds, hk, Int.cast_inj]
  exact ⟨fun h => h.2.2, fun h => ⟨h ▸ m.le_toInt, h ▸ m.toInt_lt, h⟩⟩

private theorem exists_number?_integer [JsonReader] [LawfulJsonReader] (n : Int64) :
    ∃ x, JsonReader.number? (integerLiteral n.toInt) = some x ∧
      toRat? x = some (rounded n.toInt) := by
  have hlow := n.le_toInt
  have hhigh := n.toInt_lt
  exact LawfulJsonReader.exists_number?_integerLiteral (by omega)

/-- A file gives a variable a whole number rounded, or nothing. -/
theorem fileDefinitions_integer_iff [JsonReader] [LawfulJsonReader] (path : String) (n : Int64)
    {ds : List Definition} :
    fileDefinitions (some ⟨path, .ok (declarationText (.integer n))⟩) = .ok ds ↔
      ∃ m, Rounds n m ∧ ds = [⟨"x", .integer, some (.integer m)⟩] := by
  obtain ⟨x, hvalue, hx⟩ := exists_number?_integer n
  have hoptional : readOptionalValue? (.number (integerLiteral n.toInt)) =
      some (some (.float (.plain x))) := by
    rw [readOptionalValue?, hvalue]
    rfl
  rw [fileDefinitions_declaration_iff path (.integer n.toInt) hoptional]
  simp only [Value.kind_integer, fitValue_integer_iff, toInteger_iff_rounds hx]
  constructor
  · rintro ⟨u, ⟨m, hm, rfl⟩, rfl⟩
    exact ⟨m, hm, rfl⟩
  · rintro ⟨m, hm, rfl⟩
    exact ⟨_, ⟨m, hm, rfl⟩, rfl⟩

/-- An array of integers is a list of numbers, which are the integers rounded. -/
private theorem exists_readItemsOf?_integers [JsonReader] [LawfulJsonReader] (ns : List Int64) :
    ∃ xs, readItemsOf? (ns.map fun n => .number (integerLiteral n.toInt)) = some (.floats xs) ∧
      List.Forall₂ (fun n x => ∃ y, x = .plain y ∧ toRat? y = some (rounded n.toInt)) ns xs := by
  have hnumbers : ∃ xs, (ns.map fun n => Json.number (integerLiteral n.toInt)).mapM readNumber? =
      some xs ∧ List.Forall₂ (fun n x => ∃ y, x = .plain y ∧
        toRat? y = some (rounded n.toInt)) ns xs := by
    induction ns with
    | nil => exact ⟨[], rfl, .nil⟩
    | cons n ns ih =>
      obtain ⟨xs, hxs, hall⟩ := ih
      obtain ⟨y, hvalue, hy⟩ := exists_number?_integer n
      refine ⟨.plain y :: xs, ?_, .cons ⟨y, rfl, hy⟩ hall⟩
      rw [List.map_cons, List.mapM_cons, hxs, readNumber?, hvalue]
      rfl
  obtain ⟨xs, hxs, hall⟩ := hnumbers
  refine ⟨xs, ?_, hall⟩
  rw [readItemsOf?, hxs]

private theorem forall₂_toInteger_iff_rounds {xs : List Number} {ms : List Int64}
    (h : List.Forall₂ (fun n x => ∃ y, x = .plain y ∧ toRat? y = some (rounded n.toInt)) ns xs) :
    List.Forall₂ (fun x m => (Value.float x).toInteger = .ok m) xs ms ↔
      List.Forall₂ Rounds ns ms := by
  induction h generalizing ms with
  | nil => cases ms <;> simp
  | cons hx hxs ih =>
    obtain ⟨y, rfl, hy⟩ := hx
    cases ms with
    | nil => simp
    | cons m ms => rw [List.forall₂_cons, List.forall₂_cons, toInteger_iff_rounds hy, ih]

/-- The text of a list of whole numbers is an array of integers, written down. -/
private theorem writtenAs_text_integers (ns : List Int64) :
    (Json.array (ns.map fun n => .number (integerLiteral n.toInt))).WrittenAs
      (Value.list (.integers ns)).text.toList := by
  have hitems : ∀ p ∈ ns.map fun n => (Json.number (integerLiteral n.toInt),
      (toString n.toInt).toList), p.1.WrittenAs p.2 := by
    rw [List.forall_mem_map]
    exact fun n _ => .integer n.toInt
  have harray := Json.WrittenAs.array _ hitems
  have hseparator : ", ".toList = [',', ' '] := rfl
  rw [Value.text, Items.text, Items.elementTexts, String.toList_append, String.toList_append,
    String.toList_intercalate, List.map_map, hseparator]
  rw [List.map_map, List.map_map, separated] at harray
  exact harray

private theorem fitValue_integers_iff {xs : List Number} {w : Value}
    (h : List.Forall₂ (fun n x => ∃ y, x = .plain y ∧ toRat? y = some (rounded n.toInt)) ns xs) :
    fitValue (.list .integer) (.list (.floats xs)) = .ok w ↔
      ∃ ms, w = .list (.integers ms) ∧ List.Forall₂ Rounds ns ms := by
  have hscalars : [Value.list (.floats xs)].flatMap Value.scalars = xs.map .float :=
    List.append_nil _
  rw [fitValue, Value.isList, if_pos rfl, fitList_integer_iff]
  simp only [hscalars, List.forall₂_map_left_iff, forall₂_toInteger_iff_rounds h]

/-- A file gives a variable whole numbers rounded, or nothing. -/
theorem fileDefinitions_integers_iff [JsonReader] [LawfulJsonReader] (path : String)
    (ns : List Int64) {ds : List Definition} :
    fileDefinitions (some ⟨path, .ok (declarationText (.list (.integers ns)))⟩) = .ok ds ↔
      ∃ ms, List.Forall₂ Rounds ns ms ∧
        ds = [⟨"x", .list .integer, some (.list (.integers ms))⟩] := by
  obtain ⟨xs, hitems, hxs⟩ := exists_readItemsOf?_integers ns
  have hoptional : readOptionalValue? (.array (ns.map fun n => .number (integerLiteral n.toInt))) =
      some (some (.list (.floats xs))) := by
    rw [readOptionalValue?, hitems]
    rfl
  rw [fileDefinitions_declaration_iff path (writtenAs_text_integers ns) hoptional]
  simp only [Value.kind_list, Items.element, fitValue_integers_iff hxs]
  constructor
  · rintro ⟨u, ⟨ms, rfl, hms⟩, rfl⟩
    exact ⟨ms, hms, rfl⟩
  · rintro ⟨ms, hms, rfl⟩
    exact ⟨_, ⟨ms, rfl, hms⟩, rfl⟩

/-! ### Both ways -/

/-- The assignment of one variable. -/
def singleAssignment (v : Value) : Assignment := .ofDefinitions [⟨"x", v.kind, some v⟩]

private theorem singleAssignment_injective : Function.Injective singleAssignment := by
  intro v w h
  have hvalue : ∀ u, (singleAssignment u).binding.get? "x" = some u := fun u => rfl
  exact Option.some.inj ((hvalue v).symm.trans (h ▸ hvalue w))

/-- The sources of an argument alone. -/
def fromArgument (text : String) : VariableSources := ⟨none, [text], []⟩

/-- The sources of a file alone, which declares the kind of a value and gives it the value. -/
def fromFile (path : String) (v : Value) : VariableSources :=
  ⟨some ⟨path, .ok (declarationText v)⟩, [], []⟩

private theorem assignment_fromArgument [JsonReader] {text : String} {v : Value}
    (h : givenDefinition text = .ok ⟨"x", v.kind, some v⟩) :
    (fromArgument text).assignment = .ok (singleAssignment v) := by
  have hall : [text].mapM givenDefinition = .ok [⟨"x", v.kind, some v⟩] := by
    rw [List.mapM_cons, h]
    rfl
  rw [VariableSources.assignment, VariableSources.definitions]
  simp only [fromArgument, hall]
  rfl

/-- A file assigns what its definitions say. -/
private theorem assignment_fromFile_iff [JsonReader] (path : String) (v : Value) {a : Assignment} :
    (fromFile path v).assignment = .ok a ↔
      ∃ ds, fileDefinitions (some ⟨path, .ok (declarationText v)⟩) = .ok ds ∧
        a = .ofDefinitions ds := by
  rw [VariableSources.assignment, VariableSources.definitions]
  simp only [fromFile]
  cases fileDefinitions (some ⟨path, .ok (declarationText v)⟩) with
  | error err =>
    refine iff_of_false (fun h => by cases h) ?_
    rintro ⟨ds, hds, -⟩
    cases hds
  | ok ds =>
    change Except.ok (Assignment.ofDefinitions (ds ++ [] ++ [])) = .ok a ↔ _
    rw [List.append_nil, List.append_nil]
    simp [eq_comm]

/-- The first whole number without room in 53 digits is rounded to the one before it. -/
private theorem rounds_first_without_room : Rounds 9007199254740993 9007199254740992 := by
  have hsame : ofInt 9007199254740993 = ofInt 9007199254740992 := by decide +kernel
  have hstays : rounded (9007199254740992 : ℤ) = (9007199254740992 : ℤ) :=
    rounded_of_representable (representable_intCast (by decide))
  have hleft := toRat?_ofInt 9007199254740993
  have hright := toRat?_ofInt 9007199254740992
  rw [inRange?_rounded_intCast (by decide)] at hleft hright
  rw [← hsame, hleft, hstays] at hright
  exact (Option.some.inj hright).symm

/-- An argument gives a variable whole numbers exactly, and a file gives them rounded to 53 digits,
or is refused if one of them becomes too large. So the two ways of giving a variable whole numbers
agree, single ones and lists, exactly for whole numbers with room in 53 digits. This holds for every
reader of files that finds what was written down, as `JsonReader.standard` does. -/
theorem file_agrees_iff_representable [JsonReader] [LawfulJsonReader] (path : String) (n : Int64)
    (ns : List Int64) :
    (fromArgument (integerGiven n)).assignment = .ok (singleAssignment (.integer n)) ∧
    (fromArgument (integersGiven ns)).assignment =
      .ok (singleAssignment (.list (.integers ns))) ∧
    (∀ a, (fromFile path (.integer n)).assignment = .ok a ↔
      ∃ m, Rounds n m ∧ a = singleAssignment (.integer m)) ∧
    (∀ a, (fromFile path (.list (.integers ns))).assignment = .ok a ↔
      ∃ ms, List.Forall₂ Rounds ns ms ∧ a = singleAssignment (.list (.integers ms))) ∧
    ((fromFile path (.integer n)).assignment = (fromArgument (integerGiven n)).assignment ↔
      Representable n.toInt) ∧
    ((fromFile path (.list (.integers ns))).assignment =
        (fromArgument (integersGiven ns)).assignment ↔
      ∀ m ∈ ns, Representable m.toInt) := by
  have hargument := assignment_fromArgument (v := .integer n) (givenDefinition_integer n)
  have harguments :=
    assignment_fromArgument (v := .list (.integers ns)) (givenDefinition_integers ns)
  have hfile : ∀ a, (fromFile path (.integer n)).assignment = .ok a ↔
      ∃ m, Rounds n m ∧ a = singleAssignment (.integer m) := by
    intro a
    simp only [assignment_fromFile_iff, fileDefinitions_integer_iff]
    constructor
    · rintro ⟨ds, ⟨m, hm, rfl⟩, rfl⟩
      exact ⟨m, hm, rfl⟩
    · rintro ⟨m, hm, rfl⟩
      exact ⟨_, ⟨m, hm, rfl⟩, rfl⟩
  have hfiles : ∀ a, (fromFile path (.list (.integers ns))).assignment = .ok a ↔
      ∃ ms, List.Forall₂ Rounds ns ms ∧ a = singleAssignment (.list (.integers ms)) := by
    intro a
    simp only [assignment_fromFile_iff, fileDefinitions_integers_iff]
    constructor
    · rintro ⟨ds, ⟨ms, hms, rfl⟩, rfl⟩
      exact ⟨ms, hms, rfl⟩
    · rintro ⟨ms, hms, rfl⟩
      exact ⟨_, ⟨ms, hms, rfl⟩, rfl⟩
  refine ⟨hargument, harguments, hfile, hfiles, ?_, ?_⟩
  · rw [hargument, hfile, ← rounds_self_iff]
    constructor
    · rintro ⟨m, hm, heq⟩
      obtain rfl := Value.integer.inj (singleAssignment_injective heq)
      exact hm
    · exact fun h => ⟨n, h, rfl⟩
  · rw [harguments, hfiles]
    simp only [← rounds_self_iff, ← List.forall₂_same]
    constructor
    · rintro ⟨ms, hms, heq⟩
      obtain rfl := Items.integers.inj (Value.list.inj (singleAssignment_injective heq))
      exact hms
    · exact fun h => ⟨ns, h, rfl⟩

/-- The reader that programs run with: a list with the largest whole number below which all have
room is the same both ways, and the next whole number is not. -/
theorem file_agrees_iff_representable_at_standard :
    LawfulJsonReader ∧
      (fromFile "variables.json" (.list (.integers [-3, 9007199254740992]))).assignment =
        (fromArgument (integersGiven [-3, 9007199254740992])).assignment ∧
      (fromFile "variables.json" (.integer 9007199254740993)).assignment ≠
        (fromArgument (integerGiven 9007199254740993)).assignment := by
  obtain ⟨-, -, -, -, hinteger, hintegers⟩ := file_agrees_iff_representable "variables.json"
    9007199254740993 [-3, 9007199254740992]
  refine ⟨inferInstance, hintegers.mpr ?_, mt hinteger.mp fun hroom => ?_⟩
  · intro m hm
    simp only [List.mem_cons, List.not_mem_nil, or_false] at hm
    rcases hm with rfl | rfl <;> exact representable_intCast (by decide)
  · have hstays : Rounds 9007199254740993 9007199254740993 := rounds_self_iff.mpr hroom
    have hsame := hstays.trans rounds_first_without_room.symm
    exact absurd (Int.cast_injective hsame) (by decide)

/-- The first whole number without room in 53 digits is given exactly by an argument, and a file
gives the number before it instead. -/
theorem exists_file_ne_argument :
    (fromArgument (integerGiven 9007199254740993)).assignment =
      .ok (singleAssignment (.integer 9007199254740993)) ∧
    (fromFile "variables.json" (.integer 9007199254740993)).assignment =
      .ok (singleAssignment (.integer 9007199254740992)) ∧
    (fromFile "variables.json" (.integer 9007199254740993)).assignment ≠
      (fromArgument (integerGiven 9007199254740993)).assignment := by
  have hargument := assignment_fromArgument (v := .integer 9007199254740993)
    (givenDefinition_integer 9007199254740993)
  have hfile : (fromFile "variables.json" (.integer 9007199254740993)).assignment =
      .ok (singleAssignment (.integer 9007199254740992)) := by
    refine (assignment_fromFile_iff _ _).mpr ⟨_, ?_, rfl⟩
    exact (fileDefinitions_integer_iff _ _).mpr ⟨_, rounds_first_without_room, rfl⟩
  refine ⟨hargument, hfile, ?_⟩
  rw [hargument, hfile]
  intro heq
  cases Value.integer.inj (singleAssignment_injective (Except.ok.inj heq))

end

end TypedFormula
