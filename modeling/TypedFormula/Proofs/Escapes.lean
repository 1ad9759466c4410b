import Mathlib.Data.String.Basic
import TypedFormula.Formula
import TypedFormula.Proofs.Grammar.Acceptance

/-!
# Backslashes take the meaning of a character away

In a text quotes and backslashes have a meaning, in the name of a reference colons, backslashes and
closing braces, and in a default backslashes and closing braces. With a backslash before each of
them a scanner reads what was there before. The scanners are different, but each takes a character
without a meaning, and the character behind a backslash, as it is and goes on (`Undoes`). Whatever
follows is then read as if it stood alone (`Undoes.scan_backslashed`), be it the mark that closes
the word or the colon before a default.

Main statements:

* `Undoes.scan_backslashed` — a scanner passes over characters behind backslashes;
* `escapes_round_trip` — texts, names and defaults are read as they were before the backslashes, and
  so every variable can be referred to.
-/

namespace TypedFormula

open String (utf8Len)

/-! ### Backslashes -/

/-- Some characters with a backslash before each one that is special. -/
def backslashed (special : Char → Bool) (chars : List Char) : List Char :=
  chars.flatMap fun c => if special c then ['\\', c] else [c]

/-- What has a meaning in a text. -/
def specialInText (c : Char) : Bool := decide (c = '\x22') || decide (c = '\\')

/-- What has a meaning in the name of a reference. -/
def specialInName (c : Char) : Bool :=
  decide (c = '\\') || decide (c = ':') || decide (c = '\x7d')

/-- What has a meaning in a default. -/
def specialInDefault (c : Char) : Bool := decide (c = '\\') || decide (c = '\x7d')

section

variable {special : Char → Bool} {c : Char}

private theorem backslashed_cons_of_plain (h : special c = false) (chars : List Char) :
    backslashed special (c :: chars) = c :: backslashed special chars := by
  rw [backslashed, List.flatMap_cons, h]
  rfl

private theorem backslashed_cons_of_special (h : special c = true) (chars : List Char) :
    backslashed special (c :: chars) = '\\' :: c :: backslashed special chars := by
  rw [backslashed, List.flatMap_cons, h]
  rfl

end

/-- A scanner that reads a character at a time, which it adds to what it reads behind it, and takes
the backslash off special characters. -/
structure Undoes {α : Type} (scanner : Nat → List Char → Except CompileError (Scanned α))
    (add : Char → α → α) (special : Char → Bool) : Prop where
  /-- A character that is not special. -/
  plain : ∀ offset c rest, special c = false →
    scanner offset (c :: rest) = (scanner (offset + c.utf8Size) rest).map (·.map (add c))
  /-- A character that is special, behind a backslash. -/
  escaped : ∀ offset c rest, special c = true →
    scanner offset ('\\' :: c :: rest) =
      (scanner (offset + 1 + c.utf8Size) rest).map (·.map (add c))

/-- A scanner passes over characters behind backslashes and reads on. -/
theorem Undoes.scan_backslashed {α : Type}
    {scanner : Nat → List Char → Except CompileError (Scanned α)} {add : Char → α → α}
    {special : Char → Bool} (h : Undoes scanner add special) (chars : List Char) {offset : Nat}
    {rest : List Char} {s : Scanned α}
    (hrest : scanner (offset + utf8Len (backslashed special chars)) rest = .ok s) :
    scanner offset (backslashed special chars ++ rest) =
      .ok (s.map fun a => chars.foldr add a) := by
  induction chars generalizing offset with
  | nil => exact hrest
  | cons c chars ih =>
    cases hspecial : special c with
    | false =>
      rw [backslashed_cons_of_plain hspecial] at hrest ⊢
      rw [String.utf8Len_cons, Nat.add_comm (utf8Len _), ← Nat.add_assoc] at hrest
      rw [List.cons_append, h.plain _ _ _ hspecial, ih hrest]
      rfl
    | true =>
      rw [backslashed_cons_of_special hspecial] at hrest ⊢
      have hbytes : offset + utf8Len ('\\' :: c :: backslashed special chars) =
          offset + 1 + c.utf8Size + utf8Len (backslashed special chars) := by
        rw [String.utf8Len_cons, String.utf8Len_cons]
        have hbackslash : '\\'.utf8Size = 1 := rfl
        omega
      rw [hbytes] at hrest
      rw [List.cons_append, List.cons_append, h.escaped _ _ _ hspecial, ih hrest]
      rfl

/-! ### Scanners -/

private theorem undoes_scanStringBody (start : Nat) :
    Undoes (scanStringBody start) List.cons specialInText := by
  constructor
  · intro offset c rest hc
    simp only [specialInText, Bool.or_eq_false_iff, decide_eq_false_iff_not] at hc
    cases rest <;> simp only [scanStringBody, if_neg hc.1, if_neg hc.2]
  · intro offset c rest hc
    have hself : unescape? c = some c := by
      simp only [specialInText, Bool.or_eq_true, decide_eq_true_eq] at hc
      rcases hc with rfl | rfl <;> rfl
    rw [scanStringBody, if_neg (by decide), if_pos rfl]
    simp only [hself]

private theorem undoes_scanDefault (start : Nat) :
    Undoes (scanDefault start) List.cons specialInDefault := by
  constructor
  · intro offset c rest hc
    simp only [specialInDefault, Bool.or_eq_false_iff, decide_eq_false_iff_not] at hc
    cases rest <;> simp only [scanDefault, if_neg hc.2, if_neg hc.1]
  · intro offset c rest hc
    rw [scanDefault, if_neg (by decide), if_pos rfl]

private theorem undoes_scanReference (start : Nat) :
    Undoes (scanReference start) (fun c r => (c :: r.1, r.2)) specialInName := by
  constructor
  · intro offset c rest hc
    simp only [specialInName, Bool.or_eq_false_iff, decide_eq_false_iff_not] at hc
    cases rest <;> simp only [scanReference, if_neg hc.2, if_neg hc.1.2, if_neg hc.1.1]
  · intro offset c rest hc
    rw [scanReference, if_neg (by decide), if_neg (by decide), if_pos rfl]

theorem scanReference_brace (start offset : Nat) (rest : List Char) :
    scanReference start offset ('\x7d' :: rest) = .ok ⟨([], none), offset + 1, rest⟩ := by
  cases rest <;> rw [scanReference, if_pos rfl]

theorem scanDefault_brace (start offset : Nat) (rest : List Char) :
    scanDefault start offset ('\x7d' :: rest) = .ok ⟨[], offset + 1, rest⟩ := by
  cases rest <;> rw [scanDefault, if_pos rfl]

theorem scanStringBody_quote (start offset : Nat) (rest : List Char) :
    scanStringBody start offset ('\x22' :: rest) = .ok ⟨[], offset + 1, rest⟩ := by
  cases rest <;> rw [scanStringBody, if_pos rfl]

theorem scanReference_colon (start offset : Nat) (rest : List Char) :
    scanReference start offset (':' :: rest) =
      (scanDefault start (offset + 1) rest).map (·.map fun d => ([], some d)) := by
  cases rest <;> rw [scanReference, if_neg (by decide), if_pos rfl]

private theorem foldr_addName (chars : List Char) (d : Option (List Char)) :
    chars.foldr (fun c (r : List Char × Option (List Char)) => (c :: r.1, r.2)) ([], d) =
      (chars, d) := by
  induction chars with
  | nil => rfl
  | cons c chars ih => rw [List.foldr_cons, ih]

/-! ### Words -/

/-- A text with backslashes. -/
def escapedText (s : String) : List Char := backslashed specialInText s.toList

/-- A name with backslashes. -/
def escapedName (name : String) : List Char := backslashed specialInName name.toList

/-- A default with backslashes. -/
def escapedDefault (text : String) : List Char := backslashed specialInDefault text.toList

/-- What stands between the braces of a reference: a name with backslashes, and perhaps a default
with backslashes behind a colon. -/
def escapedReference (name : String) : Option String → List Char
  | none => escapedName name
  | some text => escapedName name ++ ':' :: escapedDefault text

section

variable (start : Nat) (rest : List Char)

private theorem scan_escapedText (s : String) :
    scan start '\x22' (escapedText s ++ '\x22' :: rest) =
      .ok ⟨.string s, start + 1 + utf8Len (escapedText s) + 1, rest⟩ := by
  have hbody := (undoes_scanStringBody start).scan_backslashed s.toList
    (scanStringBody_quote start (start + 1 + utf8Len (escapedText s)) rest)
  have hscan : scan start '\x22' (escapedText s ++ '\x22' :: rest) =
      scanString start (escapedText s ++ '\x22' :: rest) := rfl
  rw [hscan, scanString, escapedText, hbody]
  simp [Except.map, Scanned.map, escapedText]

private theorem scanDefault_escapedDefault (offset : Nat) (text : String) :
    scanDefault start offset (escapedDefault text ++ '\x7d' :: rest) =
      .ok ⟨text.toList, offset + utf8Len (escapedDefault text) + 1, rest⟩ := by
  have hbody := (undoes_scanDefault start).scan_backslashed text.toList
    (scanDefault_brace start (offset + utf8Len (escapedDefault text)) rest)
  rw [escapedDefault, hbody]
  simp [Scanned.map, escapedDefault]

/-- A name with backslashes, and perhaps a default, is read up to the closing brace. -/
private theorem scanReference_escapedReference (offset : Nat) (name : String)
    (default : Option String) :
    scanReference start offset (escapedReference name default ++ '\x7d' :: rest) =
      .ok ⟨(name.toList, default.map String.toList),
        offset + utf8Len (escapedReference name default) + 1, rest⟩ := by
  cases default with
  | none =>
    have hbody := (undoes_scanReference start).scan_backslashed name.toList
      (scanReference_brace start (offset + utf8Len (escapedName name)) rest)
    rw [escapedReference, escapedName, hbody, Scanned.map, foldr_addName]
    rfl
  | some text =>
    have hbehind : scanReference start (offset + utf8Len (escapedName name))
        (':' :: (escapedDefault text ++ '\x7d' :: rest)) =
          .ok ⟨([], some text.toList),
            offset + utf8Len (escapedReference name (some text)) + 1, rest⟩ := by
      have hbytes : offset + utf8Len (escapedReference name (some text)) + 1 =
          offset + utf8Len (escapedName name) + 1 + utf8Len (escapedDefault text) + 1 := by
        have hcolon : ':'.utf8Size = 1 := rfl
        rw [escapedReference, String.utf8Len_append, String.utf8Len_cons]
        omega
      rw [scanReference_colon, scanDefault_escapedDefault, hbytes]
      rfl
    have hbody := (undoes_scanReference start).scan_backslashed name.toList hbehind
    rw [escapedReference, escapedName, List.append_assoc, List.cons_append, hbody, Scanned.map,
      foldr_addName]
    rfl

/-- A reference with backslashes between braces is read as the reference. -/
theorem scan_escapedReference {name : String} (hname : name ≠ "") (default : Option String) :
    scan start '$' ('\x7b' :: (escapedReference name default ++ '\x7d' :: rest)) =
      .ok ⟨.reference name default, start + 2 + utf8Len (escapedReference name default) + 1,
        rest⟩ := by
  have hscan : scan start '$' ('\x7b' :: (escapedReference name default ++ '\x7d' :: rest)) =
      scanVariable start ('\x7b' :: (escapedReference name default ++ '\x7d' :: rest)) := rfl
  have hnonempty : name.toList.isEmpty = false := by
    simpa using hname
  rw [hscan, scanVariable, List.head?_cons, if_pos rfl, List.tail_cons,
    scanReference_escapedReference]
  simp only [hnonempty, Bool.false_eq_true, if_false, Scanned.map, String.ofList_toList]
  cases default with
  | none => rfl
  | some text => rw [Option.map_some, Option.map_some, String.ofList_toList]

end

/-! ### References alone -/

/-- The formula that is only a reference. -/
def referenceFormula (name : String) (default : Option String) : String :=
  String.ofList ('=' :: '$' :: '\x7b' :: (escapedReference name default ++ ['\x7d']))

/-- The tree of a formula that is only a reference to a text. -/
private theorem parseFormula_referenceFormula {scope : Scope} {name : String} (hname : name ≠ "")
    (hkind : scope.types.get? name = some .string) (default : Option String) :
    parseFormula scope (referenceFormula name default) =
      .ok (.reference 1 name .string (default.map .string)) := by
  have hscan := scan_escapedReference 1 [] hname default
  have hskip : skipBlanks 1 ('$' :: '\x7b' :: (escapedReference name default ++ ['\x7d'])) =
      (1, '$' :: '\x7b' :: (escapedReference name default ++ ['\x7d'])) := rfl
  have htokens : tokenize 1 ('$' :: '\x7b' :: (escapedReference name default ++ ['\x7d'])) =
      ⟨[⟨.reference name default, 1⟩],
        .ok (1 + 2 + utf8Len (escapedReference name default) + 1)⟩ := by
    rw [tokenize_cons hskip hscan, tokenize_nil rfl]
  have hder : Derives (.chain .comparison) [⟨.reference name default, 1⟩]
      (.reference 1 name default) :=
    .operand (.operand (.operand (.operand (.signed (.single (.reference 1 name default))))))
  have hdefault : WritesDefault .string default (default.map .string) := by
    cases default with
    | none => exact .none _
    | some text => exact .some rfl
  refine parseFormula_ok_iff.mpr ⟨0, _, _, _, _, ?_, htokens, hder, .reference 1 hkind hdefault,
    Nat.zero_le _⟩
  rw [referenceFormula, String.toList_ofList]
  rfl

private theorem compile_referenceFormula {scope : Scope} {name : String} (hname : name ≠ "")
    (hkind : scope.types.get? name = some .string) (default : Option String) :
    ∃ f, Formula.compile scope (referenceFormula name default) = .ok f ∧
      f.code = [⟨.load name .string, 1⟩] ∧
      f.kinds.entries = [(name, .string)] ∧
      f.defaults.entries = (default.map fun text => (name, Value.string text)).toList := by
  rw [Formula.compile, parseFormula_referenceFormula hname hkind]
  cases default with
  | none => exact ⟨_, rfl, rfl, rfl, rfl⟩
  | some text => exact ⟨_, rfl, rfl, rfl, rfl⟩

/-- Texts, names and defaults with backslashes are read as they were without, whatever follows, and
reading stops where this begins. So every name can be referred to: the reference alone, to a
variable for texts, compiles to one load of the variable with the default. -/
theorem escapes_round_trip :
    (∀ start s rest, scan start '\x22' (escapedText s ++ '\x22' :: rest) =
      .ok ⟨.string s, start + 1 + utf8Len (escapedText s) + 1, rest⟩) ∧
    (∀ start name rest, name ≠ "" →
      scan start '$' ('\x7b' :: (escapedName name ++ '\x7d' :: rest)) =
        .ok ⟨.reference name none, start + 2 + utf8Len (escapedName name) + 1, rest⟩ ∧
      ∀ text, scan start '$'
          ('\x7b' :: (escapedName name ++ ':' :: (escapedDefault text ++ '\x7d' :: rest))) =
        .ok ⟨.reference name (some text),
          start + 2 + utf8Len (escapedName name ++ ':' :: escapedDefault text) + 1, rest⟩) ∧
    ∀ (scope : Scope) (name : String) (default : Option String), name ≠ "" →
      scope.types.get? name = some .string →
      ∃ f, Formula.compile scope (referenceFormula name default) = .ok f ∧
        f.code = [⟨.load name .string, 1⟩] ∧ f.kinds.entries = [(name, .string)] ∧
        f.defaults.entries = (default.map fun text => (name, Value.string text)).toList := by
  refine ⟨fun start s rest => scan_escapedText start rest s, fun start name rest hname => ⟨?_, ?_⟩,
    fun scope name default hname hkind => compile_referenceFormula hname hkind default⟩
  · exact scan_escapedReference start rest hname none
  · intro text
    have hscan := scan_escapedReference start rest hname (some text)
    rwa [escapedReference, List.append_assoc, List.cons_append] at hscan

/-- A name of nothing but marks is referred to, with a default of such marks. -/
theorem escapes_round_trip_of_marks :
    let name := ":\x7d\\"
    let scope : Scope := ⟨Dict.ofList [(name, .string)], Registry.empty⟩
    referenceFormula name (some "\\\x7d:\x22") = "=$\x7b\\:\\\x7d\\\\:\\\\\\\x7d:\x22\x7d" ∧
      scan 7 '\x22' "a\\\x22b\x22+1".toList = .ok ⟨.string "a\x22b", 13, ['+', '1']⟩ ∧
      ∃ f, Formula.compile scope (referenceFormula name (some "\\\x7d:\x22")) = .ok f ∧
        f.code = [⟨.load name .string, 1⟩] ∧
        f.defaults.entries = [(name, .string "\\\x7d:\x22")] := by
  intro name scope
  obtain ⟨htext, -, hcompile⟩ := escapes_round_trip
  refine ⟨by decide +kernel, htext 7 "a\x22b" ['+', '1'], ?_⟩
  obtain ⟨f, hf, hcode, -, hdefaults⟩ :=
    hcompile scope name (some "\\\x7d:\x22") (by decide) (by decide +kernel)
  exact ⟨f, hf, hcode, hdefaults⟩

end TypedFormula
