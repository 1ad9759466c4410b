import TypedFormula.Dict
import TypedFormula.Json
import TypedFormula.Value

/-!
# Files of bindings

A file of bindings is a JSON object. Every member declares the variable of its name: an object
with the members `kind` and `value`, or an array of these two. A value may be missing or `null`,
which leaves the variable without a value. Members with other names are passed over; of two
declarations of one variable the later counts.

A number in a file is a number, never a whole number, and an array without items is a list of
numbers: the kind plays no part in reading the value.
-/

namespace TypedFormula

/-! ### Kinds -/

/-- The word for a scalar kind in files and answers. -/
def ScalarKind.word : ScalarKind → String
  | float => "Float"
  | integer => "Integer"
  | string => "String"
  | boolean => "Boolean"

/-- The word for a kind in files and answers. -/
def Kind.word : Kind → String
  | scalar k => k.word
  | list k => k.word ++ "List"

/-- The kind of a word. -/
def Kind.ofWord? (word : String) : Option Kind := Kind.all.find? fun k => k.word == word

theorem Kind.ofWord?_word (k : Kind) : Kind.ofWord? k.word = some k := by
  rcases k with ⟨⟨⟩⟩ | ⟨⟨⟩⟩ <;> decide

section

variable [JsonReader]

open JsonReader (tree? text? number?)

/-- Reads a kind: its word, or an object with the word as the only name and `null`. -/
def readKind? : Json → Option Kind
  | .string written => (text? written).bind fun word => Kind.ofWord? (String.ofList word)
  | .object [(written, .null)] =>
    (text? written).bind fun word => Kind.ofWord? (String.ofList word)
  | _ => none

/-! ### Values -/

/-- Reads a number. -/
def readNumber? : Json → Option Number
  | .number literal => (number? literal).map .plain
  | _ => none

/-- Reads a text. -/
def readText? : Json → Option String
  | .string written => (text? written).map String.ofList
  | _ => none

/-- Reads a truth value. -/
def readBoolean? : Json → Option Bool
  | .boolean b => some b
  | _ => none

/-- Reads an array of numbers, of texts or of truth values. -/
def readItemsOf? (items : List Json) : Option Items :=
  match items.mapM readNumber?, items.mapM readText?, items.mapM readBoolean? with
  | some xs, _, _ => some (.floats xs)
  | _, some xs, _ => some (.strings xs)
  | _, _, some xs => some (.booleans xs)
  | _, _, _ => none

/-- Reads a value, or `null` for none. -/
def readOptionalValue? : Json → Option (Option Value)
  | .null => some none
  | .boolean b => some (some (.boolean b))
  | .number literal => (number? literal).map fun x => some (.float (.plain x))
  | .string written => (text? written).map fun s => some (.string (String.ofList s))
  | .array items => (readItemsOf? items).map fun xs => some (.list xs)
  | .object _ => none

/-! ### Declarations -/

/-- A variable as a file declares it. -/
structure FileEntry where
  /-- The kind. -/
  kind : Kind
  /-- The value, of any kind. -/
  value : Option Value

/-- The values of the members of a name, in order. -/
def membersNamed (name : String) (members : List (List Char × Json)) : List Json :=
  (members.filter fun m => m.1 == name.toList).map Prod.snd

/-- The members of an object with their names read. -/
def readMemberNames? (members : List (List Char × Json)) : Option (List (List Char × Json)) :=
  members.mapM fun m => (text? m.1).map fun name => (name, m.2)

/-- Reads an entry from what stands for the kind and, if there is any, for the value. -/
def readParts? (kind : Json) (value : Option Json) : Option FileEntry :=
  match readKind? kind, value with
  | none, _ => none
  | some k, none => some ⟨k, none⟩
  | some k, some v => (readOptionalValue? v).map fun v => ⟨k, v⟩

/-- Reads an entry. -/
def FileEntry.ofJson? : Json → Option FileEntry
  | .array [kind] => readParts? kind none
  | .array [kind, value] => readParts? kind (some value)
  | .object members =>
    match readMemberNames? members with
    | none => none
    | some members =>
      match membersNamed "kind" members, membersNamed "value" members with
      | [kind], [] => readParts? kind none
      | [kind], [value] => readParts? kind (some value)
      | _, _ => none
  | _ => none

/-- Reads the entries of a file under their names, in the order of the names. -/
def readBindings? (text : String) : Option (List (String × FileEntry)) :=
  match tree? text.toList with
  | some (.object members) =>
    match readMemberNames? members with
    | none => none
    | some members =>
      let entry := fun (m : List Char × Json) =>
        (FileEntry.ofJson? m.2).map fun e => (String.ofList m.1, e)
      (members.mapM entry).map fun entries =>
        (Dict.ofList entries).entries.mergeSort fun a b => decide (a.1 ≤ b.1)
  | _ => none

end

end TypedFormula
