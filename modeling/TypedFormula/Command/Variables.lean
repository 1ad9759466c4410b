import TypedFormula.Command.BindingsFile
import TypedFormula.Command.Error
import TypedFormula.Expr.Typing
import TypedFormula.Text.Occurrences

/-!
# Variables of the command

The command knows variables from three sources, in this order: a file of bindings, values given
as `NAME:KIND=VALUE`, and declarations `NAME:KIND` without a value. Where a name comes again, the
later definition counts, for the kind and for the value. A value is converted to the kind that is
declared with it; the items of a list are given between commas.

Main statements:

* `kind_of_fitValue`, `kind_of_givenValue` — a value that was converted has the declared kind;
* `Assignment.types_add` — what a definition does to the kinds.
-/

namespace TypedFormula

/-! ### Definitions -/

/-- A variable with its kind, and with its value unless it is unset. -/
structure Definition where
  /-- The name. -/
  name : String
  /-- The kind. -/
  kind : Kind
  /-- The value. -/
  value : Option Value

/-- The scalars of values as a list of a scalar kind. -/
def fitList (k : ScalarKind) (values : List Value) : Except ValueFault Value :=
  match flatten k values with
  | .error e => .error (.element e)
  | .ok items => .ok (.list items)

/-- A value as the value of a variable of a kind: a list for a list kind, with its elements
converted, and a scalar for a scalar kind. -/
def fitValue (kind : Kind) (v : Value) : Except ValueFault Value :=
  match kind with
  | .scalar k =>
    match v.convert k with
    | .error e => .error (.scalar e)
    | .ok w => .ok w
  | .list k => if v.isList then fitList k [v] else .error (.notList (.list k) v.kind)

/-- The value of a kind that a text gives: for a list kind the items between commas, without the
blanks around them, and no item if there are only blanks. -/
def givenValue (kind : Kind) (text : List Char) : Except ValueFault Value :=
  match kind with
  | .scalar _ => fitValue kind (.string (String.ofList text))
  | .list k =>
    let items := if (Text.trim text).isEmpty then [] else Text.pieces ',' [] text
    fitList k (items.map fun item => .string (String.ofList (Text.trim item)))

/-- Splits a text at the first mark. -/
def splitAtFirst? (mark : Char) : List Char → Option (List Char × List Char)
  | [] => none
  | c :: cs =>
    if c = mark then some ([], cs) else (splitAtFirst? mark cs).map fun p => (c :: p.1, p.2)

/-- The name and the kind that a text `NAME:KIND` declares. -/
def declared (text : List Char) : Except CommandError (String × Kind) :=
  match splitAtFirst? ':' text with
  | none => .error (.expectedKind (String.ofList text))
  | some (name, kind) =>
    let name := String.ofList (Text.trim name)
    let word := String.ofList (Text.trim kind)
    if name.isEmpty then .error (.emptyName (String.ofList text))
    else
      match Kind.ofName? word with
      | none => .error (.unknownKind word name)
      | some k => .ok (name, k)

/-- The definition that a text `NAME:KIND=VALUE` gives. -/
def givenDefinition (text : String) : Except CommandError Definition :=
  match splitAtFirst? '=' text.toList with
  | none => .error (.expectedValue text)
  | some (declaration, given) =>
    match declared declaration with
    | .error e => .error e
    | .ok (name, kind) =>
      match givenValue kind given with
      | .error fault => .error (.badValue name fault)
      | .ok v => .ok ⟨name, kind, some v⟩

/-- The definition that a text `NAME:KIND` gives. -/
def unsetDefinition (text : String) : Except CommandError Definition :=
  match declared text.toList with
  | .error e => .error e
  | .ok (name, kind) => .ok ⟨name, kind, none⟩

/-- The definition that an entry of a file gives. -/
def fileDefinition (entry : String × FileEntry) : Except CommandError Definition :=
  match entry.2.value with
  | none => .ok ⟨entry.1, entry.2.kind, none⟩
  | some v =>
    match fitValue entry.2.kind v with
    | .error fault => .error (.badFileValue entry.1 fault)
    | .ok w => .ok ⟨entry.1, entry.2.kind, some w⟩

/-! ### Sources -/

/-- A file, by its path and what reading it gave. -/
structure SourceFile where
  /-- The path. -/
  path : String
  /-- The text, or why there is none. -/
  contents : Except FileFault String

/-- Where the variables come from. -/
structure VariableSources where
  /-- The file of bindings. -/
  file : Option SourceFile
  /-- The variables that are given with values. -/
  given : List String
  /-- The variables that are declared without values. -/
  unset : List String

/-- The definitions of a file. -/
def fileDefinitions [JsonReader] : Option SourceFile → Except CommandError (List Definition)
  | none => .ok []
  | some file =>
    match file.contents with
    | .error fault => .error (.unreadableFile file.path fault)
    | .ok text =>
      match readBindings? text with
      | none => .error (.malformedFile file.path)
      | some entries => entries.mapM fileDefinition

/-- All definitions in order, or the first error. -/
def VariableSources.definitions [JsonReader] (s : VariableSources) :
    Except CommandError (List Definition) := do
  let fromFile ← fileDefinitions s.file
  let given ← s.given.mapM givenDefinition
  let unset ← s.unset.mapM unsetDefinition
  return fromFile ++ given ++ unset

/-! ### Kinds and values -/

/-- The kinds and the values of variables. -/
structure Assignment where
  /-- The kinds. -/
  types : Declarations
  /-- The values. -/
  binding : Binding

namespace Assignment

/-- The assignment without variables. -/
def empty : Assignment := ⟨Dict.empty, Binding.empty⟩

/-- The assignment with one more definition. -/
def add (a : Assignment) (d : Definition) : Assignment :=
  let binding := match d.value with
    | some v => a.binding.set d.name v
    | none => a.binding.unset d.name
  ⟨a.types.insert d.name d.kind, binding⟩

/-- The assignment of definitions, of which later ones count. -/
def ofDefinitions (ds : List Definition) : Assignment := ds.foldl add empty

end Assignment

/-- The variables from all sources. -/
def VariableSources.assignment [JsonReader] (s : VariableSources) :
    Except CommandError Assignment :=
  s.definitions.map Assignment.ofDefinitions

/-! ### What definitions mean -/

/-- A definition gives its variable its kind, and leaves the kinds of others. -/
theorem Assignment.types_add (a : Assignment) (d : Definition) (name : String) :
    (a.add d).types.get? name = if name = d.name then some d.kind else a.types.get? name :=
  Dict.get?_insert a.types d.name name d.kind

private theorem kind_of_fitList {k : ScalarKind} {values : List Value} {w : Value}
    (h : fitList k values = .ok w) : w.kind = .list k := by
  unfold fitList at h
  split at h
  · cases h
  · rename_i items hitems
    rw [← Except.ok.inj h, Value.kind, Items.kind, element_of_flatten hitems]

/-- A value that was fitted to a kind has it. -/
theorem kind_of_fitValue {kind : Kind} {v w : Value} (h : fitValue kind v = .ok w) :
    w.kind = kind := by
  unfold fitValue at h
  split at h
  · split at h
    · cases h
    · rename_i hconvert
      rw [← Except.ok.inj h]
      exact Value.kind_of_convert hconvert
  · split at h
    · exact kind_of_fitList h
    · cases h

/-- A value that a text gives for a kind has it. -/
theorem kind_of_givenValue {kind : Kind} {text : List Char} {w : Value}
    (h : givenValue kind text = .ok w) : w.kind = kind := by
  unfold givenValue at h
  split at h
  · exact kind_of_fitValue h
  · exact kind_of_fitList h

end TypedFormula
