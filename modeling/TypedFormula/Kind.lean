/-!
# Kinds of values

Every value has one of eight kinds: one of four scalar kinds, or a list of one of them. A
`KindSet` says which kinds a parameter takes, and a `StaticKind` is what is known of a kind
before a formula runs: the kind itself, or that only the run will tell.
-/

namespace TypedFormula

/-! ### Scalar kinds and kinds -/

/-- The kind of a single value. -/
inductive ScalarKind where
  /-- A binary64 number. -/
  | float
  /-- A whole number of 64 bits. -/
  | integer
  /-- A text. -/
  | string
  /-- A truth value. -/
  | boolean
deriving DecidableEq

/-- The kind of a value: a scalar kind, or lists over one. -/
inductive Kind where
  /-- A single value. -/
  | scalar (element : ScalarKind)
  /-- A list of values of one scalar kind. -/
  | list (element : ScalarKind)
deriving DecidableEq

namespace ScalarKind

/-- The scalar kinds in their fixed order. -/
def all : List ScalarKind := [.float, .integer, .string, .boolean]

/-- The name shown in messages. -/
def name : ScalarKind → String
  | .float => "Floating Point"
  | .integer => "Integer"
  | .string => "String"
  | .boolean => "Boolean"

end ScalarKind

namespace Kind

/-- The kind of single numbers. -/
@[match_pattern] abbrev float : Kind := .scalar .float

/-- The kind of single whole numbers. -/
@[match_pattern] abbrev integer : Kind := .scalar .integer

/-- The kind of single texts. -/
@[match_pattern] abbrev string : Kind := .scalar .string

/-- The kind of single truth values. -/
@[match_pattern] abbrev boolean : Kind := .scalar .boolean

/-- All kinds in their fixed order: the scalar kinds, then the lists over them. -/
def all : List Kind := ScalarKind.all.map .scalar ++ ScalarKind.all.map .list

/-- Whether values of the kind are lists. -/
def isList : Kind → Bool
  | .scalar _ => false
  | .list _ => true

/-- Whether values of the kind are single numbers. -/
def isNumeric : Kind → Bool
  | .float | .integer => true
  | _ => false

/-- The scalar kind of a value, or of the elements of a list. -/
def element : Kind → ScalarKind
  | .scalar k => k
  | .list k => k

/-- The kind of lists over the same elements. -/
def listOf (k : Kind) : Kind := .list k.element

/-- The name shown in messages. -/
def name : Kind → String
  | .scalar k => k.name
  | .list k => "List of " ++ k.name

/-- The kind that a word names in a declaration, in any ASCII letter case. -/
def ofName? (word : String) : Option Kind :=
  match String.ofList (word.toList.map Char.toLower) with
  | "float" | "double" | "number" => some .float
  | "int" | "integer" | "long" => some .integer
  | "string" | "str" | "text" => some .string
  | "bool" | "boolean" => some .boolean
  | "float_list" | "floatlist" => some (.list .float)
  | "int_list" | "integer_list" | "integerlist" => some (.list .integer)
  | "string_list" | "stringlist" => some (.list .string)
  | "bool_list" | "boolean_list" | "booleanlist" => some (.list .boolean)
  | _ => none

instance : ToString Kind := ⟨name⟩

end Kind

/-! ### Sets of kinds -/

/-- A set of kinds, given by its members. -/
structure KindSet where
  /-- The members, in no particular order. -/
  members : List Kind
deriving DecidableEq

namespace KindSet

/-- Whether a kind is a member. -/
def accepts (s : KindSet) (k : Kind) : Bool := s.members.contains k

/-- The members in the fixed order of kinds. -/
def kinds (s : KindSet) : List Kind := Kind.all.filter s.accepts

instance : Union KindSet := ⟨fun s t => ⟨s.members ++ t.members⟩⟩

/-- The set of one kind. -/
def single (k : Kind) : KindSet := ⟨[k]⟩

/-- Single numbers. -/
def numeric : KindSet := ⟨[.float, .integer]⟩

/-- Lists of numbers. -/
def numericList : KindSet := ⟨[.list .float, .list .integer]⟩

/-- All scalar kinds. -/
def scalar : KindSet := ⟨ScalarKind.all.map .scalar⟩

/-- All list kinds. -/
def list : KindSet := ⟨ScalarKind.all.map .list⟩

/-- All kinds. -/
def any : KindSet := scalar ∪ list

/-- What counts as one number: numbers, and truth values as 1 and 0. -/
def number : KindSet := numeric ∪ single .boolean

/-- Numbers and lists of numbers, for functions that flatten their arguments. -/
def numbers : KindSet := number ∪ numericList

end KindSet

/-! ### Kinds before a run -/

/-- What is known of a kind before a run. -/
inductive StaticKind where
  /-- The value will have this kind. -/
  | known (kind : Kind)
  /-- Only the run will tell. -/
  | dynamic
deriving DecidableEq

namespace StaticKind

/-- The name shown in messages. -/
def name : StaticKind → String
  | .known k => k.name
  | .dynamic => "Dynamic"

/-- Whether the value is known to be a list. -/
def isList : StaticKind → Bool
  | .known k => k.isList
  | .dynamic => false

/-- Whether a value may be handed to a parameter: an unknown kind is taken until the run. -/
def acceptedBy : StaticKind → KindSet → Bool
  | .known k, s => s.accepts k
  | .dynamic, _ => true

instance : ToString StaticKind := ⟨name⟩

end StaticKind

end TypedFormula
