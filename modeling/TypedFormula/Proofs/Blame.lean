import TypedFormula.Proofs.Flattening
import TypedFormula.Proofs.Library
import TypedFormula.Proofs.Matching

/-!
# The arguments that failures are about

A failed function names an argument by a number. The number is written out in some bodies, follows
from an index in others, and comes from flattening in the rest. It is that of an argument whenever
the arguments match the signature: what is required is there, and what may be left out is only asked
for where it is not.

A failed conversion moreover says why this argument does not convert to the kind that the function
asks for (`Library.asks?`): the argument itself, or its first element that does not convert, if it
is a list (`Value.FailsAs`). Only functions that flatten their arguments convert lists, and the
others take none, so that the two cases are never mixed up.

Main statements:

* `Fails` — a property of the failure, if there is one, as `Returns` is for results;
* `Library.blamesArguments_of_mem` — the functions of the library blame arguments;
* `Library.failures_name_arguments` — what their failures say of the arguments is the case.
-/

namespace TypedFormula

/-! ### What failures say -/

/-- The kinds that a function of the library converts its arguments to, one for each parameter. The
argument of a parameter without a kind is taken as it is. -/
def Library.askedKinds : String → List (Option ScalarKind)
  | "PI" => []
  | "FIRST" | "LAST" => [none]
  | "NTH" => [none, some .integer]
  | "LISTTOSTRING" => [none, some .string]
  | "IF" => [some .boolean, none, none]
  | "AND" | "OR" | "NOT" | "BLIST" => [some .boolean]
  | "ILIST" => [some .integer]
  | "LOG" | "MOD" => [some .float, some .float]
  | "ROUND" => [some .float, some .integer]
  | "CONCATENATE" | "LEN" | "LOWER" | "UPPER" | "SLIST" => [some .string]
  | "LEFT" | "RIGHT" => [some .string, some .integer]
  | "MID" => [some .string, some .integer, some .integer]
  | "SUBSTITUTE" => [some .string, some .string, some .string, some .integer]
  | _ => [some .float]

/-- The kind that a function of the library converts the argument at an index to. A repeated
parameter is the only one of its function. -/
def Library.asks? (name : String) (index : Nat) : Option ScalarKind :=
  match askedKinds name with
  | [kind] => kind
  | kinds => kinds[index]?.join

/-- Why a value does not convert to a scalar kind. -/
inductive Value.FailsAs (target : ScalarKind) : Value → ConversionError → Prop where
  /-- A single value itself does not. -/
  | single {v : Value} {source : ConversionError} (hv : v.isList = false)
      (h : v.convert target = .error source) : FailsAs target v source
  /-- An element of a list does not, and all elements before it do. -/
  | element {items : Items} {before after : List Value} {v : Value} {source : ConversionError}
      (hitems : items.values = before ++ v :: after)
      (hbefore : ∀ u ∈ before, ∃ w, u.convert target = .ok w)
      (h : v.convert target = .error source) : FailsAs target (.list items) source

/-- What a failure says of arguments is the case, where `asks?` are the kinds that they are
converted to: an argument that it names is there and, if need be, a list, and does not convert as it
says. -/
inductive FunctionError.Blames (asks? : Nat → Option ScalarKind) (args : List Value) :
    FunctionError → Prop where
  /-- The computation is to blame. -/
  | arithmetic (fault : ArithmeticFault) : Blames asks? args (.arithmetic fault)
  /-- The value of an argument is to blame. -/
  | argument {index : Nat} {fault : ArgumentFault} (hindex : index < args.length)
      (hmissing : fault ≠ .missing) (hlist : fault ≠ .notList) :
      Blames asks? args (.argument (index + 1) fault)
  /-- The conversion of an argument is to blame. -/
  | conversion {index : Nat} {v : Value} {target : ScalarKind} {source : ConversionError}
      (hv : args[index]? = some v) (hasks : asks? index = some target)
      (h : v.FailsAs target source) : Blames asks? args (.conversion (index + 1) source)

/-! ### Failures of computations -/

/-- A property of the failure, if there is one. -/
def Fails {α : Type} (P : FunctionError → Prop) (result : Except FunctionError α) : Prop :=
  ∀ e, result = .error e → P e

section

variable {α β : Type} {P : FunctionError → Prop}

@[simp] theorem fails_ok {a : α} : Fails P (.ok a : Except FunctionError α) := by simp [Fails]

@[simp] theorem fails_pure {a : α} : Fails P (pure a : Except FunctionError α) := fails_ok

@[simp] theorem fails_error {e : FunctionError} :
    Fails P (.error e : Except FunctionError α) ↔ P e := by simp [Fails]

@[simp] theorem fails_bind {first : Except FunctionError β} {next : β → Except FunctionError α} :
    Fails P (first >>= next) ↔ Fails P first ∧ Returns (fun b => Fails P (next b)) first := by
  cases first with
  | error e => exact fails_error.trans ⟨fun h => ⟨fails_error.mpr h, returns_error⟩,
      fun h => fails_error.mp h.1⟩
  | ok b => exact ⟨fun h => ⟨fails_ok, (returns_ok (P := fun b => Fails P (next b))).mpr h⟩,
      fun h => (returns_ok (P := fun b => Fails P (next b))).mp h.2⟩

@[simp] theorem fails_map {result : Except FunctionError β} {g : β → α} :
    Fails P (g <$> result) ↔ Fails P result := by
  cases result with
  | error e => exact fails_error.trans fails_error.symm
  | ok b => exact iff_of_true fails_ok fails_ok

end

/-! ### Arguments -/

/-- A single value stands at an index. -/
private def HasSingle (args : List Value) (index : Nat) : Prop :=
  ∃ v, args[index]? = some v ∧ v.isList = false

section

variable {α : Type} {asks? : Nat → Option ScalarKind} {args : List Value} {index : Nat}

private theorem fails_argument {P : FunctionError → Prop} (h : index < args.length) :
    Fails P (argument args index) := by
  rw [argument, List.getElem?_eq_getElem h]
  exact fails_ok

private theorem fails_listArgument {P : FunctionError → Prop} {items : Items}
    (h : args[index]? = some (.list items)) : Fails P (listArgument args index) := by
  rw [listArgument, argument, h]
  exact fails_ok

/-- A conversion to the kind asked for that is part of the conversion of values fails as this. -/
private theorem fails_blame {convert : Value → Except ConversionError α} {wrap : α → Value}
    {target : ScalarKind} {v : Value} (hconvert : v.convert target = (convert v).map wrap)
    (hv : args[index]? = some v) (hsingle : v.isList = false) (hasks : asks? index = some target) :
    Fails (FunctionError.Blames asks? args) (blame index (convert v)) := by
  cases hresult : convert v with
  | ok a => exact fails_ok
  | error source =>
    rw [hresult] at hconvert
    exact fails_error.mpr (.conversion hv hasks (.single hsingle hconvert))

/-- A single argument that does not convert to the kind asked for is blamed. -/
private theorem fails_converted {convert : Value → Except ConversionError α} {wrap : α → Value}
    {target : ScalarKind} (hconvert : ∀ v : Value, v.convert target = (convert v).map wrap)
    (h : HasSingle args index) (hasks : asks? index = some target) :
    Fails (FunctionError.Blames asks? args) (argument args index >>= fun v =>
      blame index (convert v)) := by
  obtain ⟨v, hv, hsingle⟩ := h
  rw [argument, hv]
  exact fails_blame (hconvert v) hv hsingle hasks

private theorem fails_numberArgument (h : HasSingle args index)
    (hasks : asks? index = some .float) :
    Fails (FunctionError.Blames asks? args) (numberArgument args index) :=
  fails_converted (fun _ => rfl) h hasks

private theorem fails_floatArgument (h : HasSingle args index) (hasks : asks? index = some .float) :
    Fails (FunctionError.Blames asks? args) (floatArgument args index) :=
  fails_bind.mpr ⟨fails_numberArgument h hasks, returns_of_forall fun _ => fails_pure⟩

private theorem fails_integerArgument (h : HasSingle args index)
    (hasks : asks? index = some .integer) :
    Fails (FunctionError.Blames asks? args) (integerArgument args index) := by
  have hconverted : Fails (FunctionError.Blames asks? args) (argument args index >>= fun v =>
      blame index v.toInteger) := fails_converted (fun _ => rfl) h hasks
  rw [integerArgument]
  simpa using hconverted

private theorem fails_textArgument (h : HasSingle args index) (hasks : asks? index = some .string) :
    Fails (FunctionError.Blames asks? args) (textArgument args index) :=
  fails_converted (fun _ => rfl) h hasks

private theorem fails_booleanArgument (h : HasSingle args index)
    (hasks : asks? index = some .boolean) :
    Fails (FunctionError.Blames asks? args) (booleanArgument args index) :=
  fails_converted (fun _ => rfl) h hasks

/-- Of flattened arguments the first one with a scalar that does not convert is blamed. -/
private theorem fails_flattenWith {convert : Value → Except ConversionError α} {wrap : α → Value}
    {target : ScalarKind} (hconvert : ∀ v : Value, v.convert target = (convert v).map wrap)
    (hasks : ∀ index, asks? index = some target) :
    Fails (FunctionError.Blames asks? args)
      ((flattenWith convert args).mapError FunctionError.ofFlatten) := by
  intro e he
  obtain ⟨failure, hfailure, rfl⟩ := mapError_eq_error_iff.mp he
  obtain ⟨earlier, arg, later, rfl, -, harg, hindex⟩ := flattenFrom_error_iff.mp hfailure
  obtain ⟨before, v, after, hscalars, hbefore, hv⟩ := convertAll_error_iff.mp harg
  have hplace : (earlier ++ arg :: later)[failure.index]? = some arg := by
    rw [hindex, Nat.zero_add]
    simp
  have hfails : v.convert target = .error failure.source := by
    rw [hconvert, hv]
    rfl
  refine .conversion hplace (hasks _) ?_
  cases arg with
  | list items =>
    refine .element hscalars (fun u hu => ?_) hfails
    obtain ⟨x, hx⟩ := hbefore u hu
    exact ⟨wrap x, by rw [hconvert, hx]; rfl⟩
  | _ =>
    -- a single value is the only scalar of itself
    obtain ⟨rfl, hcons⟩ := List.append_eq_singleton_iff.mp hscalars.symm |>.resolve_right nofun
    obtain ⟨rfl, -⟩ := List.cons.inj hcons
    exact .single rfl hfails

end

/-! ### Arguments that match -/

section

variable {accepts : KindSet} {parameters : List Parameter} {args : List Value}

private theorem exists_accepts_of_assignable
    (h : Assignable parameters (args.map fun v => .known v.kind)) {v : Value} (hv : v ∈ args) :
    ∃ p ∈ parameters, p.accepts.accepts v.kind = true := by
  obtain ⟨runs, hruns, hflatten⟩ := h
  have hmem : StaticKind.known v.kind ∈ runs.flatten :=
    hflatten ▸ List.mem_map_of_mem (f := fun v : Value => StaticKind.known v.kind) hv
  obtain ⟨run, hrun, hk⟩ := List.mem_flatten.mp hmem
  obtain ⟨p, hzip⟩ := exists_mem_zip hruns.length_eq hrun
  exact ⟨p, (List.of_mem_zip hzip).1, (List.forall₂_zip hruns hzip).accepted _ hk⟩

private theorem isList_of_accepts (hsingles : ∀ k ∈ accepts.members, k.isList = false) {v : Value}
    (h : accepts.accepts v.kind = true) : v.isList = false := by
  have hkind := hsingles _ (List.contains_iff_mem.mp h)
  cases v with
  | list items => cases hkind
  | _ => rfl

private theorem exists_cons_of_assignable {name : String}
    (h : Assignable (.one name accepts :: parameters) (args.map fun v => .known v.kind)) :
    ∃ v rest, args = v :: rest ∧ accepts.accepts v.kind = true ∧
      Assignable parameters (rest.map fun v => .known v.kind) := by
  obtain ⟨run, kinds, hkinds, htakes, hothers⟩ := assignable_cons.mp h
  obtain ⟨-, hoptional⟩ | ⟨k, rfl, hk⟩ := htakes.of_single rfl
  · cases hoptional
  · cases args with
    | nil => cases hkinds
    | cons v rest =>
      obtain ⟨rfl, rfl⟩ := List.cons.inj hkinds
      exact ⟨v, rest, rfl, hk, hothers⟩

private theorem exists_list_of_assignable {name : String}
    (h : Assignable (.one name .list :: parameters) (args.map fun v => .known v.kind)) :
    ∃ items rest, args = .list items :: rest ∧
      Assignable parameters (rest.map fun v => .known v.kind) := by
  obtain ⟨v, rest, rfl, hv, hrest⟩ := exists_cons_of_assignable h
  cases v with
  | list items => exact ⟨items, rest, rfl, hrest⟩
  | _ => cases hv

end

/-! ### Functions of the library -/

/-- Whether failures on arguments that match the signature are about these arguments. -/
def Function.BlamesArguments (f : Function) : Prop :=
  ∀ args : List Value, Assignable f.parameters (args.map fun v => .known v.kind) →
    Fails (FunctionError.Blames (Library.asks? f.name) args) (f.body args)

/-- A function that takes no lists blames arguments if it does so where all arguments are single and
those that are required are there. -/
private theorem Function.blamesArguments_of_singles {f : Function}
    (hsingles : ∀ p ∈ f.parameters, ∀ k ∈ p.accepts.members, k.isList = false)
    (hbody : ∀ args, requiredCount f.parameters ≤ args.length →
      (∀ index < args.length, HasSingle args index) →
        Fails (FunctionError.Blames (Library.asks? f.name) args) (f.body args)) :
    f.BlamesArguments := by
  intro args h
  have hrequired := h.requiredCount_le
  rw [List.length_map] at hrequired
  refine hbody args hrequired fun index hindex => ?_
  obtain ⟨p, hp, hv⟩ := exists_accepts_of_assignable h (List.getElem_mem hindex)
  exact ⟨_, List.getElem?_eq_getElem hindex, isList_of_accepts (hsingles p hp) hv⟩

namespace Library

variable {asks? : Nat → Option ScalarKind} {args : List Value}

/-- A result that is tested fails for the computation. -/
@[simp] theorem fails_finiteResult (name : String) (x : Float) :
    Fails (FunctionError.Blames asks? args) (finiteResult name x) := by
  rw [finiteResult]
  split
  · exact fails_ok
  · exact fails_error.mpr (.arithmetic _)

/-- A logarithm blames its base only where one is given, since 10 is a base. -/
private theorem fails_log [Binary64.Logarithms] (hx : HasSingle args 0)
    (hbase : 1 < args.length → HasSingle args 1) (hasks : asks? 0 = some .float)
    (hasks' : asks? 1 = some .float) :
    Fails (FunctionError.Blames asks? args) (log args) := by
  refine fails_bind.mpr ⟨fails_numberArgument hx hasks, returns_of_forall fun x => ?_⟩
  extract_lets rest
  have hrest : ∀ base : Number,
      ((base.value ≤ 0 || Float.beq base.value 1) = true → 1 < args.length) →
        Fails (FunctionError.Blames asks? args) (rest base) := by
    intro base hgiven
    simp only [rest]
    split
    · exact fails_error.mpr (.arithmetic _)
    · split
      · rename_i hbad
        exact fails_error.mpr (.argument (hgiven hbad) (by simp) (by simp))
      · split <;> exact fails_pure
  split
  · rename_i hgiven
    refine fails_bind.mpr ⟨fails_numberArgument (hbase hgiven) hasks', ?_⟩
    exact returns_of_forall fun base => hrest base fun _ => hgiven
  · exact hrest (.plain 10) fun hbad => absurd hbad (by decide)

/-- Rounding blames the number of places only where it is given, since 0 is one. -/
private theorem fails_round (hx : HasSingle args 0) (hplaces : 1 < args.length → HasSingle args 1)
    (hasks : asks? 0 = some .float) (hasks' : asks? 1 = some .integer) :
    Fails (FunctionError.Blames asks? args) (round args) := by
  refine fails_bind.mpr ⟨fails_numberArgument hx hasks, returns_of_forall fun x => ?_⟩
  extract_lets rest
  have hrest : ∀ places : Int, (¬ (-308 ≤ places ∧ places ≤ 308) → 1 < args.length) →
      Fails (FunctionError.Blames asks? args) (rest places) := by
    intro places hgiven
    simp only [rest]
    split
    · exact fails_pure
    · rename_i hbad
      exact fails_error.mpr (.argument (hgiven hbad) (by simp) (by simp))
  split
  · rename_i hgiven
    refine fails_bind.mpr ⟨fails_integerArgument (hplaces hgiven) hasks', ?_⟩
    exact returns_of_forall fun places => hrest places fun _ => hgiven
  · exact hrest 0 fun hbad => absurd hbad (by decide)

/-- A function of all numbers blames the argument with the first one that is none. -/
private theorem fails_floatArguments (hasks : ∀ index, asks? index = some .float) :
    Fails (FunctionError.Blames asks? args) (floatArguments args) := by
  refine fails_bind.mpr ⟨fails_flattenWith (fun _ => rfl) hasks, ?_⟩
  exact returns_of_forall fun _ => fails_pure

/-- The functions on numbers blame arguments. -/
private theorem blamesArguments_numberFunctions [Binary64.Logarithms] :
    ∀ f ∈ numberFunctions, f.BlamesArguments := by
  simp only [numberFunctions, List.forall_mem_cons, List.not_mem_nil, false_imp_iff,
    implies_true, and_true]
  refine ⟨?abs, ?exp, ?ln, ?log, ?mod, ?pi, ?product, ?round, ?sign, ?sqrt, ?sum, ?trunc⟩
  case product | sum =>
    intro args _
    refine fails_bind.mpr ⟨fails_floatArguments fun _ => rfl, returns_of_forall fun xs => ?_⟩
    exact fails_finiteResult _ _
  all_goals
    refine Function.blamesArguments_of_singles (by simp only [floatFunction]; decide)
      fun args hrequired hsingle => ?_
  case pi => exact fails_ok
  case log => exact fails_log (hsingle 0 hrequired) (hsingle 1) rfl rfl
  case round => exact fails_round (hsingle 0 hrequired) (hsingle 1) rfl rfl
  case mod =>
    have hfirst : 0 < args.length := Nat.lt_of_succ_lt hrequired
    refine fails_bind.mpr ⟨fails_floatArgument (hsingle 0 hfirst) rfl,
      returns_of_forall fun x => ?_⟩
    refine fails_bind.mpr ⟨fails_floatArgument (hsingle 1 hrequired) rfl,
      returns_of_forall fun y => ?_⟩
    split
    · exact fails_error.mpr (.arithmetic _)
    · exact fails_finiteResult _ _
  case exp =>
    refine fails_bind.mpr ⟨fails_floatArgument (hsingle 0 hrequired) rfl,
      returns_of_forall fun x => ?_⟩
    exact fails_finiteResult _ _
  case abs | sign =>
    refine fails_bind.mpr ⟨fails_floatArgument (hsingle 0 hrequired) rfl, ?_⟩
    exact returns_of_forall fun x => fails_pure
  case trunc =>
    refine fails_bind.mpr ⟨fails_numberArgument (hsingle 0 hrequired) rfl, ?_⟩
    exact returns_of_forall fun x => fails_pure
  case ln | sqrt =>
    refine fails_bind.mpr ⟨fails_numberArgument (hsingle 0 hrequired) rfl,
      returns_of_forall fun x => ?_⟩
    split
    · exact fails_error.mpr (.arithmetic _)
    · exact fails_pure

/-- A sample blames the argument with the first scalar that is no number, or has no numbers. -/
private theorem fails_sampleArguments (statistic : String)
    (hasks : ∀ index, asks? index = some .float) :
    Fails (FunctionError.Blames asks? args) (sampleArguments statistic args) := by
  refine fails_bind.mpr ⟨fails_flattenWith (fun _ => rfl) hasks, returns_of_forall fun xs => ?_⟩
  split
  · exact fails_error.mpr (.arithmetic _)
  · exact fails_pure

private theorem fails_varianceOf (xs : List Float) :
    Fails (FunctionError.Blames asks? args) (varianceOf xs) := by
  rw [varianceOf]
  split
  · exact fails_error.mpr (.arithmetic _)
  · exact fails_ok

/-- The functions on samples blame arguments. -/
private theorem blamesArguments_sampleFunctions : ∀ f ∈ sampleFunctions, f.BlamesArguments := by
  simp only [sampleFunctions, List.forall_mem_cons, List.not_mem_nil, false_imp_iff,
    implies_true, and_true]
  refine ⟨?average, ?count, ?max, ?median, ?min, ?stdev, ?var⟩
  all_goals intro args _
  case count =>
    refine fails_bind.mpr ⟨fails_flattenWith (fun _ => rfl) fun _ => rfl, ?_⟩
    exact returns_of_forall fun xs => fails_pure
  case average =>
    refine fails_bind.mpr ⟨fails_sampleArguments _ fun _ => rfl, ?_⟩
    exact returns_of_forall fun xs => fails_finiteResult _ _
  case max | median | min =>
    refine fails_bind.mpr ⟨fails_sampleArguments _ fun _ => rfl, ?_⟩
    exact returns_of_forall fun xs => fails_pure
  case stdev | var =>
    refine fails_bind.mpr ⟨fails_floatArguments fun _ => rfl, returns_of_forall fun xs => ?_⟩
    refine fails_bind.mpr ⟨fails_varianceOf xs, returns_of_forall fun variance => ?_⟩
    exact fails_finiteResult _ _

/-- Joining blames the first argument without a text. -/
private theorem fails_concatenateFrom {index : Nat} {rest : List Value}
    (hrest : args.drop index = rest) (hsingle : ∀ v ∈ rest, v.isList = false)
    (hasks : ∀ index, asks? index = some .string) :
    Fails (FunctionError.Blames asks? args) (concatenateFrom index rest) := by
  induction rest generalizing index with
  | nil => exact fails_ok
  | cons v rest ih =>
    obtain ⟨hv, hothers⟩ := List.forall_mem_cons.mp hsingle
    have hplace : args[index]? = some v := by
      rw [← List.head?_drop, hrest, List.head?_cons]
    have hbehind : args.drop (index + 1) = rest := by
      rw [← List.tail_drop, hrest, List.tail_cons]
    have hconvert : v.convert .string = v.toText.map .string := rfl
    refine fails_bind.mpr ⟨fails_blame hconvert hplace hv (hasks index), ?_⟩
    refine returns_of_forall fun s => fails_bind.mpr ⟨ih hbehind hothers, ?_⟩
    exact returns_of_forall fun t => fails_pure

/-- A count is blamed only where it is given. -/
private theorem fails_countArgument {index : Nat} (h : index < args.length → HasSingle args index)
    (hasks : asks? index = some .integer) :
    Fails (FunctionError.Blames asks? args) (countArgument args index) := by
  rw [countArgument]
  split
  · exact fails_ok
  · rename_i hgiven
    have hindex := Nat.lt_of_not_le hgiven
    refine fails_bind.mpr ⟨fails_integerArgument (h hindex) hasks, returns_of_forall fun n => ?_⟩
    split
    · exact fails_error.mpr (.argument hindex (by simp) (by simp))
    · exact fails_pure

/-- The number of an occurrence is blamed only where it is given. -/
private theorem fails_instanceArgument (h : 3 < args.length → HasSingle args 3)
    (hasks : asks? 3 = some .integer) :
    Fails (FunctionError.Blames asks? args) (instanceArgument args) := by
  rw [instanceArgument]
  split
  · rename_i hgiven
    refine fails_bind.mpr ⟨fails_integerArgument (h hgiven) hasks, returns_of_forall fun n => ?_⟩
    split
    · exact fails_error.mpr (.argument hgiven (by simp) (by simp))
    · exact fails_pure
  · exact fails_ok

/-- The functions on texts blame arguments. -/
private theorem blamesArguments_stringFunctions : ∀ f ∈ stringFunctions, f.BlamesArguments := by
  simp only [stringFunctions, List.forall_mem_cons, List.not_mem_nil, false_imp_iff,
    implies_true, and_true]
  refine ⟨?concatenate, ?left, ?len, ?lower, ?mid, ?right, ?substitute, ?upper, ?value⟩
  all_goals refine Function.blamesArguments_of_singles (by decide) fun args hrequired hsingle => ?_
  case concatenate =>
    refine fails_bind.mpr ⟨fails_concatenateFrom rfl (fun v hv => ?_) fun _ => rfl,
      returns_of_forall fun s => fails_pure⟩
    obtain ⟨index, hindex, rfl⟩ := List.getElem_of_mem hv
    obtain ⟨u, hu, hkind⟩ := hsingle index hindex
    rw [List.getElem?_eq_getElem hindex] at hu
    obtain rfl := Option.some.inj hu
    exact hkind
  case value =>
    refine fails_bind.mpr ⟨fails_numberArgument (hsingle 0 hrequired) rfl, ?_⟩
    exact returns_of_forall fun x => fails_pure
  case len | lower | upper =>
    refine fails_bind.mpr ⟨fails_textArgument (hsingle 0 hrequired) rfl, ?_⟩
    exact returns_of_forall fun s => fails_pure
  case left | right =>
    refine fails_bind.mpr ⟨fails_textArgument (hsingle 0 hrequired) rfl,
      returns_of_forall fun s => ?_⟩
    refine fails_bind.mpr ⟨fails_countArgument (hsingle 1) rfl, ?_⟩
    exact returns_of_forall fun n => fails_pure
  case mid =>
    have hlength : 3 ≤ args.length := hrequired
    refine fails_bind.mpr ⟨fails_textArgument (hsingle 0 (by omega)) rfl,
      returns_of_forall fun s => ?_⟩
    refine fails_bind.mpr ⟨fails_integerArgument (hsingle 1 (by omega)) rfl,
      returns_of_forall fun start => ?_⟩
    refine fails_bind.mpr ⟨fails_integerArgument (hsingle 2 (by omega)) rfl,
      returns_of_forall fun n => ?_⟩
    split
    · exact fails_error.mpr (.argument (by omega) (by simp) (by simp))
    · split
      · exact fails_error.mpr (.argument (by omega) (by simp) (by simp))
      · exact fails_pure
  case substitute =>
    have hlength : 3 ≤ args.length := hrequired
    refine fails_bind.mpr ⟨fails_textArgument (hsingle 0 (by omega)) rfl,
      returns_of_forall fun s => ?_⟩
    refine fails_bind.mpr ⟨fails_textArgument (hsingle 1 (by omega)) rfl,
      returns_of_forall fun old => ?_⟩
    refine fails_bind.mpr ⟨fails_textArgument (hsingle 2 (by omega)) rfl,
      returns_of_forall fun new => ?_⟩
    refine fails_bind.mpr ⟨fails_instanceArgument (hsingle 3) rfl,
      returns_of_forall fun n => ?_⟩
    cases n <;> exact fails_pure

/-- The functions on conditions blame arguments. -/
private theorem blamesArguments_conditionFunctions :
    ∀ f ∈ conditionFunctions, f.BlamesArguments := by
  simp only [conditionFunctions, List.forall_mem_cons, List.not_mem_nil, false_imp_iff,
    implies_true, and_true]
  refine ⟨?all, ?choose, ?negation, ?any⟩
  case negation =>
    refine Function.blamesArguments_of_singles (by decide) fun args hrequired hsingle => ?_
    refine fails_bind.mpr ⟨fails_booleanArgument (hsingle 0 hrequired) rfl, ?_⟩
    exact returns_of_forall fun b => fails_pure
  all_goals intro args h
  case choose =>
    -- both alternatives are there, of whatever kind
    have hrequired := h.requiredCount_le
    rw [List.length_map] at hrequired
    have hlength : 3 ≤ args.length := hrequired
    obtain ⟨v, rest, rfl, hv, -⟩ := exists_cons_of_assignable h
    have hcondition : HasSingle (v :: rest) 0 := ⟨v, rfl, isList_of_accepts (by decide) hv⟩
    refine fails_bind.mpr ⟨fails_booleanArgument hcondition rfl,
      returns_of_forall fun condition => fails_argument ?_⟩
    split <;> omega
  case all | any =>
    refine fails_bind.mpr ⟨fails_flattenWith (fun _ => rfl) fun _ => rfl, ?_⟩
    exact returns_of_forall fun bs => fails_pure

private theorem fails_flattened {α : Type} {P : FunctionError → Prop}
    {xs : Except FlattenError (List α)} {pack : List α → Items} {result : Except FlattenError Items}
    (h : Fails P (xs.mapError FunctionError.ofFlatten)) (hresult : result = xs.map pack) :
    Fails P (result.mapError FunctionError.ofFlatten) := by
  subst hresult
  cases xs with
  | error e => exact fails_error.mpr (fails_error.mp h)
  | ok xs => exact fails_ok

/-- A function that builds a list blames the argument with the first scalar that does not
convert. -/
private theorem blamesArguments_builder {name summary : String} {target : ScalarKind}
    (hasks : ∀ index, Library.asks? name index = some target) :
    (builder name summary target).BlamesArguments := by
  intro args _
  have hflatten : Fails (FunctionError.Blames (asks? name) args)
      ((flatten target args).mapError FunctionError.ofFlatten) := by
    cases target with
    | float => exact fails_flattened (fails_flattenWith (fun _ => rfl) hasks) rfl
    | integer => exact fails_flattened (fails_flattenWith (fun _ => rfl) hasks) rfl
    | string => exact fails_flattened (fails_flattenWith (fun _ => rfl) hasks) rfl
    | boolean => exact fails_flattened (fails_flattenWith (fun _ => rfl) hasks) rfl
  change Fails (FunctionError.Blames (asks? name) args) (build target args)
  rw [build_eq]
  exact fails_bind.mpr ⟨hflatten, returns_of_forall fun items => fails_ok⟩

/-- An element that is not there is blamed on the argument with a number. -/
private theorem fails_elementOr {element : Option Value} {index : Nat} {fault : ArgumentFault}
    (hindex : index < args.length) (hmissing : fault ≠ .missing) (hlist : fault ≠ .notList) :
    Fails (FunctionError.Blames asks? args) (elementOr element (index + 1) fault) := by
  cases element with
  | none => exact fails_error.mpr (.argument hindex hmissing hlist)
  | some v => exact fails_ok

/-- The functions on lists blame arguments. -/
private theorem blamesArguments_sequenceFunctions : ∀ f ∈ sequenceFunctions, f.BlamesArguments := by
  simp only [sequenceFunctions, List.forall_mem_cons, List.not_mem_nil, false_imp_iff,
    implies_true, and_true]
  refine ⟨blamesArguments_builder fun _ => rfl, ?first, blamesArguments_builder fun _ => rfl,
    blamesArguments_builder fun _ => rfl, ?last, ?joinElements, ?nth,
    blamesArguments_builder fun _ => rfl⟩
  all_goals
    intro args h
    obtain ⟨items, rest, rfl, hrest⟩ := exists_list_of_assignable h
    refine fails_bind.mpr ⟨fails_listArgument rfl, returns_of_forall fun elements => ?_⟩
  case first | last => exact fails_elementOr (Nat.succ_pos _) (by simp) (by simp)
  case joinElements =>
    obtain ⟨v, rest, rfl, hv, -⟩ := exists_cons_of_assignable hrest
    have hseparator : HasSingle (.list items :: v :: rest) 1 :=
      ⟨v, rfl, isList_of_accepts (by decide) hv⟩
    refine fails_bind.mpr ⟨fails_textArgument hseparator rfl, ?_⟩
    exact returns_of_forall fun separator => fails_pure
  case nth =>
    obtain ⟨v, rest, rfl, hv, -⟩ := exists_cons_of_assignable hrest
    have hposition : HasSingle (.list items :: v :: rest) 1 :=
      ⟨v, rfl, isList_of_accepts (by decide) hv⟩
    have hindex : 1 < (.list items :: v :: rest : List Value).length :=
      Nat.succ_lt_succ (Nat.succ_pos _)
    refine fails_bind.mpr ⟨fails_integerArgument hposition rfl,
      returns_of_forall fun position => ?_⟩
    split
    · exact fails_error.mpr (.argument hindex (by simp) (by simp))
    · exact fails_elementOr hindex (by simp) (by simp)

/-- On arguments that match, the failures of the functions of the library are about these. -/
theorem blamesArguments_of_mem [Binary64.Logarithms] {f : Function}
    (h : f ∈ functions) : f.BlamesArguments := by
  simp only [functions, List.mem_append] at h
  rcases h with (((h | h) | h) | h) | h
  · exact blamesArguments_numberFunctions f h
  · exact blamesArguments_sampleFunctions f h
  · exact blamesArguments_stringFunctions f h
  · exact blamesArguments_conditionFunctions f h
  · exact blamesArguments_sequenceFunctions f h

/-- A failure on arguments that match the signature names one of these, if it names any. A failed
conversion is that of the argument it names, or of the first element of it that does not convert, to
the kind that the function asks for there. No argument is said to be missing or not to be a list. -/
theorem failures_name_arguments [Binary64.Logarithms] {f : Function} (hf : f ∈ functions)
    {args : List Value} {k : StaticKind}
    (hcheck : f.checkArguments (args.map fun v => .known v.kind) = .ok k) {e : FunctionError}
    (h : f.body args = .error e) :
    (∀ ordinal, e.ordinal? = some ordinal → 1 ≤ ordinal ∧ ordinal ≤ args.length) ∧
      (∀ ordinal source, e = .conversion ordinal source → ∃ v target,
        args[ordinal - 1]? = some v ∧ Library.asks? f.name (ordinal - 1) = some target ∧
          v.FailsAs target source) ∧
      ∀ ordinal fault, e = .argument ordinal fault → fault ≠ .missing ∧ fault ≠ .notList := by
  obtain ⟨hmatch, -⟩ := Function.checkArguments_ok_iff.mp hcheck
  have hblames := blamesArguments_of_mem hf args (assignable_of_matchArguments hmatch) e h
  cases hblames with
  | arithmetic fault => exact ⟨nofun, nofun, nofun⟩
  | argument hindex hmissing hlist =>
    refine ⟨fun ordinal hordinal => ?_, nofun, fun ordinal fault hfault => ?_⟩
    · obtain rfl := Option.some.inj hordinal
      exact ⟨Nat.succ_pos _, hindex⟩
    · obtain ⟨rfl, rfl⟩ := FunctionError.argument.inj hfault
      exact ⟨hmissing, hlist⟩
  | conversion hv hasks hfails =>
    refine ⟨fun ordinal hordinal => ?_, fun ordinal source hsource => ?_, nofun⟩
    · obtain rfl := Option.some.inj hordinal
      exact ⟨Nat.succ_pos _, (List.getElem?_eq_some_iff.mp hv).1⟩
    · obtain ⟨rfl, rfl⟩ := FunctionError.conversion.inj hsource
      exact ⟨_, _, hv, hasks, hfails⟩

/-- The list of integers from the scalars of a number and a list of texts fails at the list, for its
second element. -/
theorem failures_name_arguments_of_element :
    ∃ f ∈ functions, f.name = "ILIST" ∧
      let args := [.integer 1, .list (.strings ["2", "x", "y"])]
      let source := ⟨"\"x\"", .integer⟩
      f.checkArguments (args.map fun v => .known v.kind) = .ok (.known (.list .integer)) ∧
        f.body args = .error (.conversion 2 source) ∧
          ∃ v target, args[2 - 1]? = some v ∧ Library.asks? f.name (2 - 1) = some target ∧
            v.FailsAs target source := by
  let integers := functions.get ⟨35, by decide⟩
  have hmem : integers ∈ functions := List.get_mem _ _
  have hbody : integers.body [.integer 1, .list (.strings ["2", "x", "y"])] =
      .error (.conversion 2 ⟨"\"x\"", .integer⟩) := by decide +kernel
  exact ⟨_, hmem, rfl, rfl, hbody, (failures_name_arguments hmem rfl hbody).2.1 2 _ rfl⟩

end Library

end TypedFormula
