import Mathlib
import TypedFormula.Proofs.Library

/-!
# Flattened arguments

Arguments are flattened to the sequence of their scalars, and every scalar is converted by itself.
So the result is the map of the conversion over the sequence, and it is a list of values of the kind
asked for, which `map_values_flatten` says for all kinds at once. A failure is different: the scalar
that fails is the first one of the sequence, but what is reported is the argument that it is in.

A function that goes on with the converted scalars alone (`Function.Gathers`) does not see how they
were arranged into arguments. Only the index in a failure tells that, so arrangements agree in
whether there is a value, and in the value.

Main statements:

* `flatten_ok_iff`, `flatten_error_iff` — when arguments are flattened, and what is said if not;
* `Library.gathers_of_mem` — the functions on any number of arguments see the scalars alone;
* `Library.flattening_sees_scalars` — flattening, the functions on it, and building a list twice.
-/

namespace TypedFormula

variable {α β : Type} {convert : Value → Except ConversionError α} {args : List Value}

/-! ### The first failure -/

/-- A conversion of a sequence fails with the failure of a scalar before which all others
convert. -/
theorem convertAll_error_iff {vs : List Value} {e : ConversionError} :
    convertAll convert vs = .error e ↔
      ∃ before v after, vs = before ++ v :: after ∧ (∀ u ∈ before, ∃ x, convert u = .ok x) ∧
        convert v = .error e := by
  induction vs with
  | nil => simp [convertAll]
  | cons w vs ih =>
    cases hw : convert w with
    | error d =>
      have hall : convertAll convert (w :: vs) = .error d := by
        rw [convertAll, hw]
        rfl
      rw [hall]
      constructor
      · intro h
        obtain rfl := Except.error.inj h
        exact ⟨[], w, vs, rfl, List.forall_mem_nil _, hw⟩
      · rintro ⟨before, v, after, hsplit, hbefore, hv⟩
        cases before with
        | nil =>
          obtain ⟨rfl, -⟩ := List.cons.inj hsplit
          rw [Except.error.inj (hw.symm.trans hv)]
        | cons u before =>
          obtain ⟨rfl, -⟩ := List.cons.inj hsplit
          obtain ⟨x, hx⟩ := hbefore w List.mem_cons_self
          rw [hw] at hx
          cases hx
    | ok x =>
      have hall : convertAll convert (w :: vs) = .error e ↔ convertAll convert vs = .error e := by
        rw [convertAll, hw]
        cases convertAll convert vs <;> simp [bind, Except.bind, pure, Except.pure]
      rw [hall, ih]
      constructor
      · rintro ⟨before, v, after, rfl, hbefore, hv⟩
        exact ⟨w :: before, v, after, rfl, List.forall_mem_cons.mpr ⟨⟨x, hw⟩, hbefore⟩, hv⟩
      · rintro ⟨before, v, after, hsplit, hbefore, hv⟩
        cases before with
        | nil =>
          obtain ⟨rfl, -⟩ := List.cons.inj hsplit
          rw [hw] at hv
          cases hv
        | cons u before =>
          obtain ⟨rfl, rfl⟩ := List.cons.inj hsplit
          exact ⟨before, v, after, rfl, (List.forall_mem_cons.mp hbefore).2, hv⟩

private theorem exists_of_convertAll_ok {vs : List Value} {xs : List α}
    (h : convertAll convert vs = .ok xs) : ∀ v ∈ vs, ∃ x, convert v = .ok x := by
  intro v hv
  have hmem : convert v ∈ xs.map (.ok : α → Except ConversionError α) := by
    rw [← convertAll_ok_iff.mp h]
    exact List.mem_map_of_mem hv
  obtain ⟨x, -, hx⟩ := List.mem_map.mp hmem
  exact ⟨x, hx.symm⟩

/-- Flattening fails with the failure of the first argument that has a scalar which does not
convert. -/
theorem flattenFrom_error_iff {index : ℕ} {e : FlattenError} :
    flattenFrom convert index args = .error e ↔
      ∃ earlier arg later, args = earlier ++ arg :: later ∧
        (∀ u ∈ earlier.flatMap Value.scalars, ∃ x, convert u = .ok x) ∧
        convertAll convert arg.scalars = .error e.source ∧ e.index = index + earlier.length := by
  induction args generalizing index with
  | nil => simp [flattenFrom]
  | cons w args ih =>
    cases hw : convertAll convert w.scalars with
    | error d =>
      rw [flattenFrom, hw]
      constructor
      · intro h
        obtain rfl := Except.error.inj h
        exact ⟨[], w, args, rfl, List.forall_mem_nil _, hw, rfl⟩
      · rintro ⟨earlier, arg, later, hsplit, hearlier, harg, hindex⟩
        cases earlier with
        | nil =>
          obtain ⟨rfl, -⟩ := List.cons.inj hsplit
          obtain rfl := Except.error.inj (hw.symm.trans harg)
          have hsame : (⟨index, e.source⟩ : FlattenError) = e := by
            rw [← Nat.add_zero index]
            exact congrArg (FlattenError.mk · e.source) hindex.symm
          exact congrArg Except.error hsame
        | cons u earlier =>
          obtain ⟨rfl, -⟩ := List.cons.inj hsplit
          obtain ⟨before, v, after, hscalars, -, hv⟩ := convertAll_error_iff.mp hw
          have hmem : v ∈ (w :: earlier).flatMap Value.scalars := by
            rw [List.flatMap_cons, hscalars]
            simp
          obtain ⟨x, hx⟩ := hearlier v hmem
          rw [hv] at hx
          cases hx
    | ok xs =>
      have hrest : flattenFrom convert index (w :: args) = .error e ↔
          flattenFrom convert (index + 1) args = .error e := by
        rw [flattenFrom, hw]
        cases flattenFrom convert (index + 1) args <;> simp [bind, Except.bind, pure, Except.pure]
      rw [hrest, ih]
      constructor
      · rintro ⟨earlier, arg, later, rfl, hearlier, harg, hindex⟩
        refine ⟨w :: earlier, arg, later, rfl, ?_, harg, ?_⟩
        · rw [List.flatMap_cons, List.forall_mem_append]
          exact ⟨exists_of_convertAll_ok hw, hearlier⟩
        · rw [hindex, List.length_cons]
          omega
      · rintro ⟨earlier, arg, later, hsplit, hearlier, harg, hindex⟩
        cases earlier with
        | nil =>
          obtain ⟨rfl, -⟩ := List.cons.inj hsplit
          rw [hw] at harg
          cases harg
        | cons u earlier =>
          obtain ⟨rfl, rfl⟩ := List.cons.inj hsplit
          rw [List.flatMap_cons, List.forall_mem_append] at hearlier
          refine ⟨earlier, arg, later, rfl, hearlier.2, harg, ?_⟩
          rw [hindex, List.length_cons]
          omega

/-! ### Lists over a kind -/

private theorem convertAll_map (wrap : α → β) (vs : List Value) :
    convertAll (fun v => (convert v).map wrap) vs =
      (convertAll convert vs).map (List.map wrap) := by
  induction vs with
  | nil => rfl
  | cons v vs ih =>
    rw [convertAll, convertAll, ih]
    cases convert v with
    | error e => rfl
    | ok x => cases convertAll convert vs <;> rfl

/-- A function of the results of single conversions is one of the flattened arguments. -/
private theorem flattenFrom_map (wrap : α → β) (index : ℕ) (args : List Value) :
    flattenFrom (fun v => (convert v).map wrap) index args =
      (flattenFrom convert index args).map (List.map wrap) := by
  induction args generalizing index with
  | nil => rfl
  | cons v args ih =>
    rw [flattenFrom, flattenFrom, convertAll_map, ih]
    cases convertAll convert v.scalars with
    | error e => rfl
    | ok xs =>
      cases flattenFrom convert (index + 1) args with
      | error e => rfl
      | ok ys => exact congrArg Except.ok List.map_append.symm

/-- The elements of a list over a kind are the conversions to this kind. -/
theorem map_values_flatten (target : ScalarKind) (args : List Value) :
    (flatten target args).map Items.values = flattenWith (Value.convert target) args := by
  have hwrap : ∀ {γ : Type} (conv : Value → Except ConversionError γ) (wrap : γ → Value)
      (pack : List γ → Items), (∀ xs, (pack xs).values = xs.map wrap) →
      ((flattenWith conv args).map pack).map Items.values =
        flattenWith (fun v => (conv v).map wrap) args := by
    intro γ conv wrap pack hpack
    rw [flattenWith, flattenWith, flattenFrom_map]
    cases flattenFrom conv 0 args with
    | error e => rfl
    | ok xs => exact congrArg Except.ok (hpack xs)
  cases target with
  | float => exact hwrap Value.toNumber .float .floats fun _ => rfl
  | integer => exact hwrap Value.toInteger .integer .integers fun _ => rfl
  | string => exact hwrap Value.toText .string .strings fun _ => rfl
  | boolean => exact hwrap Value.toBoolean .boolean .booleans fun _ => rfl

private theorem Items.eq_of_values {xs ys : Items} (helement : xs.element = ys.element)
    (hvalues : xs.values = ys.values) : xs = ys := by
  cases xs <;> cases ys <;> cases helement
  · exact congrArg floats ((List.map_inj_right fun _ _ => Value.float.inj).mp hvalues)
  · exact congrArg integers ((List.map_inj_right fun _ _ => Value.integer.inj).mp hvalues)
  · exact congrArg strings ((List.map_inj_right fun _ _ => Value.string.inj).mp hvalues)
  · exact congrArg booleans ((List.map_inj_right fun _ _ => Value.boolean.inj).mp hvalues)

variable {target : ScalarKind} {items : Items}

/-- Arguments are flattened to a list exactly when this has the kind asked for and its elements are
the conversions of the scalars in order. -/
theorem flatten_ok_iff :
    flatten target args = .ok items ↔
      items.element = target ∧
        (args.flatMap Value.scalars).map (Value.convert target) = items.values.map .ok := by
  have hvalues := map_values_flatten target args
  have hok : flattenWith (Value.convert target) args = .ok items.values ↔
      (args.flatMap Value.scalars).map (Value.convert target) = items.values.map .ok :=
    flattenFrom_ok_iff
  rw [← hok]
  constructor
  · intro h
    rw [h] at hvalues
    exact ⟨element_of_flatten h, hvalues.symm⟩
  · rintro ⟨helement, hitems⟩
    rw [hitems] at hvalues
    cases hflatten : flatten target args with
    | error e =>
      rw [hflatten] at hvalues
      cases hvalues
    | ok others =>
      rw [hflatten] at hvalues
      have hsame : others.element = items.element :=
        (element_of_flatten hflatten).trans helement.symm
      rw [Items.eq_of_values hsame (Except.ok.inj hvalues)]

/-- Arguments are not flattened exactly when one has a scalar that does not convert. The first such
argument is named, and the failure is that of its first such scalar. -/
theorem flatten_error_iff {e : FlattenError} :
    flatten target args = .error e ↔
      ∃ earlier arg later before v after, args = earlier ++ arg :: later ∧
        arg.scalars = before ++ v :: after ∧
        (∀ u ∈ earlier.flatMap Value.scalars ++ before, ∃ w, u.convert target = .ok w) ∧
        v.convert target = .error e.source ∧ e.index = earlier.length := by
  have herror : flatten target args = .error e ↔
      flattenFrom (Value.convert target) 0 args = .error e := by
    rw [← flattenWith, ← map_values_flatten]
    cases flatten target args <;> simp [Except.map]
  rw [herror, flattenFrom_error_iff]
  constructor
  · rintro ⟨earlier, arg, later, rfl, hearlier, harg, hindex⟩
    obtain ⟨before, v, after, hscalars, hbefore, hv⟩ := convertAll_error_iff.mp harg
    refine ⟨earlier, arg, later, before, v, after, rfl, hscalars, ?_, hv, by omega⟩
    exact List.forall_mem_append.mpr ⟨hearlier, hbefore⟩
  · rintro ⟨earlier, arg, later, before, v, after, rfl, hscalars, hsucceed, hv, hindex⟩
    obtain ⟨hearlier, hbefore⟩ := List.forall_mem_append.mp hsucceed
    refine ⟨earlier, arg, later, rfl, hearlier, ?_, by omega⟩
    exact convertAll_error_iff.mpr ⟨before, v, after, hscalars, hbefore, hv⟩

private theorem flatten_list : flatten items.element [.list items] = .ok items := by
  rw [flatten_ok_iff, List.flatMap_singleton]
  refine ⟨rfl, List.map_congr_left fun v hv => ?_⟩
  exact Value.convert_of_kind (Items.element_of_mem_values hv)

/-- A value of a scalar kind is its only scalar. -/
private theorem scalars_of_kind {v : Value} (h : v.kind = .scalar target) : v.scalars = [v] := by
  cases v with
  | list items => cases h
  | _ => rfl

/-- Values of one kind are the elements of a list. -/
private theorem exists_values_eq {vs : List Value} (h : ∀ v ∈ vs, v.kind = .scalar target) :
    ∃ items : Items, items.element = target ∧ items.values = vs := by
  have hscalars : vs.flatMap Value.scalars = vs := by
    rw [List.flatMap_congr fun v hv => scalars_of_kind (h v hv), List.flatMap_singleton']
  cases hflatten : flatten target vs with
  | ok items =>
    obtain ⟨helement, hitems⟩ := flatten_ok_iff.mp hflatten
    rw [hscalars, List.map_congr_left fun v hv => Value.convert_of_kind (h v hv)] at hitems
    exact ⟨items, helement, ((List.map_inj_right fun _ _ => Except.ok.inj).mp hitems).symm⟩
  | error e =>
    obtain ⟨earlier, arg, later, before, v, after, rfl, hsplit, -, hv, -⟩ :=
      flatten_error_iff.mp hflatten
    have hmem : arg ∈ earlier ++ arg :: later := List.mem_append_right _ List.mem_cons_self
    have hself : [arg] = before ++ v :: after := (scalars_of_kind (h arg hmem)).symm.trans hsplit
    obtain ⟨rfl, hcons⟩ := List.append_eq_singleton_iff.mp hself.symm |>.resolve_right nofun
    obtain ⟨rfl, -⟩ := List.cons.inj hcons
    rw [Value.convert_of_kind (h v hmem)] at hv
    cases hv

private theorem flatMap_scalars_list (earlier later : List Value) (items : Items) :
    (earlier ++ .list items :: later).flatMap Value.scalars =
      (earlier ++ items.values ++ later).flatMap Value.scalars := by
  have hvalues : items.values.flatMap Value.scalars = items.values := by
    rw [List.flatMap_congr fun v hv => scalars_of_kind (Items.element_of_mem_values hv),
      List.flatMap_singleton']
  rw [List.flatMap_append, List.flatMap_append, List.flatMap_append, List.flatMap_cons, hvalues,
    List.append_assoc]
  rfl

/-! ### Functions of the scalars -/

/-- The body of a function converts the scalars of all arguments, and goes on with the conversions
alone. -/
def Function.Gathers (f : Function) : Prop :=
  ∃ (α : Type) (convert : Value → Except ConversionError α)
    (result : List α → Except FunctionError Value),
    ∀ args, f.body args = (flattenWith convert args).mapError .ofFlatten >>= result

/-- Arguments with the same scalars are flattened to the same values, if to any. -/
private theorem toOption_flattenWith {others : List Value}
    (h : args.flatMap Value.scalars = others.flatMap Value.scalars) :
    (flattenWith convert args).toOption = (flattenWith convert others).toOption := by
  have hok : ∀ xs, flattenWith convert args = .ok xs ↔ flattenWith convert others = .ok xs := by
    intro xs
    rw [flattenWith, flattenWith, flattenFrom_ok_iff, flattenFrom_ok_iff, h]
  cases hargs : flattenWith convert args with
  | ok xs => rw [(hok xs).mp hargs]
  | error e =>
    cases hothers : flattenWith convert others with
    | ok xs =>
      rw [(hok xs).mpr hothers] at hargs
      cases hargs
    | error d => rfl

private theorem Function.Gathers.toOption_body {f : Function} (hf : f.Gathers) {others : List Value}
    (h : args.flatMap Value.scalars = others.flatMap Value.scalars) :
    (f.body args).toOption = (f.body others).toOption := by
  obtain ⟨α, convert, result, hbody⟩ := hf
  have hbind : ∀ args : List Value, (f.body args).toOption =
      (flattenWith convert args).toOption.bind fun xs => (result xs).toOption := by
    intro args
    rw [hbody]
    cases flattenWith convert args <;> rfl
  rw [hbind, hbind, toOption_flattenWith h]

namespace Library

/-- The names of the functions that build lists. -/
def building : List String := ["FLIST", "ILIST", "SLIST", "BLIST"]

/-- The names of the functions that take any number of arguments. -/
def gathering : List String :=
  ["SUM", "PRODUCT", "AVERAGE", "COUNT", "MAX", "MIN", "MEDIAN", "VAR", "STDEV", "AND", "OR"] ++
    building

private theorem gathers_of_numberArguments {f : Function}
    {result : List Number → Except FunctionError Value}
    (h : ∀ args, f.body args = numberArguments args >>= result) : f.Gathers :=
  ⟨Number, Value.toNumber, result, h⟩

private theorem gathers_of_floatArguments {f : Function}
    {result : List Float → Except FunctionError Value}
    (h : ∀ args, f.body args = floatArguments args >>= result) : f.Gathers := by
  refine ⟨Number, Value.toNumber, fun xs => result (xs.map Number.value), fun args => ?_⟩
  change _ = numberArguments args >>= _
  rw [h, floatArguments]
  cases numberArguments args <;> rfl

/-- A function of a sample goes on with all numbers, of which there is one at least. -/
private theorem gathers_of_sampleArguments {f : Function} {statistic : String}
    {result : List Number → Except FunctionError Value}
    (h : ∀ args, f.body args = sampleArguments statistic args >>= result) : f.Gathers := by
  refine ⟨Number, Value.toNumber, fun xs => if xs.isEmpty then
    .error (.arithmetic (.noNumbers statistic)) else result xs, fun args => ?_⟩
  change _ = numberArguments args >>= _
  rw [h, sampleArguments]
  cases numberArguments args with
  | error e => rfl
  | ok xs => cases xs <;> rfl

theorem build_eq (target : ScalarKind) (args : List Value) :
    build target args =
      (flatten target args).mapError .ofFlatten >>= fun items => .ok (.list items) := by
  rw [build]
  cases flatten target args <;> rfl

/-- A function that builds a list goes on with its elements. -/
private theorem gathers_builder (name summary : String) (target : ScalarKind) :
    (builder name summary target).Gathers := by
  have hbuild : ∀ {γ : Type} (conv : Value → Except ConversionError γ) (pack : List γ → Items),
      (∀ args, flatten target args = (flattenWith conv args).map pack) →
        (builder name summary target).Gathers := by
    intro γ conv pack hflatten
    refine ⟨γ, conv, fun xs => .ok (.list (pack xs)), fun args => ?_⟩
    change build target args = _
    rw [build_eq, hflatten]
    cases flattenWith conv args <;> rfl
  cases target with
  | float => exact hbuild Value.toNumber .floats fun _ => rfl
  | integer => exact hbuild Value.toInteger .integers fun _ => rfl
  | string => exact hbuild Value.toText .strings fun _ => rfl
  | boolean => exact hbuild Value.toBoolean .booleans fun _ => rfl

private theorem gathers_numberFunctions [Binary64.Logarithms] :
    ∀ f ∈ numberFunctions, f.name ∈ gathering → f.Gathers := by
  simp only [numberFunctions, List.forall_mem_cons, List.not_mem_nil, false_imp_iff,
    implies_true, and_true]
  refine ⟨?_, ?_, ?_, ?_, ?_, ?_, fun _ => ?product, ?_, ?_, ?_, fun _ => ?sum, ?_⟩
  case product => exact gathers_of_floatArguments fun _ => rfl
  case sum => exact gathers_of_floatArguments fun _ => rfl
  all_goals exact fun h => absurd h (by simp only [floatFunction]; decide)

private theorem gathers_sampleFunctions : ∀ f ∈ sampleFunctions, f.Gathers := by
  simp only [sampleFunctions, List.forall_mem_cons, List.not_mem_nil, false_imp_iff,
    implies_true, and_true]
  refine ⟨?average, ?count, ?max, ?median, ?min, ?stdev, ?var⟩
  case count => exact gathers_of_numberArguments fun _ => rfl
  case stdev => exact gathers_of_floatArguments fun _ => rfl
  case var => exact gathers_of_floatArguments fun _ => rfl
  all_goals exact gathers_of_sampleArguments fun _ => rfl

private theorem gathers_conditionFunctions :
    ∀ f ∈ conditionFunctions, f.name ∈ gathering → f.Gathers := by
  simp only [conditionFunctions, List.forall_mem_cons, List.not_mem_nil, false_imp_iff,
    implies_true, and_true]
  refine ⟨fun _ => ?all, ?_, ?_, fun _ => ?any⟩
  case all => exact ⟨Bool, Value.toBoolean, fun bs => .ok (.boolean (bs.all id)), fun _ => rfl⟩
  case any => exact ⟨Bool, Value.toBoolean, fun bs => .ok (.boolean (bs.any id)), fun _ => rfl⟩
  all_goals exact fun h => absurd h (by decide)

private theorem gathers_sequenceFunctions :
    ∀ f ∈ sequenceFunctions, f.name ∈ gathering → f.Gathers := by
  simp only [sequenceFunctions, List.forall_mem_cons, List.not_mem_nil, false_imp_iff,
    implies_true, and_true]
  refine ⟨?boolean, ?_, ?float, ?integer, ?_, ?_, ?_, ?string⟩
  case boolean | float | integer | string => exact fun _ => gathers_builder _ _ _
  all_goals exact fun h => absurd h (by decide)

/-- The functions on any number of arguments see the scalars alone. -/
theorem gathers_of_mem [Binary64.Logarithms] :
    ∀ f ∈ functions, f.name ∈ gathering → f.Gathers := by
  have htexts : ∀ f ∈ stringFunctions, f.name ∉ gathering := by decide
  intro f hf hname
  simp only [functions, List.mem_append] at hf
  rcases hf with (((hf | hf) | hf) | hf) | hf
  · exact gathers_numberFunctions f hf hname
  · exact gathers_sampleFunctions f hf
  · exact absurd hname (htexts f hf)
  · exact gathers_conditionFunctions f hf hname
  · exact gathers_sequenceFunctions f hf hname

/-- The functions that build lists have one body with a parameter. -/
private theorem exists_body_eq_build [Binary64.Logarithms] :
    ∀ f ∈ functions, f.name ∈ building → ∃ target, f.body = build target := by
  have hnames : (numberFunctions ++ sampleFunctions ++ stringFunctions ++ conditionFunctions).map
      Function.name = names.take 32 := rfl
  have hothers : ∀ f ∈ numberFunctions ++ sampleFunctions ++ stringFunctions ++ conditionFunctions,
      f.name ∉ building := by
    rw [← List.forall_mem_map (f := Function.name) (P := (· ∉ building)), hnames]
    decide
  have hsequences : ∀ f ∈ sequenceFunctions, f.name ∈ building →
      ∃ target, f.body = build target := by
    simp only [sequenceFunctions, List.forall_mem_cons, List.not_mem_nil, false_imp_iff,
      implies_true, and_true]
    refine ⟨?boolean, ?_, ?float, ?integer, ?_, ?_, ?_, ?string⟩
    case boolean | float | integer | string => exact fun _ => ⟨_, rfl⟩
    all_goals exact fun h => absurd h (by decide)
  intro f hf hname
  obtain hf | hf := List.mem_append.mp hf
  · exact absurd hname (hothers f hf)
  · exact hsequences f hf hname

private theorem build_bind_build (target : ScalarKind) (args : List Value) :
    (build target args >>= fun v => build target [v]) = build target args := by
  rw [build_eq]
  cases h : flatten target args with
  | error e => rfl
  | ok items =>
    have hagain : flatten target [.list items] = .ok items := element_of_flatten h ▸ flatten_list
    change build target [.list items] = .ok (.list items)
    rw [build_eq, hagain]
    rfl

/-- Flattening converts the scalars of the arguments in order, or tells the first argument with a
scalar that does not convert and why its first one does not. The functions on it have the same value
for all arguments with the same scalars, whether these stand alone or in lists, and a list that is
built from a built one is the same list. -/
theorem flattening_sees_scalars [Binary64.Logarithms] :
    (∀ (k : Kind) (args : List Value) (items : Items), flatten k.element args = .ok items ↔
      items.element = k.element ∧
        (args.flatMap Value.scalars).map (Value.convert k.element) = items.values.map .ok) ∧
    (∀ (k : Kind) (args : List Value) (e : FlattenError), flatten k.element args = .error e ↔
      ∃ earlier arg later before v after, args = earlier ++ arg :: later ∧
        arg.scalars = before ++ v :: after ∧
        (∀ u ∈ earlier.flatMap Value.scalars ++ before, ∃ w, u.convert k.element = .ok w) ∧
        v.convert k.element = .error e.source ∧ e.index = earlier.length) ∧
    (∀ f ∈ functions, f.name ∈ gathering →
      (∀ args others : List Value,
        args.flatMap Value.scalars = others.flatMap Value.scalars →
          (f.body args).toOption = (f.body others).toOption) ∧
      (∀ (earlier later : List Value) (items : Items),
        (f.body (earlier ++ .list items :: later)).toOption =
          (f.body (earlier ++ items.values ++ later)).toOption) ∧
      ∀ (k : ScalarKind) (earlier vs later : List Value), (∀ v ∈ vs, v.kind = .scalar k) →
        ∃ items : Items, items.element = k ∧ items.values = vs ∧
          (f.body (earlier ++ vs ++ later)).toOption =
            (f.body (earlier ++ .list items :: later)).toOption) ∧
    ∀ f ∈ functions, f.name ∈ building → ∀ args,
      (f.body args >>= fun v => f.body [v]) = f.body args := by
  refine ⟨fun k args items => flatten_ok_iff, fun k args e => flatten_error_iff,
    fun f hf hname => ?_, fun f hf hname args => ?_⟩
  · have hgathers := gathers_of_mem f hf hname
    refine ⟨fun args others h => hgathers.toOption_body h, fun earlier later items => ?_,
      fun k earlier vs later hvs => ?_⟩
    · exact hgathers.toOption_body (flatMap_scalars_list earlier later items)
    · obtain ⟨items, helement, rfl⟩ := exists_values_eq hvs
      exact ⟨items, helement, rfl,
        hgathers.toOption_body (flatMap_scalars_list earlier later items).symm⟩
  · obtain ⟨target, hbody⟩ := exists_body_eq_build f hf hname
    rw [hbody]
    exact build_bind_build target args

end Library

end TypedFormula
