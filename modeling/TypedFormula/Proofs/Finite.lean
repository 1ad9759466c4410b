import TypedFormula.Proofs.Binary64.Finite
import TypedFormula.Proofs.Library

/-!
# Which functions of the library overflow

Results that are infinite or no number are errors of the functions that test for them. The other
functions give what binary64 gives, and so it takes an argument for each of them that finite
arguments have finite results: because nothing is calculated, or because nothing gets larger, or
because the size of the result is known.

For two of them there is no such argument. The median of an even sample adds the two middle numbers
before it halves the sum, and rounding to places left of the point multiplies by a power of ten in
the end. Neither looks at the outcome. Where one of these two calculations leaves the range, and
only there (`Function.overflows`), finite arguments have a result that is not finite.

Main statements:

* `Function.Bounded` — a function with finite results, unless it overflows;
* `Library.bounded_of_mem` — the functions of the library are such.
-/

namespace TypedFormula

/-! ### Finite values -/

/-- Whether a number is neither infinite nor NaN. -/
def Number.isFinite (x : Number) : Bool := x.value.isFinite

/-- Whether all numbers of a value are finite. -/
def Value.isFinite : Value → Bool
  | float x => x.isFinite
  | list (.floats xs) => xs.all Number.isFinite
  | _ => true

namespace Number

variable {x y : Number}

@[simp] theorem isFinite_negativeNaN : negativeNaN.isFinite = false := rfl

private theorem isNaN_of_isFinite (h : x.isFinite = true) : x.isNaN = false :=
  Binary64.isNaN_of_isFinite h

/-- The result of a calculation is as finite as binary64 has it. -/
@[simp] theorem isFinite_ofResult (x : Float) : (ofResult x).isFinite = x.isFinite := by
  rw [ofResult]
  split
  · rename_i hnan
    cases hx : x.isFinite with
    | false => rfl
    | true =>
      rw [Binary64.isNaN_of_isFinite hx] at hnan
      cases hnan
  · rfl

private theorem isFinite_map {f : Float → Float} (h : x.isFinite = true) :
    (x.map f).isFinite = (f x.value).isFinite := by
  rw [map, isNaN_of_isFinite h]
  exact isFinite_ofResult _

private theorem isFinite_combine {op : Float → Float → Float} (hx : x.isFinite = true)
    (hy : y.isFinite = true) : (combine op x y).isFinite = (op x.value y.value).isFinite := by
  rw [combine, isNaN_of_isFinite hx, isNaN_of_isFinite hy]
  exact isFinite_ofResult _

/-- A number with the other sign is as finite. -/
theorem isFinite_negate (h : x.isFinite = true) : x.negate.isFinite = true := by
  cases x with
  | plain x =>
    have hnan : x.isNaN = false := Binary64.isNaN_of_isFinite h
    rw [negate, hnan]
    exact Binary64.isFinite_neg h
  | negativeNaN =>
    rw [isFinite_negativeNaN] at h
    cases h

end Number

namespace Value

variable {v w : Value}

@[simp] theorem isFinite_integer (n : Int64) : (integer n).isFinite = true := rfl

@[simp] theorem isFinite_string (s : String) : (string s).isFinite = true := rfl

@[simp] theorem isFinite_boolean (b : Bool) : (boolean b).isFinite = true := rfl

@[simp] theorem isFinite_floats (xs : List Number) :
    (list (.floats xs)).isFinite = true ↔ ∀ x ∈ xs, x.isFinite = true := List.all_eq_true

private theorem isFinite_of_mem_values {items : Items} (h : (list items).isFinite = true)
    (hv : v ∈ items.values) : v.isFinite = true := by
  cases items with
  | floats xs =>
    obtain ⟨x, hx, rfl⟩ := List.mem_map.mp hv
    exact (isFinite_floats xs).mp h x hx
  | _ =>
    obtain ⟨x, -, rfl⟩ := List.mem_map.mp hv
    rfl

private theorem isFinite_of_mem_scalars (h : v.isFinite = true) (hw : w ∈ v.scalars) :
    w.isFinite = true := by
  cases v with
  | list items => exact isFinite_of_mem_values h hw
  | _ => exact List.mem_singleton.mp hw ▸ h

end Value

/-! ### Conversions -/

theorem isFinite_ofInt_toInt (n : Int64) : (Binary64.ofInt n.toInt).isFinite = true := by
  have hle := n.le_toInt
  have hlt := n.toInt_lt
  exact Binary64.isFinite_ofInt (by omega)

theorem isFinite_of_readFinite? {chars : List Char} {x : Float}
    (h : Decimal.readFinite? chars = some x) : x.isFinite = true :=
  (Option.filter_eq_some_iff.mp h).2

/-- A finite value is a finite number, if it is one at all. -/
theorem Value.isFinite_of_toNumber {v : Value} {x : Number} (hv : v.isFinite = true)
    (hx : v.toNumber = .ok x) : x.isFinite = true := by
  cases v with
  | float y =>
    obtain rfl := Except.ok.inj hx
    exact hv
  | integer n =>
    obtain rfl := Except.ok.inj hx
    exact isFinite_ofInt_toInt n
  | boolean b =>
    obtain rfl := Except.ok.inj hx
    cases b <;> rfl
  | string s =>
    rw [toNumber] at hx
    cases hs : stringNumber? s with
    | none =>
      rw [hs] at hx
      cases hx
    | some y =>
      rw [hs] at hx
      obtain rfl := Except.ok.inj hx
      exact isFinite_of_readFinite? hs
  | list items => cases hx

/-! ### Arguments -/

/-- A sample has all numbers of the arguments, and is not empty. -/
private theorem Library.numberArguments_of_sampleArguments {statistic : String} {args : List Value}
    {xs : List Number} (h : sampleArguments statistic args = .ok xs) :
    numberArguments args = .ok xs ∧ xs ≠ [] := by
  rw [sampleArguments] at h
  cases hnumbers : numberArguments args with
  | error e =>
    rw [hnumbers] at h
    cases h
  | ok ys =>
    rw [hnumbers] at h
    cases ys with
    | nil => cases h
    | cons y ys =>
      obtain rfl := Except.ok.inj h
      exact ⟨rfl, nofun⟩

section

variable {args : List Value} (hargs : ∀ v ∈ args, v.isFinite = true)

include hargs

private theorem isFinite_of_flattenNumbers {xs : List Number} (h : flattenNumbers args = .ok xs) :
    ∀ x ∈ xs, x.isFinite = true := by
  intro x hx
  have hmem : .ok x ∈ (args.flatMap Value.scalars).map Value.toNumber := by
    rw [flattenFrom_ok_iff.mp h]
    exact List.mem_map_of_mem hx
  obtain ⟨w, hw, hnumber⟩ := List.mem_map.mp hmem
  obtain ⟨v, hv, hscalar⟩ := List.mem_flatMap.mp hw
  exact Value.isFinite_of_toNumber (Value.isFinite_of_mem_scalars (hargs v hv) hscalar) hnumber

/-- A list that is built from finite values is finite. -/
private theorem isFinite_of_flatten {target : ScalarKind} {items : Items}
    (h : flatten target args = .ok items) : (Value.list items).isFinite = true := by
  cases items with
  | floats xs =>
    obtain rfl : ScalarKind.float = target := element_of_flatten h
    have h : (flattenNumbers args).map Items.floats = .ok (.floats xs) := h
    cases hnumbers : flattenNumbers args with
    | error e =>
      rw [hnumbers] at h
      cases h
    | ok ys =>
      rw [hnumbers] at h
      obtain rfl := Items.floats.inj (Except.ok.inj h)
      exact (Value.isFinite_floats ys).mpr (isFinite_of_flattenNumbers hargs hnumbers)
  | _ => rfl

private theorem returns_finiteArgument (index : Nat) :
    Returns (fun v => v.isFinite = true) (argument args index) :=
  (returns_argument args index).mono fun v hv => hargs v (List.mem_of_getElem? hv)

private theorem returns_numberArgument (index : Nat) :
    Returns (fun x => x.isFinite = true) (numberArgument args index) := by
  refine returns_bind.mpr <| (returns_finiteArgument hargs index).mono fun v hv x hx => ?_
  exact Value.isFinite_of_toNumber hv (mapError_eq_ok_iff.mp hx)

private theorem returns_floatArgument (index : Nat) :
    Returns (fun x => x.isFinite = true) (floatArgument args index) := by
  refine returns_bind.mpr <| (returns_numberArgument hargs index).mono fun x hx => ?_
  exact returns_pure.mpr hx

private theorem returns_numberArguments :
    Returns (fun xs => ∀ x ∈ xs, x.isFinite = true) (numberArguments args) :=
  fun _ hxs => isFinite_of_flattenNumbers hargs (mapError_eq_ok_iff.mp hxs)

private theorem returns_sampleArguments (statistic : String) :
    Returns (fun xs => xs ≠ [] ∧ ∀ x ∈ xs, x.isFinite = true)
      (Library.sampleArguments statistic args) := by
  intro xs hxs
  obtain ⟨hnumbers, hne⟩ := Library.numberArguments_of_sampleArguments hxs
  exact ⟨hne, returns_numberArguments hargs xs hnumbers⟩

end

private theorem returns_self {α : Type} (result : Except FunctionError α) :
    Returns (fun a => result = .ok a) result := fun _ ha => ha

/-- A result that is tested is finite. -/
@[simp] theorem returns_isFinite_finiteResult (name : String) (x : Float) :
    Returns (fun v => v.isFinite = true) (finiteResult name x) := by
  rw [finiteResult]
  split
  · rename_i hx
    exact returns_ok.mpr hx
  · exact returns_error

/-! ### Overflow -/

namespace Library

/-- Whether the sum of the two middle numbers of an even sorted sample leaves the range. -/
def middleOverflows (xs : List Number) : Bool :=
  let half := xs.length / 2
  xs.length % 2 == 0 &&
    !((xs.getD (half - 1) (.plain 0)).value + (xs.getD half (.plain 0)).value).isFinite

/-- Whether the median of arguments has a sum that leaves the range. -/
def medianOverflows (args : List Value) : Bool :=
  match numberArguments args with
  | .ok xs => middleOverflows (Number.sorted xs)
  | .error _ => false

/-- Whether a number rounded to a multiple of a power of ten leaves the range. -/
def multipleOverflows (x : Float) (digits : Nat) : Bool :=
  let factor := Binary64.power 10 digits
  !(Binary64.integral .halfAway (x / factor) * factor).isFinite

/-- Whether rounding to places left of the point leaves the range. -/
def roundOverflows (args : List Value) : Bool :=
  match numberArgument args 0, integerArgument args 1 with
  | .ok x, .ok places =>
    decide (-308 ≤ places ∧ places < 0) && multipleOverflows x.value places.natAbs
  | _, _ => false

end Library

/-- Whether a function of the library leaves the range without noticing. -/
def Function.overflows (f : Function) (args : List Value) : Bool :=
  f.name == "MEDIAN" && Library.medianOverflows args ||
    f.name == "ROUND" && Library.roundOverflows args

/-- On finite arguments the result is finite, unless the function overflows. -/
def Function.Bounded (f : Function) : Prop :=
  ∀ args, (∀ v ∈ args, v.isFinite = true) →
    Returns (fun v => v.isFinite = !f.overflows args) (f.body args)

private theorem Function.bounded_of_returns {f : Function}
    (hname : f.name ≠ "MEDIAN" ∧ f.name ≠ "ROUND")
    (h : ∀ args, (∀ v ∈ args, v.isFinite = true) →
      Returns (fun v => v.isFinite = true) (f.body args)) : f.Bounded := by
  intro args hargs v hv
  have hnot : f.overflows args = false := by
    simp [overflows, hname.1, hname.2]
  rw [h args hargs v hv, hnot]
  rfl

namespace Library

open Binary64 (Logarithms HasSizeOfLogarithm)

variable {args : List Value}

/-! ### Numbers -/

private theorem isFinite_of_hasSizeOfLogarithm {x y : Float} (h : HasSizeOfLogarithm x y) :
    y.isFinite = true :=
  Binary64.isFinite_of_below (Binary64.bounds_of_hasSizeOfLogarithm h).1

/-- A quotient of logarithms is finite, since the divisor is not the logarithm of 1. -/
private theorem isFinite_logarithms [Logarithms] {x base : Float} (hx : x.isFinite = true)
    (hpos : ¬ x ≤ 0) (hbase : base.isFinite = true) (hpos' : ¬ base ≤ 0)
    (hne : Float.beq base 1 = false) :
    (Logarithms.natural x / Logarithms.natural base).isFinite = true := by
  have hdividend := Binary64.bounds_of_hasSizeOfLogarithm (Logarithms.natural_hasSize x hx hpos)
  have hdivisor :=
    Binary64.bounds_of_hasSizeOfLogarithm (Logarithms.natural_hasSize base hbase hpos')
  exact Binary64.isFinite_div hdividend.1 (hdivisor.2 hne) (by decide)

/-- Logarithms of finite numbers are finite. -/
private theorem returns_log [Logarithms] (hargs : ∀ v ∈ args, v.isFinite = true) :
    Returns (fun v => v.isFinite = true) (log args) := by
  have hten : (Number.plain 10).isFinite = true := rfl
  refine returns_bind.mpr <| (returns_numberArgument hargs 0).mono fun x hx => ?_
  extract_lets rest
  have hrest : ∀ base : Number, base.isFinite = true →
      Returns (fun v => v.isFinite = true) (rest base) := by
    intro base hbase
    simp only [rest]
    split
    · exact returns_error
    · rename_i hpos
      split
      · exact returns_error
      · rename_i hgood
        obtain ⟨hbad, hone⟩ := Bool.or_eq_false_iff.mp (Bool.eq_false_iff.mpr hgood)
        have hpos' := of_decide_eq_false hbad
        split
        · refine returns_pure.mpr ((Number.isFinite_map hx).trans ?_)
          exact isFinite_of_hasSizeOfLogarithm (Logarithms.decimal_hasSize _ hx hpos)
        · refine returns_pure.mpr ((Number.isFinite_combine hx hbase).trans ?_)
          exact isFinite_logarithms hx hpos hbase hpos' hone
  split
  · exact returns_bind.mpr ((returns_numberArgument hargs 1).mono hrest)
  · exact hrest _ hten

/-- Rounding a finite number to places right of the point is finite: scaling is undone if it
overflows, and otherwise a number without a fraction is divided by what it was scaled with. -/
private theorem isFinite_roundToPlaces {x : Float} {places : Int} (hx : x.isFinite = true)
    (hplaces : 0 ≤ places) : (roundToPlaces x places).isFinite = true := by
  rw [roundToPlaces, if_pos hplaces]
  simp only
  split
  · rename_i hscaled
    have hrounded : (Binary64.integral .halfAway
        (x * Binary64.power 10 places.natAbs)).isFinite = true :=
      Binary64.isFinite_integral hscaled
    by_cases hzero : places.natAbs = 0
    · rw [hzero, Binary64.power_zero] at hrounded ⊢
      exact Binary64.isFinite_div_one hrounded
    · exact Binary64.isFinite_div (Binary64.below_of_isFinite hrounded)
        (Binary64.reaches_power hzero) (by decide)
  · exact hx

/-- A finite number rounded to places is finite, unless a multiple of a power of ten leaves the
range. -/
private theorem isFinite_roundToPlaces_eq {x : Float} {places : Int} (hx : x.isFinite = true) :
    (roundToPlaces x places).isFinite =
      !(decide (places < 0) && multipleOverflows x places.natAbs) := by
  by_cases hplaces : 0 ≤ places
  · have hnot : decide (places < 0) = false := decide_eq_false (Int.not_lt.mpr hplaces)
    rw [isFinite_roundToPlaces hx hplaces, hnot]
    rfl
  · have hneg : decide (places < 0) = true := decide_eq_true (Int.not_le.mp hplaces)
    rw [roundToPlaces, if_neg hplaces, hneg, multipleOverflows]
    simp

/-- Rounding is not said to overflow where no places are given. -/
private theorem roundOverflows_of_length_le (h : args.length ≤ 1) :
    roundOverflows args = false := by
  have hplaces : integerArgument args 1 = .error (.argument 2 .missing) := by
    rw [integerArgument, argument, List.getElem?_eq_none h]
    rfl
  rw [roundOverflows, hplaces]
  cases numberArgument args 0 <;> rfl

/-- Rounding is finite unless it overflows. -/
private theorem returns_round (hargs : ∀ v ∈ args, v.isFinite = true) :
    Returns (fun v => v.isFinite = !roundOverflows args) (round args) := by
  refine returns_bind.mpr <| (returns_self (numberArgument args 0)).mono fun x hx => ?_
  have hfinite : x.isFinite = true := returns_numberArgument hargs 0 x hx
  extract_lets rest
  have hrest : ∀ places, roundOverflows args = (decide (-308 ≤ places ∧ places < 0) &&
        multipleOverflows x.value places.natAbs) →
      Returns (fun v => v.isFinite = !roundOverflows args) (rest places) := by
    intro places hoverflows
    simp only [rest]
    split
    · rename_i hrange
      refine returns_pure.mpr ((Number.isFinite_map hfinite).trans ?_)
      rw [isFinite_roundToPlaces_eq hfinite, hoverflows]
      simp only [hrange.1, true_and]
    · exact returns_error
  split
  · refine returns_bind.mpr fun places hplaces => hrest places ?_
    rw [roundOverflows, hx, hplaces]
  · rename_i hlength
    exact hrest 0 (roundOverflows_of_length_le (Nat.le_of_not_lt hlength))

private theorem bounded_round {summary : String} {parameters : List Parameter} :
    (floatFunction "ROUND" summary parameters round).Bounded := by
  intro args hargs
  refine (returns_round hargs).mono fun v hv => hv.trans ?_
  simp [Function.overflows, floatFunction]

/-- The functions on numbers are bounded. -/
private theorem bounded_numberFunctions [Logarithms] : ∀ f ∈ numberFunctions, f.Bounded := by
  simp only [numberFunctions, List.forall_mem_cons, List.not_mem_nil, false_imp_iff,
    implies_true, and_true]
  refine ⟨?abs, ?exp, ?ln, ?log, ?mod, ?pi, ?product, bounded_round, ?sign, ?sqrt, ?sum, ?trunc⟩
  all_goals refine Function.bounded_of_returns (by simp [floatFunction]) fun args hargs => ?_
  case abs =>
    refine returns_bind.mpr <| (returns_floatArgument hargs 0).mono fun x hx => ?_
    exact returns_pure.mpr (Binary64.isFinite_abs hx)
  case ln =>
    refine returns_bind.mpr <| (returns_numberArgument hargs 0).mono fun x hx => ?_
    split
    · exact returns_error
    · rename_i hpos
      refine returns_pure.mpr ((Number.isFinite_map hx).trans ?_)
      exact isFinite_of_hasSizeOfLogarithm (Logarithms.natural_hasSize _ hx hpos)
  case log => exact returns_log hargs
  case sign =>
    refine returns_bind.mpr <| returns_of_forall fun x => returns_pure.mpr ?_
    repeat' split
    all_goals rfl
  case sqrt =>
    refine returns_bind.mpr <| (returns_numberArgument hargs 0).mono fun x hx => ?_
    split
    · exact returns_error
    · rename_i hneg
      exact returns_pure.mpr ((Number.isFinite_map hx).trans (Binary64.isFinite_sqrt hx hneg))
  case trunc =>
    refine returns_bind.mpr <| (returns_numberArgument hargs 0).mono fun x hx => ?_
    exact returns_pure.mpr ((Number.isFinite_map hx).trans (Binary64.isFinite_integral hx))
  case pi =>
    have hpi : (3.141592653589793 : Float).isFinite = true := rfl
    exact returns_ok.mpr hpi
  -- the others test what they give
  all_goals simp [floatFunction, exp, mod, product, sum]

/-! ### Samples -/

/-- An operation that keeps finite numbers keeps those of a sample, if the start counts for nothing
beside the first of them. -/
private theorem isFinite_foldl {op : Float → Float → Float} {start : Float} {xs : List Float}
    (hne : xs ≠ []) (hstart : ∀ x, x.isFinite = true → op start x = x)
    (hop : ∀ x y, x.isFinite = true → y.isFinite = true → (op x y).isFinite = true)
    (hxs : ∀ x ∈ xs, x.isFinite = true) : (xs.foldl op start).isFinite = true := by
  cases xs with
  | nil => exact absurd rfl hne
  | cons x xs =>
    obtain ⟨hx, hxs⟩ := List.forall_mem_cons.mp hxs
    rw [List.foldl_cons, hstart x hx]
    exact List.foldlRecOn xs op hx fun acc hacc y hy => hop acc y hacc (hxs y hy)

/-- The middle of finite numbers is finite, unless the sum of the two middle ones overflows. -/
private theorem isFinite_middleOf {xs : List Number} (hne : xs ≠ [])
    (hxs : ∀ x ∈ xs, x.isFinite = true) :
    (middleOf xs).isFinite = !middleOverflows xs := by
  have hmem : ∀ index, index < xs.length → (xs.getD index (.plain 0)).isFinite = true := by
    intro index hindex
    rw [List.getD_eq_getElem?_getD, List.getElem?_eq_getElem hindex, Option.getD_some]
    exact hxs _ (List.getElem_mem hindex)
  have hpos : 0 < xs.length := List.length_pos_iff.mpr hne
  rw [middleOf, middleOverflows]
  split
  · rename_i heven
    rw [Number.isFinite_combine (hmem _ (by omega)) (hmem _ (by omega)),
      Binary64.isFinite_div_two, heven]
    simp
  · rename_i hodd
    rw [hmem _ (by omega)]
    simp [hodd]

/-- The median is finite unless it overflows. -/
private theorem returns_median {args : List Value} (hargs : ∀ v ∈ args, v.isFinite = true) :
    Returns (fun v => v.isFinite = !medianOverflows args) (median args) := by
  refine returns_bind.mpr <| (returns_self (sampleArguments "median" args)).mono fun xs hxs => ?_
  obtain ⟨hne, hfinite⟩ := returns_sampleArguments hargs "median" xs hxs
  have hperm := Number.sorted_perm xs
  have hsorted : (middleOf (Number.sorted xs)).isFinite = !middleOverflows (Number.sorted xs) :=
    isFinite_middleOf (fun hnil => hne (List.nil_perm.mp (hnil ▸ hperm)))
      fun x hx => hfinite x (hperm.mem_iff.mp hx)
  rw [medianOverflows, (numberArguments_of_sampleArguments hxs).1]
  exact returns_pure.mpr hsorted

private theorem bounded_median {summary : String} {parameters : List Parameter} :
    (floatFunction "MEDIAN" summary parameters median).Bounded := by
  intro args hargs
  refine (returns_median hargs).mono fun v hv => hv.trans ?_
  simp [Function.overflows, floatFunction]

/-- The functions on samples are bounded. -/
private theorem bounded_sampleFunctions : ∀ f ∈ sampleFunctions, f.Bounded := by
  simp only [sampleFunctions, List.forall_mem_cons, List.not_mem_nil, false_imp_iff,
    implies_true, and_true]
  refine ⟨?average, ?count, ?max, bounded_median, ?min, ?stdev, ?var⟩
  all_goals refine Function.bounded_of_returns (by decide) fun args hargs => ?_
  case max =>
    refine returns_bind.mpr <| (returns_sampleArguments hargs _).mono fun xs hxs => ?_
    refine returns_pure.mpr (isFinite_foldl ?_ (fun _ => Binary64.larger_infinity)
      (fun _ _ => Binary64.isFinite_larger) (List.forall_mem_map.mpr hxs.2))
    simpa using hxs.1
  case min =>
    refine returns_bind.mpr <| (returns_sampleArguments hargs _).mono fun xs hxs => ?_
    refine returns_pure.mpr (isFinite_foldl ?_ (fun _ => Binary64.smaller_infinity)
      (fun _ _ => Binary64.isFinite_smaller) (List.forall_mem_map.mpr hxs.2))
    simpa using hxs.1
  case count => simp [Library.count]
  -- the others test what they give
  all_goals simp [floatFunction, average, stdev, var]

/-! ### Texts, conditions and lists -/

/-- The functions on texts are bounded. -/
private theorem bounded_stringFunctions : ∀ f ∈ stringFunctions, f.Bounded := by
  simp only [stringFunctions, List.forall_mem_cons, List.not_mem_nil, false_imp_iff,
    implies_true, and_true]
  refine ⟨?concatenate, ?left, ?len, ?lower, ?mid, ?right, ?substitute, ?upper, ?value⟩
  all_goals refine Function.bounded_of_returns (by decide) fun args hargs => ?_
  case value =>
    refine returns_bind.mpr <| (returns_numberArgument hargs 0).mono fun x hx => ?_
    exact returns_pure.mpr hx
  case substitute =>
    refine (returns_substitute args).mono fun v hv => ?_
    obtain ⟨s, rfl⟩ := hv
    rfl
  -- the others give texts and whole numbers
  all_goals simp [stringFunction, concatenate, left, len, lower, mid, right, upper]

private theorem bounded_conditionFunctions : ∀ f ∈ conditionFunctions, f.Bounded := by
  simp only [conditionFunctions, List.forall_mem_cons, List.not_mem_nil, false_imp_iff,
    implies_true, and_true]
  refine ⟨?all, ?choose, ?negation, ?any⟩
  all_goals refine Function.bounded_of_returns (by decide) fun args hargs => ?_
  case choose =>
    refine (returns_choose args).mono fun v hv => ?_
    rcases hv with hv | hv <;> exact hargs v (List.mem_of_getElem? hv)
  all_goals simp [all, any, negation]

/-- A list that is built from finite values is finite. -/
private theorem bounded_builder {name summary : String} {target : ScalarKind}
    (hname : name ≠ "MEDIAN" ∧ name ≠ "ROUND") : (builder name summary target).Bounded := by
  refine Function.bounded_of_returns hname fun args hargs => ?_
  change Returns _ (build target args)
  unfold build
  split
  · rename_i items hitems
    exact returns_ok.mpr (isFinite_of_flatten hargs hitems)
  · exact returns_error

private theorem bounded_of_elements {f : Function} (hname : f.name ≠ "MEDIAN" ∧ f.name ≠ "ROUND")
    (hbody : ∀ args, Returns (fun v => ∃ items, args[0]? = some (.list items) ∧
      v ∈ items.values) (f.body args)) : f.Bounded := by
  refine Function.bounded_of_returns hname fun args hargs => (hbody args).mono fun v hv => ?_
  obtain ⟨items, hfirst, hmem⟩ := hv
  exact Value.isFinite_of_mem_values (hargs _ (List.mem_of_getElem? hfirst)) hmem

private theorem bounded_sequenceFunctions : ∀ f ∈ sequenceFunctions, f.Bounded := by
  simp only [sequenceFunctions, List.forall_mem_cons, List.not_mem_nil, false_imp_iff,
    implies_true, and_true]
  refine ⟨bounded_builder (by decide), ?first, bounded_builder (by decide),
    bounded_builder (by decide), ?last, ?joinElements, ?nth, bounded_builder (by decide)⟩
  case first => exact bounded_of_elements (by decide) returns_first
  case last => exact bounded_of_elements (by decide) returns_last
  case nth => exact bounded_of_elements (by decide) returns_nth
  case joinElements =>
    refine Function.bounded_of_returns (by decide) fun args _ => ?_
    simp [joinElements]

/-- The functions of the library have finite results on finite arguments, unless they overflow. -/
theorem bounded_of_mem [Logarithms] {f : Function} (h : f ∈ functions) : f.Bounded := by
  simp only [functions, List.mem_append] at h
  rcases h with (((h | h) | h) | h) | h
  · exact bounded_numberFunctions f h
  · exact bounded_sampleFunctions f h
  · exact bounded_stringFunctions f h
  · exact bounded_conditionFunctions f h
  · exact bounded_sequenceFunctions f h

end Library

end TypedFormula
