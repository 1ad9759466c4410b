import TypedFormula.Conversion

/-!
# Flattening of argument lists

A function over many values takes any mix of scalars and lists and sees only the sequence of
their scalars, each converted to one kind. A failure names the argument, not the place in the
sequence.

Main statements: `convertAll_ok_iff`, `flattenFrom_ok_iff` — a sequence converts, and arguments are
flattened, exactly when every member converts, and the result is the conversions in order.
-/

namespace TypedFormula

/-- An argument with a scalar that does not convert. -/
structure FlattenError where
  /-- The index of the argument, from zero. -/
  index : Nat
  /-- The failed conversion. -/
  source : ConversionError
deriving DecidableEq

/-- The text of a failed flattening. -/
def FlattenError.message (e : FlattenError) : String :=
  "Argument " ++ toString (e.index + 1) ++ " cannot be used: " ++ e.source.message

/-- The values converted in order, or the first failure. -/
def convertAll {α : Type} (convert : Value → Except ConversionError α) :
    List Value → Except ConversionError (List α)
  | [] => .ok []
  | v :: vs => do
    let x ← convert v
    let xs ← convertAll convert vs
    return x :: xs

/-- The scalars of the arguments from number `index` on, converted in order. -/
def flattenFrom {α : Type} (convert : Value → Except ConversionError α) :
    Nat → List Value → Except FlattenError (List α)
  | _, [] => .ok []
  | index, v :: vs =>
    match convertAll convert v.scalars with
    | .error e => .error ⟨index, e⟩
    | .ok xs => do
      let ys ← flattenFrom convert (index + 1) vs
      return xs ++ ys

/-- The scalars of all arguments, converted in order. -/
def flattenWith {α : Type} (convert : Value → Except ConversionError α) (args : List Value) :
    Except FlattenError (List α) :=
  flattenFrom convert 0 args

/-- The scalars of all arguments as numbers. -/
def flattenNumbers (args : List Value) : Except FlattenError (List Number) :=
  flattenWith Value.toNumber args

/-- The scalars of all arguments as truth values. -/
def flattenBooleans (args : List Value) : Except FlattenError (List Bool) :=
  flattenWith Value.toBoolean args

/-- The scalars of all arguments as a list over one scalar kind. -/
def flatten (target : ScalarKind) (args : List Value) : Except FlattenError Items :=
  match target with
  | .float => (flattenNumbers args).map .floats
  | .integer => (flattenWith Value.toInteger args).map .integers
  | .string => (flattenWith Value.toText args).map .strings
  | .boolean => (flattenBooleans args).map .booleans

/-- A list that was flattened has the scalar kind asked for. -/
theorem element_of_flatten {target : ScalarKind} {args : List Value} {items : Items}
    (h : flatten target args = .ok items) : items.element = target := by
  cases target <;> simp only [flatten] at h
  · cases hx : flattenNumbers args <;> simp [hx, Except.map] at h
    rw [← h]; rfl
  · cases hx : flattenWith Value.toInteger args <;> simp [hx, Except.map] at h
    rw [← h]; rfl
  · cases hx : flattenWith Value.toText args <;> simp [hx, Except.map] at h
    rw [← h]; rfl
  · cases hx : flattenBooleans args <;> simp [hx, Except.map] at h
    rw [← h]; rfl

/-! ### What flattening succeeds on -/

/-- Conversion of a sequence succeeds exactly when each member converts. -/
theorem convertAll_ok_iff {α : Type} {convert : Value → Except ConversionError α}
    {vs : List Value} {xs : List α} :
    convertAll convert vs = .ok xs ↔ vs.map convert = xs.map .ok := by
  induction vs generalizing xs with
  | nil => cases xs <;> simp [convertAll]
  | cons v vs ih =>
    cases hv : convert v with
    | error e => cases xs <;> simp [convertAll, hv, bind, Except.bind]
    | ok x =>
      cases hvs : convertAll convert vs with
      | error e =>
        have hne : ∀ ys : List α, vs.map convert ≠ ys.map .ok := fun ys hys => by
          rw [ih.mpr hys] at hvs; cases hvs
        cases xs <;> simp [convertAll, hv, hvs, bind, Except.bind, hne]
      | ok ys =>
        have hys := ih.mp hvs
        cases xs with
        | nil => simp [convertAll, hv, hvs, bind, Except.bind, pure, Except.pure]
        | cons z zs =>
          simp only [convertAll, hv, hvs, bind, Except.bind, pure, Except.pure,
            Except.ok.injEq, List.cons.injEq, List.map_cons, hys]
          constructor
          · rintro ⟨rfl, rfl⟩; exact ⟨rfl, rfl⟩
          · rintro ⟨hz, hzs⟩
            exact ⟨hz, (List.map_inj_right fun _ _ => Except.ok.inj).mp hzs⟩

/-- Flattening succeeds exactly when all scalars of the arguments convert, and gives the conversions
in order. -/
theorem flattenFrom_ok_iff {α : Type} {convert : Value → Except ConversionError α} {index : Nat}
    {args : List Value} {xs : List α} :
    flattenFrom convert index args = .ok xs ↔
      (args.flatMap Value.scalars).map convert = xs.map .ok := by
  induction args generalizing index xs with
  | nil => cases xs <;> simp [flattenFrom]
  | cons v vs ih =>
    rw [flattenFrom, List.flatMap_cons, List.map_append]
    constructor
    · intro h
      cases hv : convertAll convert v.scalars with
      | error e =>
        rw [hv] at h
        cases h
      | ok ys =>
        cases hvs : flattenFrom convert (index + 1) vs with
        | error e =>
          rw [hv, hvs] at h
          cases h
        | ok zs =>
          rw [hv, hvs] at h
          obtain rfl := Except.ok.inj h
          rw [convertAll_ok_iff.mp hv, ih.mp hvs, List.map_append]
    · intro h
      obtain ⟨ys, zs, rfl, hys, hzs⟩ := List.map_eq_append_iff.mp h.symm
      rw [convertAll_ok_iff.mpr hys.symm, ih.mpr hzs.symm]
      rfl

end TypedFormula
