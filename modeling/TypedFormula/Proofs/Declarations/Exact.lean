import TypedFormula.Proofs.Code
import TypedFormula.Proofs.Declarations
import TypedFormula.Proofs.Equality
import TypedFormula.Proofs.Finite.Runs

/-!
# Fitting declarations is exact

A formula fits declarations exactly when its text compiles to it under them. One direction is that
compilation reads the kinds of the referenced variables and no others. The other is that the list of
a formula holds no variable that its text does not refer to, so that none is asked for in vain.

The formula may be asked for as it is, or up to the equality of the values in it (`Formula.Equal`).
That the second holds with the first is not for free: a formula with NaN among its literals or
defaults would not equal itself. Both are read from texts, and no text is read as NaN.

Main statement: `Formula.matchesTypes_iff_compile`.
-/

namespace TypedFormula

/-! ### Equal formulas -/

/-- Instructions that are the same up to the equality of the value that is pushed. -/
def Instruction.Equal : Instruction → Instruction → Prop
  | push v, push w => v.equals w = true
  | i, j => i = j

/-- Formulas that are the same up to the equality of the values in them. -/
structure Formula.Equal (f g : Formula) : Prop where
  /-- They have the same text. -/
  text : f.text = g.text
  /-- They have the same variables, in the same order and with the same kinds. -/
  kinds : f.kinds = g.kinds
  /-- They have equal defaults for the same variables. -/
  defaults : ∀ name, Option.Rel (fun v w => v.equals w = true) (f.defaults.get? name)
    (g.defaults.get? name)
  /-- They have equal instructions at the same offsets. -/
  code : List.Forall₂ (fun u v => u.instruction.Equal v.instruction ∧ u.offset = v.offset) f.code
    g.code
  /-- The same is known of the kinds of their values. -/
  resultKind : f.resultKind = g.resultKind

/-- The instruction of a node equals itself, unless it pushes what is not finite. -/
private theorem Expr.equal_self_instruction {n : Expr}
    (hn : ∀ offset x, n = .number offset x → x.isFinite = true) :
    n.instruction.Equal n.instruction := by
  cases n with
  | number offset x => exact Value.equals_self rfl (hn offset x rfl)
  | string offset s => exact Value.equals_self rfl rfl
  | boolean offset b => exact Value.equals_self rfl rfl
  | _ => exact rfl

namespace Formula

variable {scope : Scope} {text : String} {f : Formula}

/-- A formula that is compiled equals itself. -/
private theorem equal_self_of_compile (h : compile scope text = .ok f) : f.Equal f := by
  obtain ⟨e, hparse, hof⟩ := compile_ok_iff.mp h
  obtain ⟨-, a, -, hty, -⟩ := exists_phrase_of_parseFormula hparse
  refine ⟨rfl, rfl, fun name => ?_, ?_, rfl⟩
  · -- a default is a single value that was read from a text
    rw [get?_defaults_of_ofExpr hof]
    cases hv : e.default? name with
    | none => exact .none
    | some v =>
      obtain ⟨o, ho, -, hdefault⟩ := Expr.exists_occurrence_of_firstDefault? hv
      obtain ⟨kind, written, -, hread⟩ := hty.exists_readDefault? ho hdefault
      exact .some
        (Value.equals_self (isList_of_readDefault? hread) (isFinite_of_readDefault? hread))
  · obtain ⟨vs, -, rfl⟩ := ofExpr_ok_iff.mp hof
    refine List.forall₂_same.mpr fun u hu => ⟨?_, rfl⟩
    obtain ⟨n, hn, rfl⟩ := Expr.mem_code.mp hu
    refine Expr.equal_self_instruction fun offset x hx => ?_
    exact isFinite_of_parseFormula hparse (hx ▸ hn)

/-! ### Declarations -/

private theorem matchesTypes_of_compile (h : compile scope text = .ok f) :
    f.matchesTypes scope.types = true := by
  obtain ⟨e, hparse, hof⟩ := compile_ok_iff.mp h
  obtain ⟨-, a, -, hty, -⟩ := exists_phrase_of_parseFormula hparse
  refine matchesTypes_iff.mpr fun v hv => ?_
  exact ((get?_kinds_iff hof hty).mp (Dict.get?_eq_some_iff.mpr hv)).2

/-- A compiled formula fits other declarations exactly when its text compiles under them to the same
formula, or what is no more, to an equal one. -/
theorem matchesTypes_iff_compile {types types' : Declarations} {functions : Registry}
    (h : compile ⟨types, functions⟩ text = .ok f) :
    (f.matchesTypes types' = true ↔ compile ⟨types', functions⟩ text = .ok f) ∧
      (f.matchesTypes types' = true ↔
        ∃ g, compile ⟨types', functions⟩ text = .ok g ∧ g.Equal f) := by
  constructor
  · exact ⟨compile_of_matchesTypes h, matchesTypes_of_compile⟩
  · constructor
    · intro hmatch
      exact ⟨f, compile_of_matchesTypes h hmatch, equal_self_of_compile h⟩
    · rintro ⟨g, hg, hequal⟩
      -- an equal formula lists the same variables, and fits the declarations that it came from
      have hmatch := matchesTypes_of_compile hg
      rwa [matchesTypes, hequal.kinds] at hmatch

/-- A formula of two variables fits declarations with another variable besides, and does not fit
those in which one of its variables has another kind. -/
theorem matchesTypes_iff_compile_of_sum :
    let functions := Registry.empty
    let types : Declarations := Dict.ofList [("x", .float), ("y", .integer)]
    let wider : Declarations := Dict.ofList [("z", .string), ("y", .integer), ("x", .float)]
    let other : Declarations := Dict.ofList [("x", .float), ("y", .float)]
    ∃ f, compile ⟨types, functions⟩ "=${x:1.5} + $y" = .ok f ∧
      compile ⟨wider, functions⟩ "=${x:1.5} + $y" = .ok f ∧
      ¬ ∃ g, compile ⟨other, functions⟩ "=${x:1.5} + $y" = .ok g ∧ g.Equal f := by
  intro functions types wider other
  have hvalue : ((compile ⟨types, functions⟩ "=${x:1.5} + $y").toOption.map fun f =>
      (f.matchesTypes wider, f.matchesTypes other)) = some (true, false) := by
    decide +kernel
  cases hcompile : compile ⟨types, functions⟩ "=${x:1.5} + $y" with
  | error err => simp [hcompile, Except.toOption] at hvalue
  | ok f =>
    obtain ⟨hwider, hother⟩ : f.matchesTypes wider = true ∧ f.matchesTypes other = false := by
      simpa [hcompile, Except.toOption] using hvalue
    refine ⟨f, rfl, (matchesTypes_iff_compile hcompile).1.mp hwider, fun hequal => ?_⟩
    rw [(matchesTypes_iff_compile hcompile).2.mpr hequal] at hother
    cases hother

end Formula

end TypedFormula
