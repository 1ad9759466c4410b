import TypedFormula.Formula.Cache
import TypedFormula.Proofs.Declarations

/-!
# Caches answer as if they kept nothing

A cache hands out formulas that were compiled earlier, under declarations that nobody remembers.
What it gives is nevertheless what a compilation at the time of the request would give. The cache
looks at the variables of the formula that it kept, and a formula whose variables have the same
kinds is the same formula (`Formula.compile_of_matchesTypes`). A formula that does not fit is not
given out; it stays when the text fails to compile again, and is as good as before for requests that
it fits.

All that a request can do to a cache is to count something, to store a formula that was just
compiled, or to remove all formulas. An invariant of caches is what these three keep
(`reached_induction`).

Main statements:

* `Cache.reached_induction` — what holds of all caches that requests lead to;
* `Cache.sound_reached` — kept formulas are compilations of their texts;
* `Cache.answers_eq_fresh` — whatever was asked before, a cache answers like a new compilation.
-/

namespace TypedFormula

namespace Cache

/-- What can be asked of a cache. -/
inductive Request where
  /-- The formula of a text. -/
  | compile (text : String) (types : Declarations)
  /-- The value of a text. -/
  | evaluate (text : String) (types : Declarations) (binding : Binding)
  /-- To remove all formulas. -/
  | clear

/-! ### Histories -/

/-- The cache after a request. -/
def after (c : Cache) : Request → Cache
  | .compile text types => (c.compile text types).2
  | .evaluate text types binding => (c.evaluate text types binding).2
  | .clear => c.clear

/-- The cache that requests lead to, the earliest one first. -/
def reached (functions : Registry) (capacity : Nat) (history : List Request) : Cache :=
  history.foldl after (empty functions capacity)

section

variable {c : Cache} {text : String} {types : Declarations}

/-- A request for a formula counts something, and then takes the formula that is there and fits, or
compiles the text. -/
theorem compile_cases (c : Cache) (text : String) (types : Declarations) :
    ∃ counts,
      (∃ f, c.formulas.get? text = some f ∧ f.matchesTypes types = true ∧
        c.compile text types = (.ok f, { c with counts })) ∨
      c.compile text types = compileAnew { c with counts } text types := by
  unfold compile
  split
  · exact ⟨_, .inr rfl⟩
  · rename_i f hget
    split
    · rename_i hmatch
      exact ⟨_, .inl ⟨f, hget, hmatch, rfl⟩⟩
    · exact ⟨_, .inr rfl⟩

private theorem compile_induction {P : Cache → Prop}
    (hcounts : ∀ c counts, P c → P { c with counts })
    (hstore : ∀ c text types f, P c → Formula.compile ⟨types, c.functions⟩ text = .ok f →
      P (c.store text f)) (h : P c) : P (c.compile text types).2 := by
  obtain ⟨counts, ⟨f, -, -, heq⟩ | heq⟩ := compile_cases c text types
  · rw [heq]
    exact hcounts c counts h
  · rw [heq, compileAnew]
    split
    · exact hcounts c counts h
    · rename_i f hcompile
      exact hstore _ text types f (hcounts c counts h) hcompile

/-- A property of caches holds of all that requests lead to if it holds of empty ones, ignores the
counts, and is kept when a compiled formula is stored and when all formulas are removed. -/
theorem reached_induction {functions : Registry} {capacity : Nat} {P : Cache → Prop}
    (hempty : P (empty functions capacity)) (hcounts : ∀ c counts, P c → P { c with counts })
    (hstore : ∀ c text types f, P c → Formula.compile ⟨types, c.functions⟩ text = .ok f →
      P (c.store text f)) (hclear : ∀ c, P c → P c.clear) (history : List Request) :
    P (reached functions capacity history) := by
  have hfold : ∀ c, P c → P (history.foldl after c) := by
    induction history with
    | nil => exact fun c hc => hc
    | cons request history ih =>
      refine fun c hc => ih _ ?_
      cases request with
      | compile text types => exact compile_induction hcounts hstore hc
      | evaluate text types binding =>
        rw [after, evaluate_snd]
        exact compile_induction hcounts hstore hc
      | clear => exact hclear c hc
  exact hfold _ hempty

/-! ### Storing -/

private theorem settings_store (c : Cache) (text : String) (f : Formula) :
    (c.store text f).functions = c.functions ∧ (c.store text f).capacity = c.capacity := by
  obtain ⟨-, heq⟩ | ⟨-, ⟨-, heq⟩ | ⟨-, heq⟩⟩ := store_cases c text f
  all_goals
    rw [heq]
    exact ⟨rfl, rfl⟩

/-- What is found after storing was stored now or was there before. -/
theorem get?_store {f g : Formula} {other : String}
    (h : (c.store text f).formulas.get? other = some g) :
    (other = text ∧ g = f) ∨ c.formulas.get? other = some g := by
  have hinsert : (c.formulas.insert text f).get? other = some g →
      (other = text ∧ g = f) ∨ c.formulas.get? other = some g := by
    intro hget
    rw [Dict.get?_insert] at hget
    split at hget
    · rename_i hother
      exact .inl ⟨hother, (Option.some.inj hget).symm⟩
    · exact .inr hget
  obtain ⟨-, heq⟩ | ⟨-, ⟨-, heq⟩ | ⟨-, heq⟩⟩ := store_cases c text f
  · rw [heq] at h
    exact .inr h
  · rw [heq] at h
    exact hinsert h
  · -- a text that was evicted is not found at all
    rw [heq] at h
    simp only [Dict.get?_foldl_erase] at h
    split at h
    · cases h
    · exact hinsert h

theorem settings_reached (functions : Registry) (capacity : Nat) (history : List Request) :
    (reached functions capacity history).functions = functions ∧
      (reached functions capacity history).capacity = capacity := by
  refine reached_induction (P := fun c => c.functions = functions ∧ c.capacity = capacity)
    ⟨rfl, rfl⟩ (fun _ _ hc => hc) (fun c text types f hc _ => ?_) (fun _ hc => hc) history
  obtain ⟨hfunctions, hcapacity⟩ := settings_store c text f
  exact ⟨hfunctions.trans hc.1, hcapacity.trans hc.2⟩

/-! ### Answers -/

/-- Every formula is what its text compiles to under some declarations. -/
def Sound (c : Cache) : Prop :=
  ∀ text f, c.formulas.get? text = some f →
    ∃ types, Formula.compile ⟨types, c.functions⟩ text = .ok f

/-- Kept formulas are compilations of their texts. -/
theorem sound_reached (functions : Registry) (capacity : Nat) (history : List Request) :
    (reached functions capacity history).Sound := by
  refine reached_induction (fun _ _ hget => ?_) (fun _ _ hc => hc)
    (fun c text types f hc hcompile other g hget => ?_) (fun _ _ _ _ hget => ?_) history
  · cases hget
  · rw [(settings_store c text f).1]
    rcases get?_store hget with ⟨rfl, rfl⟩ | hget
    · exact ⟨types, hcompile⟩
    · exact hc other g hget
  · cases hget

/-- A cache of compilations gives what the text compiles to now. -/
private theorem Sound.compile_fst (h : c.Sound) (text : String) (types : Declarations) :
    (c.compile text types).1 = Formula.compile ⟨types, c.functions⟩ text := by
  obtain ⟨counts, ⟨f, hget, hmatch, heq⟩ | heq⟩ := compile_cases c text types
  · obtain ⟨types', hcompile⟩ := h text f hget
    rw [heq, Formula.compile_of_matchesTypes hcompile hmatch]
  · rw [heq, compileAnew]
    cases Formula.compile ⟨types, c.functions⟩ text <;> rfl

end

/-- Whatever was asked of a cache before, it gives the formula or the error that a compilation with
its functions gives now, and the value or the failure of a compilation and a run with them. -/
theorem answers_eq_fresh (functions : Registry) (capacity : Nat) (history : List Request)
    (text : String) (types : Declarations) (binding : Binding) :
    let c := reached functions capacity history
    (c.compile text types).1 = Formula.compile ⟨types, functions⟩ text ∧
      (c.evaluate text types binding).1 = Formula.evaluate ⟨types, functions⟩ text binding := by
  intro c
  have hfunctions : c.functions = functions := (settings_reached functions capacity history).1
  have hcompile := (sound_reached functions capacity history).compile_fst text types
  rw [hfunctions] at hcompile
  have hevaluate : (c.evaluate text types binding).1 =
      runCompiled c.functions (c.compile text types).1 binding := rfl
  refine ⟨hcompile, ?_⟩
  rw [hevaluate, hcompile, hfunctions]
  rfl

end Cache

end TypedFormula
