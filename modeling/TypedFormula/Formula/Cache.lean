import TypedFormula.Formula.Failure

/-!
# Caches of compiled formulas

A cache keeps compiled formulas under their texts and hands them out again as long as the
variables they refer to have the same kinds. When they have not, the text is compiled again and
the new formula takes the place of the old one. A cache holds a limited number of formulas; when
it grows beyond that, those leave whose texts came first. Texts that do not compile are not kept.

The formulas are found under their texts, in a dictionary; which text came first is kept apart
from it, in a list of texts. A text enters and leaves both together.

What happened is counted in natural numbers. Counters of 64 bits would start again from zero, so a
cache is assumed to be asked fewer than `2 ^ 64` times.

Main statements:

* `Cache.evictFrom_eq` — as many of the oldest texts leave as there is no room for;
* `Cache.store_cases` — all that storing a formula can do;
* `Cache.evaluate_snd` — an evaluation leaves the cache that its compilation leaves.
-/

namespace TypedFormula

/-- How often the events of a cache happened since it was made, which is fewer than `2 ^ 64` times
by assumption. -/
structure CacheCounts where
  /-- A formula was there and fitted. -/
  hits : Nat
  /-- A text was not there. -/
  misses : Nat
  /-- A formula left for want of room. -/
  evictions : Nat
  /-- A formula was there and did not fit. -/
  recompilations : Nat
deriving DecidableEq

/-- Compiled formulas under their texts. -/
structure Cache where
  /-- The functions that formulas are compiled and run with. -/
  functions : Registry
  /-- The largest number of formulas. -/
  capacity : Nat
  /-- The formulas, under their texts. -/
  formulas : Dict Formula
  /-- The texts, oldest first. -/
  order : List String
  /-- What happened so far. -/
  counts : CacheCounts

namespace Cache

/-- The capacity of a cache if nothing is said of it. -/
def defaultCapacity : Nat := 256

/-- A cache without formulas, to which nothing happened. -/
def empty (functions : Registry) (capacity : Nat) : Cache :=
  ⟨functions, capacity, Dict.empty, [], ⟨0, 0, 0, 0⟩⟩

/-- The number of formulas. -/
def size (c : Cache) : Nat := c.formulas.size

/-- Whether there is no formula. -/
def isEmpty (c : Cache) : Bool := c.formulas.isEmpty

/-- The cache without its formulas; what happened stays. -/
def clear (c : Cache) : Cache := { c with formulas := Dict.empty, order := [] }

/-- The cache without a text that leaves for want of room. -/
def evictText (c : Cache) (text : String) : Cache :=
  { c with
    formulas := c.formulas.erase text
    counts := { c.counts with evictions := c.counts.evictions + 1 } }

/-- The cache with those of some texts that are left when the oldest ones leave until there is room
for the others. -/
def evictFrom (c : Cache) : List String → Cache
  | [] => { c with order := [] }
  | text :: texts =>
    if c.capacity < texts.length + 1 then (c.evictText text).evictFrom texts
    else { c with order := text :: texts }

/-- The cache without the oldest texts for which there is no room. -/
def evict (c : Cache) : Cache := c.evictFrom c.order

/-- The cache with a formula under a text: in place if the text has one, else as the youngest, and
then without the oldest ones for which there is no room. Without capacity nothing changes. -/
def store (c : Cache) (text : String) (f : Formula) : Cache :=
  if c.capacity = 0 then c
  else
    let formulas := c.formulas.insert text f
    if c.formulas.contains text then { c with formulas }
    else evict { c with formulas, order := c.order ++ [text] }

/-- Compiles a text, and stores the formula. -/
def compileAnew (c : Cache) (text : String) (types : Declarations) :
    Except CompileError Formula × Cache :=
  match Formula.compile ⟨types, c.functions⟩ text with
  | .error e => (.error e, c)
  | .ok f => (.ok f, c.store text f)

/-- The compiled formula of a text, and the cache after it: the one that is there if it fits, else
one that is compiled now. -/
def compile (c : Cache) (text : String) (types : Declarations) :
    Except CompileError Formula × Cache :=
  match c.formulas.get? text with
  | none =>
    compileAnew { c with counts := { c.counts with misses := c.counts.misses + 1 } } text types
  | some f =>
    if f.matchesTypes types then
      (.ok f, { c with counts := { c.counts with hits := c.counts.hits + 1 } })
    else
      compileAnew
        { c with counts := { c.counts with recompilations := c.counts.recompilations + 1 } }
        text types

/-- The value of a text, and the cache after it. -/
def evaluate (c : Cache) (text : String) (types : Declarations) (binding : Binding) :
    Except Failure Value × Cache :=
  let (compiled, after) := c.compile text types
  (runCompiled c.functions compiled binding, after)

/-- As many of the oldest texts leave as there is no room for, each with its formula. -/
theorem evictFrom_eq (c : Cache) (texts : List String) :
    let excess := texts.length - c.capacity
    c.evictFrom texts =
      { c with
        formulas := (texts.take excess).foldl Dict.erase c.formulas
        order := texts.drop excess
        counts := { c.counts with evictions := c.counts.evictions + excess } } := by
  induction texts generalizing c with
  | nil => simp [evictFrom]
  | cons text texts ih =>
    rw [evictFrom]
    split
    · rename_i hfull
      have hexcess : texts.length + 1 - c.capacity = texts.length - c.capacity + 1 := by omega
      rw [ih]
      simp only [evictText, List.length_cons, hexcess, List.take_succ_cons, List.drop_succ_cons,
        List.foldl_cons, Nat.add_comm 1, Nat.add_assoc]
    · rename_i hroom
      have hexcess : texts.length + 1 - c.capacity = 0 := by omega
      simp only [List.length_cons, hexcess, List.take_zero, List.drop_zero, List.foldl_nil,
        Nat.add_zero]

/-- Without capacity nothing is stored; a text with a formula gets another one where it stands; a
new text comes last, and the oldest ones leave for which there is no room. -/
theorem store_cases (c : Cache) (text : String) (f : Formula) :
    (c.capacity = 0 ∧ c.store text f = c) ∨
      0 < c.capacity ∧
        ((c.formulas.contains text = true ∧
            c.store text f = { c with formulas := c.formulas.insert text f }) ∨
          (c.formulas.contains text = false ∧
            let texts := c.order ++ [text]
            let excess := texts.length - c.capacity
            c.store text f =
              { c with
                formulas := (texts.take excess).foldl Dict.erase (c.formulas.insert text f)
                order := texts.drop excess
                counts := { c.counts with evictions := c.counts.evictions + excess } })) := by
  unfold store
  split
  · rename_i hcapacity
    exact .inl ⟨hcapacity, rfl⟩
  · rename_i hcapacity
    refine .inr ⟨Nat.pos_of_ne_zero hcapacity, ?_⟩
    cases c.formulas.contains text with
    | true => exact .inl ⟨rfl, if_pos rfl⟩
    | false =>
      refine .inr ⟨rfl, (if_neg Bool.false_ne_true).trans ?_⟩
      rw [evict, evictFrom_eq]

/-- An evaluation leaves the cache that its compilation leaves. -/
theorem evaluate_snd (c : Cache) (text : String) (types : Declarations) (binding : Binding) :
    (c.evaluate text types binding).2 = (c.compile text types).2 := rfl

end Cache

end TypedFormula
