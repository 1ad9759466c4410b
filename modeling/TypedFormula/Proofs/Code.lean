import Mathlib.Data.List.Perm.Basic
import TypedFormula.Proofs.Kinds

/-!
# Nodes and instructions

Code has one instruction for each node of the tree, with the offset of the node, behind the
instructions of the operands. So what holds of all instructions is a statement on nodes
(`Expr.mem_code`), and offsets that tell nodes apart tell instructions apart (`Expr.perm_code`).
References keep their places relative to each other: the variables are loaded in the order in which
the tree refers to them (`Expr.loads_code`).

Main statements: `Expr.perm_code`, `Expr.mem_code`, `Expr.loads_code`.
-/

namespace TypedFormula

/-! ### Loads -/

/-- An instruction that loads a variable. -/
structure Load where
  /-- The variable. -/
  name : String
  /-- Its kind. -/
  kind : Kind
  /-- The byte offset. -/
  offset : Nat
deriving DecidableEq

/-- The load that an instruction at an offset is. -/
def CodeUnit.load? : CodeUnit → Option Load
  | ⟨.load name kind, offset⟩ => some ⟨name, kind, offset⟩
  | _ => none

/-- The loads in the code of a formula, from the first one on. -/
def Formula.loads (f : Formula) : List Load := f.code.filterMap CodeUnit.load?

/-- The load of the variable that a reference is to. -/
def Expr.Occurrence.load (o : Expr.Occurrence) : Load := ⟨o.name, o.kind, o.offset⟩

namespace Expr

/-! ### Instructions of nodes -/

/-- The instruction of a node. -/
def instruction : Expr → Instruction
  | number _ x => .push (.float (.plain x))
  | string _ s => .push (.string s)
  | boolean _ b => .push (.boolean b)
  | reference _ name kind _ => .load name kind
  | unary _ op _ => .unary op
  | binary _ op _ _ => .binary op
  | call _ name _ args => .call name args.length

/-- The instruction of a node with the offset of the node. -/
def unit (e : Expr) : CodeUnit := ⟨e.instruction, e.offset⟩

theorem codes_eq_flatMap (es : List Expr) : codes es = es.flatMap code := by
  induction es with
  | nil => rfl
  | cons e es ih => rw [codes, ih, List.flatMap_cons]

theorem allNodes_eq_flatMap (es : List Expr) : allNodes es = es.flatMap nodes := by
  induction es with
  | nil => rfl
  | cons e es ih => rw [allNodes, ih, List.flatMap_cons]

theorem allOccurrences_eq_flatMap (es : List Expr) :
    allOccurrences es = es.flatMap occurrences := by
  induction es with
  | nil => rfl
  | cons e es ih => rw [allOccurrences, ih, List.flatMap_cons]

/-- The code of a tree is the instructions of its nodes, in another order. -/
theorem perm_code (e : Expr) : e.code.Perm (e.nodes.map unit) := by
  induction e using Expr.induction with
  | unary offset op operand ih =>
    -- a node comes before its parts, and its instruction behind theirs
    exact (List.perm_append_singleton _ _).trans (ih.cons _)
  | binary offset op left right ihleft ihright =>
    refine (List.perm_append_singleton _ _).trans (List.Perm.cons _ ?_)
    rw [List.map_append]
    exact ihleft.append ihright
  | call offset name kind args ih =>
    refine (List.perm_append_singleton _ _).trans (List.Perm.cons _ ?_)
    rw [codes_eq_flatMap, allNodes_eq_flatMap, List.map_flatMap]
    exact List.Perm.flatMap_left args ih
  | _ => exact List.Perm.refl _

/-- The instructions of the code of a tree are those of its nodes. -/
theorem mem_code {e : Expr} {u : CodeUnit} : u ∈ e.code ↔ ∃ n ∈ e.nodes, n.unit = u := by
  rw [e.perm_code.mem_iff, List.mem_map]

/-- The code of a tree loads the variables that the tree refers to, in the order of the
references. -/
theorem loads_code (e : Expr) :
    e.code.filterMap CodeUnit.load? = e.occurrences.map Occurrence.load := by
  induction e using Expr.induction with
  | unary offset op operand ih =>
    rw [code, List.filterMap_append, ih]
    exact List.append_nil _
  | binary offset op left right ihleft ihright =>
    rw [code, List.filterMap_append, List.filterMap_append, ihleft, ihright, occurrences,
      List.map_append]
    exact List.append_nil _
  | call offset name kind args ih =>
    have hargs : (codes args).filterMap CodeUnit.load? =
        (allOccurrences args).map Occurrence.load := by
      rw [codes_eq_flatMap, allOccurrences_eq_flatMap, List.filterMap_flatMap, List.map_flatMap]
      exact List.flatMap_congr ih
    rw [code, List.filterMap_append, hargs]
    exact List.append_nil _
  | _ => rfl

end Expr

end TypedFormula
