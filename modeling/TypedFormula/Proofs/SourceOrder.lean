import Mathlib.Data.List.Forall2
import TypedFormula.Proofs.Code
import TypedFormula.Proofs.Positions

/-!
# Trees in the order of the text

Every node of a tree comes from one token of the text: a literal and a reference from its word, a
call from the name of its function, a sign and an operator from the mark. Parentheses and commas are
the only tokens that leave no node. In the order of the text, in which an operator is behind its
left operand, and a sign and a call are before their parts, the nodes are therefore the other tokens
one by one (`Derives.madeOf`). So the offsets of nodes increase in this order, and the references of
a tree are the references that were written, in this order.

Main statements:

* `Derives.madeOf` — the nodes of an expression are the tokens that leave nodes, one by one;
* `offsets_of_parseFormula` — the nodes of a text are in front of characters, at increasing offsets.
-/

namespace TypedFormula

/-! ### Nodes in the order of the text -/

namespace Expr

mutual

/-- The nodes of a tree in the order of the text. -/
def inOrder : Expr → List Expr
  | number offset x => [number offset x]
  | string offset s => [string offset s]
  | boolean offset b => [boolean offset b]
  | reference offset name kind default => [reference offset name kind default]
  | unary offset op operand => unary offset op operand :: operand.inOrder
  | binary offset op left right => left.inOrder ++ binary offset op left right :: right.inOrder
  | call offset name kind args => call offset name kind args :: allInOrder args

/-- The nodes of some trees in the order of the text. -/
def allInOrder : List Expr → List Expr
  | [] => []
  | e :: es => e.inOrder ++ allInOrder es

end

private theorem allInOrder_eq_flatMap (es : List Expr) : allInOrder es = es.flatMap inOrder := by
  induction es with
  | nil => rfl
  | cons e es ih => rw [allInOrder, ih, List.flatMap_cons]

/-- The order of the text is an order of all nodes. -/
theorem perm_inOrder (e : Expr) : e.inOrder.Perm e.nodes := by
  induction e using Expr.induction with
  | unary offset op operand ih => exact ih.cons _
  | binary offset op left right ihleft ihright =>
    exact List.perm_middle.trans ((ihleft.append ihright).cons _)
  | call offset name kind args ih =>
    rw [inOrder, nodes, allInOrder_eq_flatMap, allNodes_eq_flatMap]
    exact (List.Perm.flatMap_left args ih).cons _
  | _ => exact List.Perm.refl _

/-- The reference that a node is. -/
def occurrence? : Expr → Option Occurrence
  | reference offset name kind default => some ⟨name, kind, default, offset⟩
  | _ => none

/-- The references of a tree are listed in the order of the text. -/
theorem occurrences_eq_filterMap (e : Expr) : e.occurrences = e.inOrder.filterMap occurrence? := by
  induction e using Expr.induction with
  | unary offset op operand ih => exact ih
  | binary offset op left right ihleft ihright =>
    rw [occurrences, inOrder, ihleft, ihright, List.filterMap_append]
    rfl
  | call offset name kind args ih =>
    have hargs : allOccurrences args = (allInOrder args).filterMap occurrence? := by
      rw [allOccurrences_eq_flatMap, allInOrder_eq_flatMap, List.filterMap_flatMap]
      exact List.flatMap_congr ih
    exact hargs
  | _ => rfl

/-- A reference of a tree has the offset of its node. -/
theorem sublist_offsets (e : Expr) :
    (e.occurrences.map Occurrence.offset).Sublist (e.inOrder.map Expr.offset) := by
  rw [occurrences_eq_filterMap]
  induction e.inOrder with
  | nil => exact List.Sublist.refl _
  | cons n ns ih =>
    cases n with
    | reference offset name kind default => exact ih.cons_cons offset
    | _ => exact ih.cons _

end Expr

/-! ### Nodes and tokens -/

/-- Whether a token leaves a node: all but parentheses and commas do. -/
def Token.leavesNode : Token → Bool
  | .mark .leftParen => false
  | .mark .rightParen => false
  | .mark .comma => false
  | _ => true

/-- The tokens that leave nodes. -/
def leaving (tokens : List Located) : List Located := tokens.filter (·.token.leavesNode)

/-- Which nodes a token can leave within a scope. -/
inductive MadeOf (scope : Scope) : Located → Expr → Prop where
  /-- A number. -/
  | number (offset : Nat) (x : Float) : MadeOf scope ⟨.number x, offset⟩ (.number offset x)
  /-- A text. -/
  | string (offset : Nat) (s : String) : MadeOf scope ⟨.string s, offset⟩ (.string offset s)
  /-- A truth value. -/
  | boolean (offset : Nat) (b : Bool) : MadeOf scope ⟨.boolean b, offset⟩ (.boolean offset b)
  /-- A reference, with the default that the token writes. -/
  | reference {name : String} {kind : Kind} {text : Option String} {default : Option Value}
      (offset : Nat) (hkind : scope.types.get? name = some kind)
      (hdefault : WritesDefault kind text default) :
      MadeOf scope ⟨.reference name text, offset⟩ (.reference offset name kind default)
  /-- A call, from the name of its function. -/
  | call (offset : Nat) (name : String) (kind : StaticKind) (args : List Expr) :
      MadeOf scope ⟨.identifier name, offset⟩ (.call offset (Text.upper name) kind args)
  /-- A sign. -/
  | sign {t : Token} {op : UnaryOperator} (offset : Nat) (hop : sign? t = some op)
      (operand : Expr) : MadeOf scope ⟨t, offset⟩ (.unary offset op operand)
  /-- A power. -/
  | power (offset : Nat) (left right : Expr) :
      MadeOf scope ⟨.mark .caret, offset⟩ (.binary offset (.arithmetic .power) left right)
  /-- Another operator between operands. -/
  | operator {p : Precedence} {t : Token} {op : BinaryOperator} (offset : Nat)
      (hop : p.operator? t = some op) (left right : Expr) :
      MadeOf scope ⟨t, offset⟩ (.binary offset op left right)

section

variable {scope : Scope}

private theorem MadeOf.offset_eq {t : Located} {e : Expr} (h : MadeOf scope t e) :
    t.offset = e.offset := by
  cases h <;> rfl

private theorem leavesNode_of_sign? {t : Token} {op : UnaryOperator} (h : sign? t = some op) :
    t.leavesNode = true := by
  unfold sign? at h
  split at h <;> first | rfl | cases h

private theorem leavesNode_of_operator? {p : Precedence} {t : Token} {op : BinaryOperator}
    (h : p.operator? t = some op) : t.leavesNode = true := by
  unfold Precedence.operator? at h
  split at h <;> first | rfl | cases h

private theorem leaving_cons_of_leavesNode {t : Located} (h : t.token.leavesNode = true)
    (tokens : List Located) : leaving (t :: tokens) = t :: leaving tokens :=
  List.filter_cons_of_pos h

private theorem leaving_append_cons {t : Located} (h : t.token.leavesNode = true)
    (before behind : List Located) :
    leaving (before ++ t :: behind) = leaving before ++ t :: leaving behind := by
  rw [leaving, List.filter_append]
  exact congrArg (leaving before ++ ·) (leaving_cons_of_leavesNode h behind)

/-- A closing parenthesis leaves no node. -/
private theorem leaving_append_rightParen (tokens : List Located) (offset : Nat) :
    leaving (tokens ++ [⟨.mark .rightParen, offset⟩]) = leaving tokens := by
  rw [leaving, List.filter_append]
  exact List.append_nil _

/-- The commas between tokens leave no nodes. -/
private theorem Separated.leaving_eq {pieces : List (List Located)} {tokens : List Located}
    (h : Separated pieces tokens) : leaving tokens = pieces.flatMap leaving := by
  induction h with
  | none => rfl
  | one tokens => rw [List.flatMap_singleton]
  | more offset h ih =>
    rw [List.flatMap_cons, ← ih, leaving, List.filter_append]
    rfl

/-- Lists that fit each other by way of a third one. -/
private theorem forall₂_of_zip {α β γ : Type} {as : List α} {bs : List β} {cs : List γ}
    {S : β → γ → Prop} {R : α → γ → Prop} (hab : as.length = bs.length)
    (hR : ∀ q ∈ as.zip bs, ∀ {c}, S q.2 c → R q.1 c) (hbc : bs.length = cs.length)
    (hS : ∀ q ∈ bs.zip cs, S q.1 q.2) : List.Forall₂ R as cs := by
  induction as generalizing bs cs with
  | nil =>
    obtain rfl := List.eq_nil_of_length_eq_zero hab.symm
    obtain rfl := List.eq_nil_of_length_eq_zero hbc.symm
    exact .nil
  | cons a as ih =>
    obtain ⟨b, bs, rfl⟩ := List.exists_cons_of_length_eq_add_one hab.symm
    obtain ⟨c, cs, rfl⟩ := List.exists_cons_of_length_eq_add_one hbc.symm
    obtain ⟨hfirst, hothers⟩ := List.forall_mem_cons.mp hS
    refine .cons (hR (a, b) List.mem_cons_self hfirst) ?_
    exact ih (Nat.succ.inj hab) (fun q hq => hR q (List.mem_cons_of_mem _ hq))
      (Nat.succ.inj hbc) hothers

/-- The nodes of an expression in the order of the text are the tokens that leave nodes. -/
theorem Derives.madeOf {c : Category} {tokens : List Located} {a : Phrase}
    (h : Derives c tokens a) {e : Expr} (hty : Typed scope a e) :
    List.Forall₂ (MadeOf scope) (leaving tokens) e.inOrder := by
  induction h generalizing e with
  | number offset x =>
    cases hty
    exact .cons (.number offset x) .nil
  | string offset s =>
    cases hty
    exact .cons (.string offset s) .nil
  | boolean offset b =>
    cases hty
    exact .cons (.boolean offset b) .nil
  | reference offset name default =>
    cases hty with
    | reference _ hkind hdefault => exact .cons (.reference offset hkind hdefault) .nil
  | parens left right h ih =>
    cases hty with
    | parens hinner =>
      rw [leaving, List.filter_cons_of_neg Bool.false_ne_true, ← leaving,
        leaving_append_rightParen]
      exact ih hinner
  | call offset name left right hlen h hsep ih =>
    cases hty with
    | call _ hlen' htyped hf hkind =>
      rw [leaving_cons_of_leavesNode rfl, leaving, List.filter_cons_of_neg Bool.false_ne_true,
        ← leaving, leaving_append_rightParen, hsep.leaving_eq, Expr.inOrder,
        Expr.allInOrder_eq_flatMap]
      -- each argument is typed as the phrase that its piece of the tokens is
      have hargs : List.Forall₂
          (fun piece (arg : Expr) => List.Forall₂ (MadeOf scope) (leaving piece) arg.inOrder) _ _ :=
        forall₂_of_zip hlen ih hlen' htyped
      exact .cons (.call offset name _ _) (List.rel_flatMap hargs fun _ _ => id)
  | sign offset hop h ih =>
    cases hty with
    | sign _ hoperand =>
      rw [leaving_cons_of_leavesNode (leavesNode_of_sign? hop)]
      exact .cons (.sign offset hop _) (ih hoperand)
  | single h ih => exact ih hty
  | signed h ih => exact ih hty
  | operand h ih => exact ih hty
  | power offset hleft hright ihleft ihright =>
    cases hty with
    | binary _ htyleft htyright =>
      rw [leaving_append_cons rfl]
      exact List.rel_append (ihleft htyleft) (.cons (.power offset _ _) (ihright htyright))
  | link offset hleft hop hright ihleft ihright =>
    cases hty with
    | binary _ htyleft htyright =>
      rw [leaving_append_cons (leavesNode_of_operator? hop)]
      exact List.rel_append (ihleft htyleft) (.cons (.operator offset hop _ _) (ihright htyright))

theorem Derives.exists_token {c : Category} {tokens : List Located} {a : Phrase}
    (h : Derives c tokens a) {e : Expr} (hty : Typed scope a e) {n : Expr} (hn : n ∈ e.nodes) :
    ∃ t ∈ tokens, MadeOf scope t n := by
  have hmade := h.madeOf hty
  obtain ⟨t, hzip⟩ := exists_mem_zip hmade.length_eq (e.perm_inOrder.mem_iff.mpr hn)
  exact ⟨t, List.mem_of_mem_filter (List.of_mem_zip hzip).1, List.forall₂_zip hmade hzip⟩

private theorem Derives.offsets_eq {c : Category} {tokens : List Located} {a : Phrase}
    (h : Derives c tokens a) {e : Expr} (hty : Typed scope a e) :
    e.inOrder.map Expr.offset = (leaving tokens).map Located.offset := by
  symm
  rw [← List.forall₂_eq_eq_eq, List.forall₂_map_left_iff, List.forall₂_map_right_iff]
  exact (h.madeOf hty).imp fun _ _ => MadeOf.offset_eq

/-! ### Nodes of a text -/

variable {text : String} {e : Expr}

/-- The nodes of a text are in front of characters, and their offsets increase in the order of the
text. -/
theorem offsets_of_parseFormula (h : parseFormula scope text = .ok e) :
    (∀ n ∈ e.nodes, ∃ c rest, Moves 0 text.toList n.offset (c :: rest)) ∧
      (e.inOrder.map Expr.offset).Pairwise (· < ·) := by
  obtain ⟨start, rest, tokens, stop, a, hskip, htokens, hder, hty, -⟩ := parseFormula_ok_iff.mp h
  have hplaced := placed_tokenize (start + 1) rest
  rw [htokens] at hplaced
  have hstart := (moves_skipBlanks hskip).trans (Moves.head start '=' rest)
  constructor
  · intro n hn
    obtain ⟨t, ht, hmade⟩ := hder.exists_token hty hn
    obtain ⟨c, others, hmoves⟩ := hplaced.tokens t ht
    exact ⟨c, others, hmade.offset_eq ▸ hstart.trans hmoves⟩
  · rw [hder.offsets_eq hty, List.pairwise_map]
    exact hplaced.ordered.sublist List.filter_sublist

theorem nodup_offsets_code (h : parseFormula scope text = .ok e) :
    (e.code.map CodeUnit.offset).Nodup := by
  have hperm : (e.code.map CodeUnit.offset).Perm (e.inOrder.map Expr.offset) := by
    refine (e.perm_code.map CodeUnit.offset).trans ?_
    rw [List.map_map]
    exact (e.perm_inOrder.map Expr.offset).symm
  exact hperm.nodup_iff.mpr ((offsets_of_parseFormula h).2.imp Nat.ne_of_lt)

end

end TypedFormula
