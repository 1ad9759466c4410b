import TypedFormula.Expr.Parse

/-!
# The grammar of formulas

What a formula is, without a procedure that reads it. A `Phrase` is what stands between the tokens
of an expression: its operators, calls and operands as they were written, still with parentheses
and still without kinds. Three separate rules decide on it:

* `Derives` is the grammar. A comparison, a join, a sum and a product is a list of operands of the
  next tighter category with operators in between, grouped from the left; a power groups from the
  right, and its left side is a signed operand, so that signs bind tighter than `^`.
* `Typed` says which expression a phrase denotes within a scope: variables are declared and their
  defaults are written properly, functions are known and take their arguments, and operators take
  their operands.
* `Phrase.need` is how many levels a reader opens. Parentheses, a call and a sign cost one level
  on top of what is inside; the operators of a chain are counted from the left, and an operand
  costs as many levels as operators of its chain stand before it.

Categories are numbered from loose to tight (`Category.rank`), and so are the operators that
tokens can be (`Token.rank?`). All that later proofs need to know about precedence are the
inequalities between these numbers.

Main statements:

* `Derives.exists_cons` — a phrase starts with a token, and which tokens it can be;
* `Derives.links_eq_zero` — a phrase of a tighter category has no links of a looser chain.
-/

namespace TypedFormula

/-! ### Phrases -/

/-- An expression as it was written. -/
inductive Phrase where
  /-- A number. -/
  | number (offset : Nat) (x : Float)
  /-- A text. -/
  | string (offset : Nat) (s : String)
  /-- A truth value. -/
  | boolean (offset : Nat) (b : Bool)
  /-- A reference to a variable, perhaps with the text of a default. -/
  | reference (offset : Nat) (name : String) (default : Option String)
  /-- A phrase between parentheses. -/
  | parens (inner : Phrase)
  /-- A call of a function under the name as it was written. -/
  | call (offset : Nat) (name : String) (args : List Phrase)
  /-- A sign in front of its operand. -/
  | sign (offset : Nat) (op : UnaryOperator) (operand : Phrase)
  /-- An operator between its operands. -/
  | binary (offset : Nat) (op : BinaryOperator) (left right : Phrase)

/-- The chain that a binary operator belongs to; a power belongs to none. -/
def BinaryOperator.precedence? : BinaryOperator → Option Precedence
  | .comparison _ => some .comparison
  | .concat => some .concat
  | .arithmetic .add => some .sum
  | .arithmetic .subtract => some .sum
  | .arithmetic .multiply => some .product
  | .arithmetic .divide => some .product
  | .arithmetic .power => none

namespace Phrase

/-- The number of operators of a chain at the top of a phrase, down its left side. -/
def links (p : Precedence) : Phrase → Nat
  | binary _ op left _ => if op.precedence? = some p then left.links p + 1 else 0
  | _ => 0

/-- The number of operators that stand before an operator in its chain, where `left` is all that
stands before it. -/
def linksBefore (op : BinaryOperator) (left : Phrase) : Nat :=
  match op.precedence? with
  | some p => left.links p
  | none => 0

mutual

/-- The number of levels that a reader of the phrase opens. -/
def need : Phrase → Nat
  | number _ _ => 0
  | string _ _ => 0
  | boolean _ _ => 0
  | reference _ _ _ => 0
  | parens inner => inner.need + 1
  | call _ _ args => needs args + 1
  | sign _ _ operand => operand.need + 1
  | binary _ op left right => Nat.max left.need (left.linksBefore op + 1 + right.need)

/-- The largest number of levels of some phrases. -/
def needs : List Phrase → Nat
  | [] => 0
  | a :: as => Nat.max a.need (needs as)

end

end Phrase

/-! ### Derivations -/

/-- The categories of the grammar. -/
inductive Category where
  /-- A chain of operators of one precedence, perhaps without any. -/
  | chain (p : Precedence)
  /-- An operand of `*` and `/`. -/
  | power
  /-- An operand of `^`. -/
  | signed
  /-- A literal, a reference, a call or a phrase in parentheses. -/
  | single
deriving DecidableEq

/-- The category of the operands of a chain. -/
def Precedence.operand : Precedence → Category
  | comparison => .chain .concat
  | concat => .chain .sum
  | sum => .chain .product
  | product => .power

/-- Lists of tokens with a comma between each two. -/
inductive Separated : List (List Located) → List Located → Prop where
  /-- No list. -/
  | none : Separated [] []
  /-- One list, without a comma. -/
  | one (tokens : List Located) : Separated [tokens] tokens
  /-- A list before others. -/
  | more {tokens next rest : List Located} {others : List (List Located)} (offset : Nat)
      (h : Separated (next :: others) rest) :
      Separated (tokens :: next :: others) (tokens ++ ⟨.mark .comma, offset⟩ :: rest)

/-- Which phrases of a category tokens are. -/
inductive Derives : Category → List Located → Phrase → Prop where
  /-- A number. -/
  | number (offset : Nat) (x : Float) : Derives .single [⟨.number x, offset⟩] (.number offset x)
  /-- A text. -/
  | string (offset : Nat) (s : String) : Derives .single [⟨.string s, offset⟩] (.string offset s)
  /-- A truth value. -/
  | boolean (offset : Nat) (b : Bool) :
      Derives .single [⟨.boolean b, offset⟩] (.boolean offset b)
  /-- A reference. -/
  | reference (offset : Nat) (name : String) (default : Option String) :
      Derives .single [⟨.reference name default, offset⟩] (.reference offset name default)
  /-- A comparison in parentheses. -/
  | parens {tokens : List Located} {inner : Phrase} (left right : Nat)
      (h : Derives (.chain .comparison) tokens inner) :
      Derives .single
        (⟨.mark .leftParen, left⟩ :: (tokens ++ [⟨.mark .rightParen, right⟩])) (.parens inner)
  /-- A name with comparisons as arguments, between parentheses and separated by commas. -/
  | call {pieces : List (List Located)} {args : List Phrase} {tokens : List Located}
      (offset : Nat) (name : String) (left right : Nat) (hlen : pieces.length = args.length)
      (h : ∀ q ∈ pieces.zip args, Derives (.chain .comparison) q.1 q.2)
      (hsep : Separated pieces tokens) :
      Derives .single
        (⟨.identifier name, offset⟩ :: ⟨.mark .leftParen, left⟩ ::
          (tokens ++ [⟨.mark .rightParen, right⟩]))
        (.call offset name args)
  /-- A sign before a signed operand. -/
  | sign {t : Token} {op : UnaryOperator} {tokens : List Located} {operand : Phrase}
      (offset : Nat) (hop : sign? t = some op) (h : Derives .signed tokens operand) :
      Derives .signed (⟨t, offset⟩ :: tokens) (.sign offset op operand)
  /-- A single operand, without a sign. -/
  | single {tokens : List Located} {a : Phrase} (h : Derives .single tokens a) :
      Derives .signed tokens a
  /-- A signed operand raised to a power. -/
  | power {lefts rights : List Located} {left right : Phrase} (offset : Nat)
      (hleft : Derives .signed lefts left) (hright : Derives .power rights right) :
      Derives .power (lefts ++ ⟨.mark .caret, offset⟩ :: rights)
        (.binary offset (.arithmetic .power) left right)
  /-- A signed operand, not raised. -/
  | signed {tokens : List Located} {a : Phrase} (h : Derives .signed tokens a) :
      Derives .power tokens a
  /-- A chain, one more operator of it, and its right operand. -/
  | link {p : Precedence} {t : Token} {op : BinaryOperator} {lefts rights : List Located}
      {left right : Phrase} (offset : Nat) (hleft : Derives (.chain p) lefts left)
      (hop : p.operator? t = some op) (hright : Derives p.operand rights right) :
      Derives (.chain p) (lefts ++ ⟨t, offset⟩ :: rights) (.binary offset op left right)
  /-- The first operand of a chain. -/
  | operand {p : Precedence} {tokens : List Located} {a : Phrase}
      (h : Derives p.operand tokens a) : Derives (.chain p) tokens a

/-! ### Types -/

/-- Whether arithmetic takes operands of a kind. -/
def StaticKind.CountsAsNumber (k : StaticKind) : Prop :=
  k = .dynamic ∨ k = .known .float ∨ k = .known .integer ∨ k = .known .boolean

/-- Whether a binary operator takes operands of a kind; all but arithmetic refuse only what is
known to be a list. -/
def BinaryOperator.Takes : BinaryOperator → StaticKind → Prop
  | .arithmetic _, k => k.CountsAsNumber
  | .concat, k => k.isList = false
  | .comparison _, k => k.isList = false

/-- Which default the text given in a reference to a variable of a kind writes. -/
inductive WritesDefault : Kind → Option String → Option Value → Prop where
  /-- No default. -/
  | none (kind : Kind) : WritesDefault kind none none
  /-- A default of a scalar kind; lists have none. -/
  | some {kind : ScalarKind} {text : String} {v : Value} (h : readDefault? kind text = some v) :
      WritesDefault (.scalar kind) (some text) (some v)

/-- Which expression a phrase is within a scope. -/
inductive Typed (scope : Scope) : Phrase → Expr → Prop where
  /-- A number. -/
  | number (offset : Nat) (x : Float) : Typed scope (.number offset x) (.number offset x)
  /-- A text. -/
  | string (offset : Nat) (s : String) : Typed scope (.string offset s) (.string offset s)
  /-- A truth value. -/
  | boolean (offset : Nat) (b : Bool) : Typed scope (.boolean offset b) (.boolean offset b)
  /-- A reference to a declared variable. -/
  | reference {name : String} {kind : Kind} {text : Option String} {default : Option Value}
      (offset : Nat) (hkind : scope.types.get? name = some kind)
      (hdefault : WritesDefault kind text default) :
      Typed scope (.reference offset name text) (.reference offset name kind default)
  /-- Parentheses leave no trace. -/
  | parens {inner : Phrase} {e : Expr} (h : Typed scope inner e) : Typed scope (.parens inner) e
  /-- A call of a known function that takes the kinds of its arguments. -/
  | call {name : String} {args : List Phrase} {es : List Expr} {f : Function} {kind : StaticKind}
      (offset : Nat) (hlen : args.length = es.length)
      (h : ∀ q ∈ args.zip es, Typed scope q.1 q.2)
      (hf : scope.functions.lookup? name = some f)
      (hkind : f.checkArguments (es.map Expr.kind) = .ok kind) :
      Typed scope (.call offset name args) (.call offset (Text.upper name) kind es)
  /-- A sign on an operand that counts as a number. -/
  | sign {op : UnaryOperator} {a : Phrase} {e : Expr} (offset : Nat) (h : Typed scope a e)
      (hkind : e.kind.CountsAsNumber) : Typed scope (.sign offset op a) (.unary offset op e)
  /-- An operator between operands that it takes. -/
  | binary {op : BinaryOperator} {a b : Phrase} {left right : Expr} (offset : Nat)
      (hleft : Typed scope a left) (hright : Typed scope b right) (htakes : op.Takes left.kind)
      (htakes' : op.Takes right.kind) :
      Typed scope (.binary offset op a b) (.binary offset op left right)

/-! ### Ranks -/

/-- The place of a precedence among the categories. -/
def Precedence.rank : Precedence → Nat
  | comparison => 0
  | concat => 1
  | sum => 2
  | product => 3

/-- The place of a category from loose to tight. -/
def Category.rank : Category → Nat
  | chain p => p.rank
  | power => 4
  | signed => 5
  | single => 6

/-- The place of the category that a token continues as an operator between operands. -/
def Token.rank? : Token → Option Nat
  | .mark .equal => some 0
  | .mark .notEqual => some 0
  | .mark .less => some 0
  | .mark .lessEqual => some 0
  | .mark .greater => some 0
  | .mark .greaterEqual => some 0
  | .mark .ampersand => some 1
  | .mark .plus => some 2
  | .mark .minus => some 2
  | .mark .star => some 3
  | .mark .slash => some 3
  | .mark .caret => some 4
  | _ => none

theorem Precedence.rank_operand (p : Precedence) : p.operand.rank = p.rank + 1 := by
  cases p <;> rfl

theorem Precedence.operator?_eq_none_iff {p : Precedence} {t : Token} :
    p.operator? t = none ↔ t.rank? ≠ some p.rank := by
  rcases t with _ | _ | _ | _ | _ | m
  case mark => cases p <;> cases m <;> decide
  all_goals cases p <;> simp [operator?, Token.rank?]

theorem Precedence.precedence?_of_operator? {p : Precedence} {t : Token} {op : BinaryOperator}
    (h : p.operator? t = some op) : op.precedence? = some p := by
  unfold operator? at h
  split at h <;> cases h <;> rfl

namespace Phrase

/-- No phrase of a list needs more than all of them together. -/
theorem need_le_needs {a : Phrase} {as : List Phrase} (h : a ∈ as) : a.need ≤ needs as := by
  induction as with
  | nil => cases h
  | cons b bs ih =>
    rw [needs]
    rcases List.mem_cons.mp h with rfl | h
    · exact Nat.le_max_left _ _
    · exact Nat.le_trans (ih h) (Nat.le_max_right _ _)

/-- An operator of a chain adds a link to what is to its left. -/
theorem links_binary {p : Precedence} {op : BinaryOperator} {offset : Nat} {left right : Phrase}
    (h : op.precedence? = some p) : (binary offset op left right).links p = left.links p + 1 := by
  rw [links, if_pos h]

/-- The right operand of a chain needs a level for each link to its left and one of its own. -/
theorem need_binary {p : Precedence} {op : BinaryOperator} {offset : Nat} {left right : Phrase}
    (h : op.precedence? = some p) : (binary offset op left right).need =
      max left.need (left.links p + 1 + right.need) := by
  rw [need, linksBefore, h]

/-- Phrases need no more than a number exactly when each of them does. -/
theorem needs_le_iff {as : List Phrase} {n : Nat} : needs as ≤ n ↔ ∀ a ∈ as, a.need ≤ n := by
  induction as with
  | nil => simp [needs]
  | cons a as ih =>
    rw [needs, List.forall_mem_cons, ← ih]
    exact Nat.max_le

end Phrase

/-- Where something needs a level of its own, there is one, and others are left for the rest. -/
theorem exists_fewer {need levels : Nat} (h : need + 1 ≤ levels) :
    ∃ fewer, levels = fewer + 1 ∧ need ≤ fewer := by
  obtain ⟨fewer, rfl⟩ := Nat.exists_eq_add_one.mpr (Nat.lt_of_lt_of_le (Nat.succ_pos _) h)
  exact ⟨fewer, rfl, Nat.le_of_succ_le_succ h⟩

theorem exists_mem_zip {α β : Type} {as : List α} {bs : List β} (hlen : as.length = bs.length)
    {b : β} (hb : b ∈ bs) : ∃ a, (a, b) ∈ as.zip bs := by
  rw [← List.map_snd_zip (Nat.le_of_eq hlen.symm)] at hb
  obtain ⟨⟨a, b⟩, hq, rfl⟩ := List.mem_map.mp hb
  exact ⟨a, hq⟩

/-- A phrase of a tighter category has no links of a looser chain. -/
theorem Derives.links_eq_zero {c : Category} {tokens : List Located} {a : Phrase}
    (h : Derives c tokens a) {p : Precedence} (hp : p.rank < c.rank) : a.links p = 0 := by
  induction h with
  | link offset hleft hop hright =>
    rename_i q t op lefts rights left right ihleft ihright
    have hne : q ≠ p := by
      rintro rfl
      exact Nat.lt_irrefl _ hp
    rw [Phrase.links, Precedence.precedence?_of_operator? hop, if_neg (by simpa using hne)]
  | operand h ih =>
    rename_i q tokens a
    refine ih ?_
    rw [Precedence.rank_operand]
    exact Nat.lt_succ_of_lt hp
  | signed h ih => exact ih (Nat.lt_succ_of_lt hp)
  | single h ih => exact ih (Nat.lt_succ_of_lt hp)
  | _ => rfl

/-- A phrase starts with a token that closes nothing and separates nothing, and with a sign only
where signs may stand. -/
theorem Derives.exists_cons {c : Category} {tokens : List Located} {a : Phrase}
    (h : Derives c tokens a) :
    ∃ t rest, tokens = t :: rest ∧ t.token ≠ .mark .rightParen ∧
      (c = .single → sign? t.token = none) := by
  induction h with
  | number offset x => exact ⟨_, _, rfl, nofun, fun _ => rfl⟩
  | string offset s => exact ⟨_, _, rfl, nofun, fun _ => rfl⟩
  | boolean offset b => exact ⟨_, _, rfl, nofun, fun _ => rfl⟩
  | reference offset name default => exact ⟨_, _, rfl, nofun, fun _ => rfl⟩
  | parens left right h ih => exact ⟨_, _, rfl, nofun, fun _ => rfl⟩
  | call offset name left right hlen h hsep ih => exact ⟨_, _, rfl, nofun, fun _ => rfl⟩
  | sign offset hop h ih =>
    refine ⟨_, _, rfl, ?_, nofun⟩
    rintro rfl
    cases hop
  | single h ih =>
    obtain ⟨t, rest, rfl, ht, -⟩ := ih
    exact ⟨t, rest, rfl, ht, nofun⟩
  | power offset hleft hright ihleft ihright =>
    obtain ⟨t, rest, rfl, ht, -⟩ := ihleft
    exact ⟨t, _, rfl, ht, nofun⟩
  | signed h ih =>
    obtain ⟨t, rest, rfl, ht, -⟩ := ih
    exact ⟨t, rest, rfl, ht, nofun⟩
  | link offset hleft hop hright ihleft ihright =>
    obtain ⟨t, rest, rfl, ht, -⟩ := ihleft
    exact ⟨t, _, rfl, ht, nofun⟩
  | operand h ih =>
    obtain ⟨t, rest, rfl, ht, -⟩ := ih
    exact ⟨t, rest, rfl, ht, nofun⟩

end TypedFormula
