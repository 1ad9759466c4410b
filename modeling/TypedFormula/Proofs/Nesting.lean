import TypedFormula.Proofs.Nesting.Tower

/-!
# How high formulas can be

The parser opens a limited number of levels, but the limit is no bound on the height of trees. Going
down in a tree, every operator and every call takes a level, except for an operator that is left
for its left operand: that operand was read before the operator, and its levels are closed again
when the operator opens one.

So a path has two counts (`Descent`), the operators and calls that take levels, and those that are
left to the left. The limit bounds the first count, and a tree is no higher than the limit exactly
when on every path the second one makes up for no more than the first one leaves free. Over all
trees, the operators of a chain are as many as there are levels, the four chained precedences stand
on top of each other, and each level of calls starts again. This gives `2 * L * L + 4 * L` for `L`
levels (`Category.tallest`), and the towers of operators reach it.

Main statements:

* `charged_le_need` — what a phrase needs bounds the first count;
* `height_le_tallest` — the height of the phrases of a category;
* `exists_height_iff` — which numbers are heights of formulas;
* `parseFormula_height_le_iff` — which formulas are no higher than the limit;
* `exists_height_gt_maxNesting` — a formula that is higher.
-/

namespace TypedFormula

/-! ### Paths -/

/-- The operators and calls on a path down a tree. -/
structure Descent where
  /-- The number of those that are not left for their left operands. -/
  charged : Nat
  /-- The number of those that are. -/
  left : Nat
deriving DecidableEq

namespace Descent

/-- The empty path. -/
def stop : Descent := ⟨0, 0⟩

/-- A path below an operator or a call, not in its left operand. -/
def charge (d : Descent) : Descent := ⟨d.charged + 1, d.left⟩

/-- A path in the left operand of an operator. -/
def goLeft (d : Descent) : Descent := ⟨d.charged, d.left + 1⟩

end Descent

namespace Expr

mutual

/-- The paths from the root of a tree to its leaves, and to its calls. -/
def paths : Expr → List Descent
  | number _ _ => [.stop]
  | string _ _ => [.stop]
  | boolean _ _ => [.stop]
  | reference _ _ _ _ => [.stop]
  | unary _ _ operand => operand.paths.map .charge
  | binary _ _ left right => left.paths.map .goLeft ++ right.paths.map .charge
  | call _ _ _ args => (Descent.stop :: allPaths args).map .charge

/-- The paths in some trees. -/
def allPaths : List Expr → List Descent
  | [] => []
  | e :: es => e.paths ++ allPaths es

end

private theorem mem_allPaths {d : Descent} {es : List Expr} :
    d ∈ allPaths es ↔ ∃ e ∈ es, d ∈ e.paths := by
  induction es with
  | nil => simp [allPaths]
  | cons e es ih => simp [allPaths, ih]

private theorem heights_le_iff {es : List Expr} {n : Nat} :
    heights es ≤ n ↔ ∀ e ∈ es, e.height ≤ n := by
  induction es with
  | nil => simp [heights]
  | cons e es ih =>
    rw [heights, List.forall_mem_cons, ← ih]
    exact Nat.max_le

mutual

/-- The height of a tree, below some operators, is the longest of its paths. -/
private theorem height_add_le_iff (e : Expr) (above n : Nat) :
    e.height + above ≤ n ↔ ∀ d ∈ e.paths, d.charged + d.left + above ≤ n := by
  match e with
  | number _ _ => simp [height, paths, Descent.stop]
  | string _ _ => simp [height, paths, Descent.stop]
  | boolean _ _ => simp [height, paths, Descent.stop]
  | reference _ _ _ _ => simp [height, paths, Descent.stop]
  | unary _ _ operand =>
    -- the operator is one more above its operand
    have hoperand := height_add_le_iff operand (above + 1) n
    rw [height, paths, List.forall_mem_map, Nat.add_right_comm, Nat.add_assoc, hoperand]
    refine forall₂_congr fun d _ => ?_
    simp only [Descent.charge]
    omega
  | binary _ _ left right =>
    have hleft := height_add_le_iff left (above + 1) n
    have hright := height_add_le_iff right (above + 1) n
    have hmax : Nat.max left.height right.height + 1 + above ≤ n ↔
        left.height + (above + 1) ≤ n ∧ right.height + (above + 1) ≤ n := by
      change max left.height right.height + 1 + above ≤ n ↔ _
      omega
    rw [height, paths, List.forall_mem_append, List.forall_mem_map, List.forall_mem_map, hmax,
      hleft, hright]
    refine and_congr (forall₂_congr fun d _ => ?_) (forall₂_congr fun d _ => ?_)
    · simp only [Descent.goLeft]
      omega
    · simp only [Descent.charge]
      omega
  | call _ _ _ args =>
    have hargs := heights_add_le_iff args (above + 1) n
    have hbelow : heights args + 1 + above ≤ n ↔ heights args + (above + 1) ≤ n := by omega
    rw [height, paths, List.forall_mem_map, List.forall_mem_cons, hbelow, hargs]
    refine and_congr ?_ (forall₂_congr fun d _ => ?_)
    · simp only [Descent.charge, Descent.stop]
      omega
    · simp only [Descent.charge]
      omega

/-- The largest height of some trees, below some operators, is the longest of their paths. -/
theorem heights_add_le_iff (es : List Expr) (above n : Nat) :
    heights es + above ≤ n ↔
      above ≤ n ∧ ∀ d ∈ allPaths es, d.charged + d.left + above ≤ n := by
  match es with
  | [] => simp [heights, allPaths]
  | e :: es =>
    have hfirst := height_add_le_iff e above n
    have hothers := heights_add_le_iff es above n
    have hmax : Nat.max e.height (heights es) + above ≤ n ↔
        e.height + above ≤ n ∧ heights es + above ≤ n := by
      change max e.height (heights es) + above ≤ n ↔ _
      omega
    rw [heights, allPaths, List.forall_mem_append, hmax, hfirst, hothers]
    exact and_left_comm

end

end Expr

/-! ### What the limit bounds -/

variable {scope : Scope} {a : Phrase} {e : Expr}

/-- Operators and calls that are not left for their left operands take levels. -/
theorem charged_le_need (h : Typed scope a e) : ∀ d ∈ e.paths, d.charged ≤ a.need := by
  induction h with
  | number offset x => simp [Expr.paths, Descent.stop]
  | string offset s => simp [Expr.paths, Descent.stop]
  | boolean offset b => simp [Expr.paths, Descent.stop]
  | reference offset hkind hdefault => simp [Expr.paths, Descent.stop]
  | parens h ih => exact fun d hd => Nat.le_succ_of_le (ih d hd)
  | @call name args es f kind offset hlen h hf hkind ih =>
    intro d hd
    obtain ⟨below, hbelow, rfl⟩ := List.mem_map.mp hd
    refine Nat.succ_le_succ ?_
    -- the path stops at the call, or goes on in one of the arguments
    rcases List.mem_cons.mp hbelow with rfl | hbelow
    · exact Nat.zero_le _
    · obtain ⟨e, he, hbelow⟩ := Expr.mem_allPaths.mp hbelow
      obtain ⟨a, hq⟩ := exists_mem_zip hlen he
      exact Nat.le_trans (ih (a, e) hq below hbelow)
        (Phrase.need_le_needs (List.of_mem_zip hq).1)
  | sign offset h hkind ih =>
    intro d hd
    obtain ⟨below, hbelow, rfl⟩ := List.mem_map.mp hd
    exact Nat.succ_le_succ (ih below hbelow)
  | @binary op a b left right offset hleft hright htakes htakes' ihleft ihright =>
    intro d hd
    rw [Phrase.need]
    change d.charged ≤ max a.need (a.linksBefore op + 1 + b.need)
    rcases List.mem_append.mp hd with hd | hd
    · -- what the left operand needs is not added to, it is closed before the operator
      obtain ⟨below, hbelow, rfl⟩ := List.mem_map.mp hd
      have hneed := ihleft below hbelow
      simp only [Descent.goLeft]
      omega
    · obtain ⟨below, hbelow, rfl⟩ := List.mem_map.mp hd
      have hneed := ihright below hbelow
      simp only [Descent.charge]
      omega

/-! ### Heights of categories -/

/-- The largest height of the phrases of a category that need no more than some levels. -/
def Category.tallest (levels : Nat) : Category → Nat
  | .chain p => 2 * (levels * levels) + (4 - p.rank) * levels
  | .power => 2 * (levels * levels)
  | .signed => 2 * (levels * levels) - 1
  | .single => 2 * (levels * levels) - 1

private theorem tallest_chain (p : Precedence) (levels : Nat) :
    (Category.chain p).tallest levels = p.operand.tallest levels + levels := by
  cases p <;> simp only [Category.tallest, Precedence.operand, Precedence.rank] <;> omega

/-- There are no more links than levels. -/
private theorem links_le_need (p : Precedence) (a : Phrase) : a.links p ≤ a.need := by
  cases a with
  | binary offset op left right =>
    by_cases hop : op.precedence? = some p
    · rw [Phrase.links_binary hop, Phrase.need_binary hop]
      omega
    · rw [Phrase.links, if_neg hop]
      exact Nat.zero_le _
  | _ => exact Nat.zero_le _

/-- What is shown of a derivation: a phrase is no higher than its category allows, and of a chain
also that the height comes from its operands and its links. -/
private def HeightBounded (levels : Nat) (a : Phrase) (e : Expr) : Category → Prop
  | .chain p => e.height ≤ p.operand.tallest levels + a.links p
  | .power => e.height ≤ Category.power.tallest levels
  | .signed => e.height ≤ Category.signed.tallest levels
  | .single => e.height ≤ Category.single.tallest levels

private theorem HeightBounded.height_le {levels : Nat} {c : Category}
    (h : HeightBounded levels a e c) (hneed : a.need ≤ levels) : e.height ≤ c.tallest levels := by
  rcases c with p | _ | _ | _
  · have hlinks := links_le_need p a
    rw [HeightBounded] at h
    rw [tallest_chain]
    omega
  · exact h
  · exact h
  · exact h

/-- Every derivation is bounded: by induction on it, one case for each rule. -/
private theorem heightBounded_of_derives {c : Category} {tokens : List Located}
    (h : Derives c tokens a) (hty : Typed scope a e) {levels : Nat} (hneed : a.need ≤ levels) :
    HeightBounded levels a e c := by
  induction h generalizing e levels with
  | number offset x =>
    cases hty
    exact Nat.zero_le _
  | string offset s =>
    cases hty
    exact Nat.zero_le _
  | boolean offset b =>
    cases hty
    exact Nat.zero_le _
  | reference offset name text =>
    cases hty
    exact Nat.zero_le _
  | @parens tokens inner left right h ih =>
    obtain ⟨fewer, rfl, hfewer⟩ := exists_fewer hneed
    cases hty with
    | parens hty =>
      have hinner := HeightBounded.height_le (ih hty hfewer) hfewer
      simp only [HeightBounded, Category.tallest, Precedence.rank, succ_mul_succ_self] at hinner ⊢
      omega
  | @call pieces args tokens offset name left right hlen h hsep ih =>
    obtain ⟨fewer, rfl, hfewer⟩ := exists_fewer hneed
    cases hty with
    | @call _ _ es f kind _ hlen' hty hf hkind =>
      have hargs : Expr.heights es ≤ (Category.chain .comparison).tallest fewer := by
        refine Expr.heights_le_iff.mpr fun e he => ?_
        obtain ⟨a, hq⟩ := exists_mem_zip hlen' he
        have ha := (List.of_mem_zip hq).1
        obtain ⟨piece, hq'⟩ := exists_mem_zip hlen ha
        have ha' := Nat.le_trans (Phrase.need_le_needs ha) hfewer
        exact HeightBounded.height_le (ih (piece, a) hq' (hty (a, e) hq) ha') ha'
      simp only [HeightBounded, Category.tallest, Precedence.rank, Expr.height,
        succ_mul_succ_self] at hargs ⊢
      omega
  | @sign t op tokens operand offset hop h ih =>
    obtain ⟨fewer, rfl, hfewer⟩ := exists_fewer hneed
    cases hty with
    | sign _ hty hkind =>
      have hoperand := ih hty hfewer
      simp only [HeightBounded, Category.tallest, Expr.height, succ_mul_succ_self] at hoperand ⊢
      omega
  | single h ih => exact ih hty hneed
  | @power lefts rights left right offset hleft hright ihleft ihright =>
    obtain ⟨hneed₁, hneed₂⟩ := Nat.max_le.mp hneed
    obtain ⟨fewer, rfl⟩ : ∃ fewer, levels = fewer + 1 := Nat.exists_eq_add_one.mpr (by omega)
    cases hty with
    | @binary _ _ _ l r _ hty hty' htakes htakes' =>
      -- the left side has all levels but is a signed operand, the right side has one level less
      have hl := ihleft hty hneed₁
      have hr : HeightBounded fewer right r .power := ihright hty' (by omega)
      simp only [HeightBounded, Category.tallest, succ_mul_succ_self] at hl hr ⊢
      change max l.height r.height + 1 ≤ _
      omega
  | signed h ih =>
    have hsigned := ih hty hneed
    simp only [HeightBounded, Category.tallest] at hsigned ⊢
    omega
  | @link p t op lefts rights left right offset hleft hop hright ihleft ihright =>
    have hprec := Precedence.precedence?_of_operator? hop
    rw [Phrase.need_binary hprec] at hneed
    cases hty with
    | @binary _ _ _ l r _ hty hty' htakes htakes' =>
      -- a link makes the chain to its left higher by one, and its right side is a mere operand
      have hl : HeightBounded levels left l (.chain p) := ihleft hty (by omega)
      have hr : HeightBounded levels right r p.operand := ihright hty' (by omega)
      have hr' := hr.height_le (by omega)
      rw [HeightBounded] at hl ⊢
      rw [Phrase.links_binary hprec]
      change max l.height r.height + 1 ≤ _
      omega
  | @operand p tokens a h ih =>
    have hoperand := HeightBounded.height_le (ih hty hneed) hneed
    exact Nat.le_add_right_of_le hoperand

/-- A phrase of a category is no higher than the category allows. -/
theorem height_le_tallest {c : Category} {tokens : List Located} (h : Derives c tokens a)
    (hty : Typed scope a e) {levels : Nat} (hneed : a.need ≤ levels) :
    e.height ≤ c.tallest levels :=
  (heightBounded_of_derives h hty hneed).height_le hneed

/-! ### Heights of formulas -/

/-- The heights of formulas are the numbers up to `2 * L * L + 4 * L`, where `L` is the limit of
levels. -/
theorem exists_height_iff {height : Nat} :
    (∃ scope text e, parseFormula scope text = .ok e ∧ e.height = height) ↔
      height ≤ 2 * (maxNesting * maxNesting) + 4 * maxNesting := by
  constructor
  · rintro ⟨scope, text, e, hparse, rfl⟩
    obtain ⟨tokens, a, hder, hty, hneed⟩ := exists_phrase_of_parseFormula hparse
    exact height_le_tallest hder hty hneed
  · exact fun h => ⟨Tower.scope, exists_parseFormula_of_le h⟩

/-- A formula is no higher than the limit of levels exactly when on every path the operators that
are left for their left operands are no more than the other operators and calls leave free. These
others are never more than the limit. -/
theorem parseFormula_height_le_iff {text : String} (h : parseFormula scope text = .ok e) :
    (e.height ≤ maxNesting ↔ ∀ d ∈ e.paths, d.left ≤ maxNesting - d.charged) ∧
      (∀ d ∈ e.paths, d.charged ≤ maxNesting) ∧
      e.height ≤ 2 * (maxNesting * maxNesting) + 4 * maxNesting := by
  obtain ⟨tokens, a, hder, hty, hneed⟩ := exists_phrase_of_parseFormula h
  have hcharged : ∀ d ∈ e.paths, d.charged ≤ maxNesting :=
    fun d hd => Nat.le_trans (charged_le_need hty d hd) hneed
  refine ⟨?_, hcharged, height_le_tallest hder hty hneed⟩
  refine (e.height_add_le_iff 0 maxNesting).trans (forall₂_congr fun d hd => ?_)
  have hfree := hcharged d hd
  omega

/-- In `-TRUE*FALSE+TRUE` two operators are left for their left operands. -/
theorem height_le_maxNesting_of_signed_sum :
    ∃ e, parseFormula ⟨Dict.empty, Registry.empty⟩ "=-TRUE*FALSE+TRUE" = .ok e ∧
      e.paths = [⟨1, 2⟩, ⟨1, 1⟩, ⟨1, 0⟩] ∧ e.height ≤ maxNesting := by
  have hpaths : (parseFormula ⟨Dict.empty, Registry.empty⟩ "=-TRUE*FALSE+TRUE").toOption.map
      Expr.paths = some [⟨1, 2⟩, ⟨1, 1⟩, ⟨1, 0⟩] := by
    decide +kernel
  cases hparse : parseFormula ⟨Dict.empty, Registry.empty⟩ "=-TRUE*FALSE+TRUE" with
  | error err => simp [hparse, Except.toOption] at hpaths
  | ok e =>
    have he : e.paths = [⟨1, 2⟩, ⟨1, 1⟩, ⟨1, 0⟩] := by
      simpa [hparse, Except.toOption] using hpaths
    refine ⟨e, rfl, he, (parseFormula_height_le_iff hparse).1.mpr ?_⟩
    rw [he]
    decide

/-- A product of variables behind 256 signs is accepted and is higher than the limit. -/
theorem exists_height_gt_maxNesting :
    ∃ e, parseFormula Tower.scope (String.ofList
        ('=' :: (List.replicate 256 '-' ++ variableText ++ (['*'] ++ variableText)))) = .ok e ∧
      ¬ e.height ≤ maxNesting := by
  obtain ⟨e, hparse, hheight⟩ := exists_parseFormula_signs 256 (by decide) (by decide)
  refine ⟨e, hparse, ?_⟩
  rw [hheight]
  decide

end TypedFormula
