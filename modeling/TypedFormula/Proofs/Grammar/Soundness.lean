import TypedFormula.Proofs.Parsing

/-!
# What the parser accepts is a formula

The procedures for a number of levels take a phrase of their category from the front of the tokens,
and the expression that they give is what this phrase is within the scope. The phrase needs no
more levels than there are.

The proof is by induction on the number of levels, since the procedures for some number are made
from those for one less. At one number of levels the categories follow each other from tight to
loose, and each needs only the one before it. A chain is special: it is entered with operands
already behind it. What it gives is therefore measured against the level at which the chain began,
which is the level at hand plus one for each of these operands (`ChainSound`).

Main statement: `reads_of_reader`.
-/

namespace TypedFormula

section

variable (scope : Scope) (ending : Except CompileError Nat)

/-- Tokens start with a phrase of a category that is an expression, and others are left. -/
def Reads (levels : Nat) (c : Category) (tokens : List Located) (e : Expr)
    (rest : List Located) : Prop :=
  ∃ used a, tokens = used ++ rest ∧ Derives c used a ∧ Typed scope a e ∧ a.need ≤ levels ∧
    Ready ending rest

/-- Tokens start with phrases that are expressions, separated by commas, and others are left. -/
private def ReadsArguments (levels : Nat) (tokens : List Located) (es : List Expr)
    (rest : List Located) : Prop :=
  ∃ pieces args used, tokens = used ++ rest ∧ Separated pieces used ∧
    pieces.length = args.length ∧
    (∀ q ∈ pieces.zip args, Derives (.chain .comparison) q.1 q.2) ∧
    args.length = es.length ∧ (∀ q ∈ args.zip es, Typed scope q.1 q.2) ∧
    Phrase.needs args ≤ levels

/-- The readers for a number of levels give phrases of their categories. -/
private def ReaderSound (levels : Nat) : Prop :=
  ∀ c tokens e rest, reader scope ending levels c tokens = .ok (e, rest) →
    Reads scope ending levels c tokens e rest

/-- The rest of a chain continues the chain to its left. -/
def ChainSound (levels : Nat) : Prop :=
  ∀ p left tokens e rest used l, Derives (.chain p) used l → Typed scope l left →
    l.need ≤ levels + l.links p → Ready ending tokens →
    parseChain ending (below scope ending levels) p left tokens = .ok (e, rest) →
    ∃ more a, tokens = more ++ rest ∧ Derives (.chain p) (used ++ more) a ∧ Typed scope a e ∧
      a.need ≤ levels + l.links p ∧ Ready ending rest

end

variable {scope : Scope} {ending : Except CompileError Nat} {levels : Nat}

/-! ### Arguments -/

private theorem Reads.arguments {tokens rest : List Located} {e : Expr}
    (h : Reads scope ending levels (.chain .comparison) tokens e rest) :
    ReadsArguments scope levels tokens [e] rest := by
  obtain ⟨used, a, rfl, hder, hty, hneed, -⟩ := h
  refine ⟨[used], [a], used, rfl, .one used, rfl, by simpa using hder, rfl, by simpa using hty, ?_⟩
  exact Phrase.needs_le_iff.mpr (by simpa using hneed)

/-- An expression, a comma and arguments are arguments. -/
private theorem Reads.cons_arguments {tokens rest rest' : List Located} {e : Expr} {es : List Expr}
    {comma : Nat}
    (h : Reads scope ending levels (.chain .comparison) tokens e (⟨.mark .comma, comma⟩ :: rest))
    (hes : es ≠ []) (hothers : ReadsArguments scope levels rest es rest') :
    ReadsArguments scope levels tokens (e :: es) rest' := by
  obtain ⟨used, a, rfl, hder, hty, hneed, -⟩ := h
  obtain ⟨pieces, args, used', rfl, hsep, hlen, hders, hlen', htys, hneeds⟩ := hothers
  have hpieces : pieces ≠ [] := by
    rintro rfl
    rw [List.length_nil] at hlen
    exact hes (List.eq_nil_of_length_eq_zero (hlen'.symm.trans hlen.symm))
  obtain ⟨next, pieces, rfl⟩ := List.exists_cons_of_ne_nil hpieces
  refine ⟨used :: next :: pieces, a :: args, used ++ ⟨.mark .comma, comma⟩ :: used', by simp,
    .more comma hsep, congrArg (· + 1) hlen, ?_, congrArg (· + 1) hlen', ?_, ?_⟩
  · rw [List.zip_cons_cons, List.forall_mem_cons]
    exact ⟨hder, hders⟩
  · rw [List.zip_cons_cons, List.forall_mem_cons]
    exact ⟨hty, htys⟩
  · exact Nat.max_le.mpr ⟨hneed, hneeds⟩

/-- Arguments are expressions with commas in between. -/
private theorem readsArguments_of_parseArguments {expression : List Located → Parsed}
    (hexpression : ∀ tokens e rest, expression tokens = .ok (e, rest) →
      Reads scope ending levels (.chain .comparison) tokens e rest)
    {more : Nat} {tokens rest : List Located} {es : List Expr}
    (h : parseArguments ending expression more tokens = .ok (es, rest)) :
    es ≠ [] ∧ ReadsArguments scope levels tokens es rest := by
  -- the induction is on how many arguments may follow
  induction more generalizing tokens es with
  | zero =>
    rcases parseArguments_ok h with ⟨e, he, rfl⟩ | ⟨fewer, e, comma, rest₁, others, hmore, -⟩
    · exact ⟨List.cons_ne_nil e [], (hexpression _ _ _ he).arguments⟩
    · cases hmore
  | succ more ih =>
    rcases parseArguments_ok h with
      ⟨e, he, rfl⟩ | ⟨fewer, e, comma, rest₁, others, hmore, he, hothers, rfl⟩
    · exact ⟨List.cons_ne_nil e [], (hexpression _ _ _ he).arguments⟩
    · obtain rfl := Nat.succ.inj hmore
      obtain ⟨hne, hreads⟩ := ih hothers
      exact ⟨List.cons_ne_nil e others, (hexpression _ _ _ he).cons_arguments hne hreads⟩

private theorem readsArguments_of_parseOptionalArguments {expression : List Located → Parsed}
    (hexpression : ∀ tokens e rest, expression tokens = .ok (e, rest) →
      Reads scope ending levels (.chain .comparison) tokens e rest)
    {tokens rest : List Located} {es : List Expr}
    (h : parseOptionalArguments ending expression tokens = .ok (es, rest)) :
    ReadsArguments scope levels tokens es rest := by
  rw [parseOptionalArguments] at h
  split at h
  · obtain ⟨rfl, rfl⟩ := Prod.mk.inj (Except.ok.inj h)
    exact ⟨[], [], [], rfl, .none, rfl, nofun, rfl, nofun, Nat.zero_le _⟩
  · exact (readsArguments_of_parseArguments hexpression h).2

/-! ### One number of levels -/

section

variable (ih : ∀ fewer, levels = fewer + 1 →
  ReaderSound scope ending fewer ∧ ChainSound scope ending fewer)

include ih

/-- A single operand is a phrase. -/
private theorem reads_single {tokens rest : List Located} {e : Expr}
    (h : reader scope ending levels .single tokens = .ok (e, rest)) :
    Reads scope ending levels .single tokens e rest := by
  obtain ⟨⟨t, offset⟩, rest₁, rfl, hready⟩ := exists_cons_of_parseSingle h
  rw [reader, parseSingle_cons hready] at h
  split at h
  case h_1 _ x ht =>
    obtain rfl : t = .number x := ht
    obtain ⟨rfl, rfl⟩ := Prod.mk.inj (Except.ok.inj h)
    exact ⟨_, _, rfl, .number offset x, .number offset x, Nat.zero_le _, hready⟩
  case h_2 _ s ht =>
    obtain rfl : t = .string s := ht
    obtain ⟨rfl, rfl⟩ := Prod.mk.inj (Except.ok.inj h)
    exact ⟨_, _, rfl, .string offset s, .string offset s, Nat.zero_le _, hready⟩
  case h_3 _ b ht =>
    obtain rfl : t = .boolean b := ht
    obtain ⟨rfl, rfl⟩ := Prod.mk.inj (Except.ok.inj h)
    exact ⟨_, _, rfl, .boolean offset b, .boolean offset b, Nat.zero_le _, hready⟩
  case h_4 _ name text ht =>
    obtain rfl : t = .reference name text := ht
    split at h
    · cases h
    · rename_i node hnode
      obtain ⟨rfl, rfl⟩ := Prod.mk.inj (Except.ok.inj h)
      obtain ⟨kind, default, hkind, hdefault, rfl⟩ := typedReference_ok_iff.mp hnode
      exact ⟨_, _, rfl, .reference offset name text, .reference offset hkind hdefault,
        Nat.zero_le _, hready⟩
  case h_5 _ name ht =>
    obtain rfl : t = .identifier name := ht
    split at h
    · obtain ⟨f, left, rest₂, level, args, right, hf, rfl, -, hlevel, hargs, hready', hnode⟩ :=
        parseCall_ok_iff.mp h
      obtain ⟨fewer, rfl, rfl⟩ := (below_eq_some_iff scope ending).mp hlevel
      rw [expression_procedures] at hargs
      obtain ⟨pieces, phrases, used, rfl, hsep, hlen, hder, hlen', hty, hneed⟩ :=
        readsArguments_of_parseOptionalArguments ((ih fewer rfl).1 _) hargs
      obtain ⟨kind, hkind, rfl⟩ := typedCall_ok_iff.mp hnode
      exact ⟨_, _, by simp, .call offset name left right hlen hder hsep,
        .call offset hlen' hty hf hkind, Nat.succ_le_succ hneed, hready'⟩
    · cases h
  case h_6 _ ht =>
    obtain rfl : t = .mark .leftParen := ht
    obtain ⟨level, right, hlevel, hinner, hready'⟩ := parseParenthesized_ok_iff.mp h
    obtain ⟨fewer, rfl, rfl⟩ := (below_eq_some_iff scope ending).mp hlevel
    rw [expression_procedures] at hinner
    obtain ⟨used, a, rfl, hder, hty, hneed, -⟩ := (ih fewer rfl).1 _ _ _ _ hinner
    exact ⟨_, _, by simp, .parens offset right hder, .parens hty, Nat.succ_le_succ hneed, hready'⟩
  case h_7 => cases h

/-- A signed operand is a phrase. -/
private theorem reads_signed {tokens rest : List Located} {e : Expr}
    (h : reader scope ending levels .signed tokens = .ok (e, rest)) :
    Reads scope ending levels .signed tokens e rest := by
  rcases parseSigned_ok_iff.mp h with
    ⟨-, h⟩ | ⟨⟨t, offset⟩, rest₁, op, level, operand, rfl, hop, -, hlevel, hoperand, hnode⟩
  · obtain ⟨used, a, rfl, hder, hty, hneed, hready⟩ := reads_single ih h
    exact ⟨used, a, rfl, .single hder, hty, hneed, hready⟩
  · obtain ⟨fewer, rfl, rfl⟩ := (below_eq_some_iff scope ending).mp hlevel
    rw [signed_procedures] at hoperand
    obtain ⟨used, a, rfl, hder, hty, hneed, hready⟩ := (ih fewer rfl).1 _ _ _ _ hoperand
    obtain ⟨hkind, rfl⟩ := typedUnary_ok_iff.mp hnode
    exact ⟨_, _, rfl, .sign offset hop hder, .sign offset hty hkind, Nat.succ_le_succ hneed,
      hready⟩

/-- An operand of a product is a phrase. -/
private theorem reads_power {tokens rest : List Located} {e : Expr}
    (h : reader scope ending levels .power tokens = .ok (e, rest)) :
    Reads scope ending levels .power tokens e rest := by
  rcases parsePower_ok_iff.mp h with
    ⟨h, -⟩ | ⟨left, offset, rest₁, level, right, hleft, -, hlevel, hright, hnode⟩
  · obtain ⟨used, a, rfl, hder, hty, hneed, hready⟩ := reads_signed ih h
    exact ⟨used, a, rfl, .signed hder, hty, hneed, hready⟩
  · obtain ⟨used, a, rfl, hder, hty, hneed, -⟩ := reads_signed ih hleft
    obtain ⟨fewer, rfl, rfl⟩ := (below_eq_some_iff scope ending).mp hlevel
    rw [operand_procedures] at hright
    obtain ⟨used', b, rfl, hder', hty', hneed', hready⟩ := (ih fewer rfl).1 _ _ _ _ hright
    obtain ⟨htakes, htakes', rfl⟩ := typedBinary_ok_iff.mp hnode
    refine ⟨_, _, by simp, .power offset hder hder', .binary offset hty hty' htakes htakes',
      Nat.max_le.mpr ⟨hneed, ?_⟩, hready⟩
    simp only [Phrase.linksBefore, BinaryOperator.precedence?]
    omega

/-- The rest of a chain continues the chain to its left. -/
private theorem chainSound : ChainSound scope ending levels := by
  intro p left tokens e rest used l hder hty hneed hready h
  rcases parseChain_ok_iff.mp h with
    ⟨-, rfl, rfl⟩ |
      ⟨⟨t, offset⟩, rest₁, op, level, right, rest₂, node, rfl, hop, -, hlevel, hright, hnode, h⟩
  · exact ⟨[], l, rfl, by simpa using hder, hty, hneed, hready⟩
  · obtain ⟨fewer, rfl, rfl⟩ := (below_eq_some_iff scope ending).mp hlevel
    rw [operand_procedures] at hright
    rw [chain_procedures] at h
    obtain ⟨used', b, rfl, hder', hty', hneed', hready'⟩ := (ih fewer rfl).1 _ _ _ _ hright
    obtain ⟨htakes, htakes', rfl⟩ := typedBinary_ok_iff.mp hnode
    have hprec := Precedence.precedence?_of_operator? hop
    have hlinks : (Phrase.binary offset op l b).links p = l.links p + 1 :=
      Phrase.links_binary hprec
    -- one level less, but one more link: the level at which the chain began is the same
    have hneed'' : (Phrase.binary offset op l b).need ≤
        fewer + (Phrase.binary offset op l b).links p := by
      rw [hlinks, Phrase.need_binary hprec]
      omega
    obtain ⟨more, a, rfl, hder'', hty'', hneed''', hready''⟩ :=
      (ih fewer rfl).2 p _ _ _ _ _ _ (.link offset hder hop hder')
        (.binary offset hty hty' htakes htakes') hneed'' hready' h
    refine ⟨⟨t, offset⟩ :: used' ++ more, a, by simp, by simpa using hder'', hty'', ?_, hready''⟩
    rw [hlinks] at hneed'''
    omega

/-- A chained category is read soundly if its operands are. -/
private theorem reads_chain (p : Precedence)
    (hoperand : ∀ tokens e rest, reader scope ending levels p.operand tokens = .ok (e, rest) →
      Reads scope ending levels p.operand tokens e rest)
    {tokens rest : List Located} {e : Expr}
    (h : reader scope ending levels (.chain p) tokens = .ok (e, rest)) :
    Reads scope ending levels (.chain p) tokens e rest := by
  rw [reader_chain] at h
  obtain ⟨left, rest₁, hleft, hrest⟩ := parseChained_ok_iff.mp h
  obtain ⟨used, l, rfl, hder, hty, hneed, hready⟩ := hoperand _ _ _ hleft
  -- the chain begins at this level: no link of it is in the operand
  have hlinks : l.links p = 0 := by
    refine hder.links_eq_zero ?_
    rw [Precedence.rank_operand]
    exact Nat.lt_succ_self _
  obtain ⟨more, a, rfl, hder', hty', hneed', hready'⟩ :=
    chainSound ih p _ _ _ _ _ _ (.operand hder) hty (by omega) hready hrest
  exact ⟨used ++ more, a, by simp, hder', hty', by omega, hready'⟩

/-- All readers for a number of levels are sound if those for one level less are. -/
private theorem readerSound : ReaderSound scope ending levels := by
  -- from tight to loose, each chain has the one before it as operands
  have hproduct : ∀ tokens e rest, reader scope ending levels (.chain .product) tokens =
      .ok (e, rest) → Reads scope ending levels (.chain .product) tokens e rest :=
    fun _ _ _ h => reads_chain ih .product (fun _ _ _ h => reads_power ih h) h
  have hsum : ∀ tokens e rest, reader scope ending levels (.chain .sum) tokens = .ok (e, rest) →
      Reads scope ending levels (.chain .sum) tokens e rest :=
    fun _ _ _ h => reads_chain ih .sum hproduct h
  have hconcat : ∀ tokens e rest, reader scope ending levels (.chain .concat) tokens =
      .ok (e, rest) → Reads scope ending levels (.chain .concat) tokens e rest :=
    fun _ _ _ h => reads_chain ih .concat hsum h
  intro c tokens e rest h
  rcases c with (_ | _ | _ | _) | _ | _ | _
  · exact reads_chain ih .comparison hconcat h
  · exact hconcat _ _ _ h
  · exact hsum _ _ _ h
  · exact hproduct _ _ _ h
  · exact reads_power ih h
  · exact reads_signed ih h
  · exact reads_single ih h

end

/-! ### All numbers of levels -/

/-- What a reader gives is a phrase of its category, within the levels that there are. -/
theorem reads_of_reader {c : Category} {tokens rest : List Located} {e : Expr}
    (h : reader scope ending levels c tokens = .ok (e, rest)) :
    Reads scope ending levels c tokens e rest := by
  -- readers and chains call each other one level below, so neither statement goes through alone
  have hall : ReaderSound scope ending levels ∧ ChainSound scope ending levels := by
    clear h
    induction levels with
    | zero => exact ⟨readerSound nofun, chainSound nofun⟩
    | succ levels ih =>
      have ih' : ∀ fewer, levels + 1 = fewer + 1 →
          ReaderSound scope ending fewer ∧ ChainSound scope ending fewer := by
        rintro fewer hfewer
        obtain rfl := Nat.succ.inj hfewer
        exact ih
      exact ⟨readerSound ih', chainSound ih'⟩
  exact hall.1 c tokens e rest h

end TypedFormula
