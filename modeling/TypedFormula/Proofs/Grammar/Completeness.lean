import TypedFormula.Proofs.Parsing

/-!
# The parser accepts all formulas

Where the text ends well, the procedure for a category takes a phrase of the category from the
front of the tokens, provided that there are as many levels as the phrase needs and that the
tokens behind it do not continue it.

What continues a phrase depends on the category: a phrase between operators of one rank may be
followed by those of looser ranks only (`Ends`). The proof is by induction on the derivation. A
chain is read from its first operand on, while a derivation takes its last operator off first, so
the statement on a chain cannot say that the chain is read to its end. It says instead that reading
the phrase leaves the parser in the chain, behind the phrase and with a level gone for each link
(`Covered`).

Main statement: `reader_of_derives`.
-/

namespace TypedFormula

/-- The first of some tokens does not continue a phrase of a category. -/
def Ends (c : Category) (rest : List Located) : Prop :=
  ∀ t ∈ rest.head?, ∀ r, t.token.rank? = some r → r < c.rank

/-- What ends a phrase ends its last part, which is of a tighter category. -/
private theorem Ends.mono {c d : Category} {rest : List Located} (h : Ends c rest)
    (hcd : c.rank ≤ d.rank) : Ends d rest :=
  fun t ht r hr => Nat.lt_of_lt_of_le (h t ht r hr) hcd

theorem ends_nil (c : Category) : Ends c [] := nofun

/-- An operator of a looser rank ends a phrase, and so does a token that is no operator. -/
private theorem ends_cons {c : Category} {t : Located} {rest : List Located}
    (h : ∀ r, t.token.rank? = some r → r < c.rank) : Ends c (t :: rest) := by
  intro t' ht'
  obtain rfl : t = t' := by simpa using ht'
  exact h

/-- A token that is no operator ends every phrase. -/
private theorem ends_of_rank?_eq_none {c : Category} {t : Located} {rest : List Located}
    (h : t.token.rank? = none) : Ends c (t :: rest) := by
  refine ends_cons fun r hr => ?_
  rw [h] at hr
  cases hr

private theorem Precedence.rank?_of_operator? {p : Precedence} {t : Token} {op : BinaryOperator}
    (h : p.operator? t = some op) : t.rank? = some p.rank := by
  refine Decidable.of_not_not fun hne => ?_
  rw [Precedence.operator?_eq_none_iff.mpr hne] at h
  cases h

/-- What ends a chain is no operator of it. -/
private theorem Ends.operator?_eq_none {p : Precedence} {rest : List Located}
    (h : Ends (.chain p) rest) : ∀ t ∈ rest.head?, p.operator? t.token = none := by
  intro t ht
  rw [Precedence.operator?_eq_none_iff]
  intro hr
  exact Nat.lt_irrefl _ (h t ht _ hr)

private theorem Ends.ne_caret {rest : List Located} (h : Ends .power rest) :
    ∀ t ∈ rest.head?, t.token ≠ .mark .caret := by
  intro t ht hcaret
  have hr : t.token.rank? = some 4 := by rw [hcaret]; rfl
  exact Nat.lt_irrefl _ (h t ht 4 hr)

section

variable (scope : Scope) (stop : Nat)

/-- A category reads a phrase at the front of tokens, and what it gives the phrase is. -/
private def ReadsPhrase (c : Category) (tokens : List Located) (a : Phrase) : Prop :=
  ∀ levels e rest, Typed scope a e → a.need ≤ levels → Ends c rest →
    reader scope (.ok stop) levels c (tokens ++ rest) = .ok (e, rest)

/-- Reading a phrase of a chain leaves the parser in the chain, with a level gone for each link. -/
def Covered (p : Precedence) (tokens : List Located) (a : Phrase) : Prop :=
  ∀ levels e rest result, Typed scope a e → a.need ≤ levels → Ends p.operand rest →
    parseChain (.ok stop) (below scope (.ok stop) (levels - a.links p)) p e rest = .ok result →
    reader scope (.ok stop) levels (.chain p) (tokens ++ rest) = .ok result

/-- What is shown of a derivation. -/
private def Complete : Category → List Located → Phrase → Prop
  | .chain p => Covered scope stop p
  | .power => ReadsPhrase scope stop .power
  | .signed => ReadsPhrase scope stop .signed
  | .single => ReadsPhrase scope stop .single

end

section

variable {scope : Scope} {stop : Nat}

/-- A chain is read to its end where its end is behind it. -/
private theorem Covered.readsPhrase {p : Precedence} {tokens : List Located} {a : Phrase}
    (h : Covered scope stop p tokens a) : ReadsPhrase scope stop (.chain p) tokens a := by
  intro levels e rest hty hneed hends
  refine h levels e rest _ hty hneed (hends.mono ?_) ?_
  · rw [Precedence.rank_operand]
    exact Nat.le_succ _
  · exact parseChain_ok_iff.mpr (.inl ⟨hends.operator?_eq_none, rfl, rfl⟩)

private theorem Complete.readsPhrase {c : Category} {tokens : List Located} {a : Phrase}
    (h : Complete scope stop c tokens a) : ReadsPhrase scope stop c tokens a := by
  rcases c with p | _ | _ | _
  · exact Covered.readsPhrase h
  · exact h
  · exact h
  · exact h

/-! ### Arguments -/

/-- There is at most one list more than there are tokens in all, since commas are tokens. -/
private theorem Separated.length_le {pieces : List (List Located)} {tokens : List Located}
    (h : Separated pieces tokens) : pieces.length ≤ tokens.length + 1 := by
  induction h with
  | none => exact Nat.zero_le _
  | one tokens => exact Nat.succ_le_succ (Nat.zero_le _)
  | more offset h ih =>
    simp only [List.length_cons, List.length_append] at ih ⊢
    omega

private theorem Separated.exists_append {piece : List Located} {pieces : List (List Located)}
    {tokens : List Located} (h : Separated (piece :: pieces) tokens) :
    ∃ rest, tokens = piece ++ rest := by
  cases h with
  | one => exact ⟨[], by simp⟩
  | more offset h => exact ⟨_, rfl⟩

/-- Arguments are read one after the other, up to what ends the last one. -/
private theorem parseArguments_of_separated {levels more : Nat} {pieces : List (List Located)}
    {args : List Phrase} {es : List Expr} {used rest : List Located} (hsep : Separated pieces used)
    (hne : pieces ≠ []) (hlen : pieces.length = args.length)
    (h : ∀ q ∈ pieces.zip args, ReadsPhrase scope stop (.chain .comparison) q.1 q.2)
    (hlen' : args.length = es.length) (hty : ∀ q ∈ args.zip es, Typed scope q.1 q.2)
    (hneed : Phrase.needs args ≤ levels) (hmore : pieces.length ≤ more + 1)
    (hends : Ends (.chain .comparison) rest) (hcomma : nextIs .comma rest = false) :
    parseArguments (.ok stop) (reader scope (.ok stop) levels (.chain .comparison)) more
      (used ++ rest) = .ok (es, rest) := by
  induction hsep generalizing args es more with
  | none => exact absurd rfl hne
  | one tokens =>
    obtain ⟨a, rfl⟩ := List.length_eq_one_iff.mp hlen.symm
    obtain ⟨e, rfl⟩ := List.length_eq_one_iff.mp hlen'.symm
    have hread := h (tokens, a) (by simp) levels e rest (hty (a, e) (by simp))
      (Phrase.needs_le_iff.mp hneed a (by simp)) hends
    rw [parseArguments, hread]
    simp [hcomma]
  | @more tokens next used others offset hsep ih =>
    obtain ⟨a, as, rfl⟩ : ∃ a as, args = a :: as := List.exists_cons_of_length_eq_add_one hlen.symm
    obtain ⟨e, es, rfl⟩ : ∃ e' es', es = e' :: es' :=
      List.exists_cons_of_length_eq_add_one hlen'.symm
    obtain ⟨more, rfl⟩ : ∃ fewer, more = fewer + 1 :=
      Nat.exists_eq_add_one.mpr (by simp only [List.length_cons] at hmore; omega)
    rw [List.zip_cons_cons, List.forall_mem_cons] at h hty
    obtain ⟨hneed₁, hneed₂⟩ := Nat.max_le.mp hneed
    -- a comma is no operator, so the first argument ends before it
    have hread := h.1 levels e (⟨.mark .comma, offset⟩ :: (used ++ rest)) hty.1 hneed₁
      (ends_of_rank?_eq_none rfl)
    have hothers : parseArguments (.ok stop) (reader scope (.ok stop) levels (.chain .comparison))
        more (used ++ rest) = .ok (es, rest) :=
      ih (List.cons_ne_nil next others) (Nat.succ.inj hlen) h.2 (Nat.succ.inj hlen') hty.2 hneed₂
        (Nat.le_of_succ_le_succ hmore)
    rw [List.append_assoc, List.cons_append, parseArguments, hread]
    simp only [nextIs, decide_true, if_true, expectMark_cons (ready_of_ok stop _), hothers]

/-- The arguments of a call are read up to the closing parenthesis, if there are any. -/
private theorem parseOptionalArguments_of_separated {levels right : Nat}
    {pieces : List (List Located)} {args : List Phrase} {es : List Expr} {used rest : List Located}
    (hsep : Separated pieces used) (hlen : pieces.length = args.length)
    (hder : ∀ q ∈ pieces.zip args, Derives (.chain .comparison) q.1 q.2)
    (h : ∀ q ∈ pieces.zip args, ReadsPhrase scope stop (.chain .comparison) q.1 q.2)
    (hlen' : args.length = es.length) (hty : ∀ q ∈ args.zip es, Typed scope q.1 q.2)
    (hneed : Phrase.needs args ≤ levels) :
    parseOptionalArguments (.ok stop) (reader scope (.ok stop) levels (.chain .comparison))
      (used ++ ⟨.mark .rightParen, right⟩ :: rest) =
        .ok (es, ⟨.mark .rightParen, right⟩ :: rest) := by
  rcases pieces with _ | ⟨piece, pieces⟩
  · obtain rfl := List.eq_nil_of_length_eq_zero hlen.symm
    obtain rfl := List.eq_nil_of_length_eq_zero hlen'.symm
    cases hsep
    rfl
  · -- an argument does not start with the closing parenthesis, so there is no early end
    have hnext : nextIs .rightParen (used ++ ⟨.mark .rightParen, right⟩ :: rest) = false := by
      obtain ⟨a, as, rfl⟩ : ∃ a as, args = a :: as :=
        List.exists_cons_of_length_eq_add_one hlen.symm
      obtain ⟨t, others, rfl, ht, -⟩ := (hder (piece, a) (by simp)).exists_cons
      obtain ⟨others', rfl⟩ := hsep.exists_append
      simpa [nextIs] using ht
    have hlength := hsep.length_le
    rw [parseOptionalArguments, hnext]
    refine parseArguments_of_separated hsep (List.cons_ne_nil piece pieces) hlen h hlen' hty hneed
      ?_ (ends_of_rank?_eq_none rfl) rfl
    simp only [List.length_append, List.length_cons] at hlength ⊢
    omega

/-! ### Phrases -/

private theorem readsPhrase_reference (offset : Nat) (name : String) (text : Option String) :
    ReadsPhrase scope stop .single [⟨.reference name text, offset⟩]
      (.reference offset name text) := by
  rintro levels e rest hty - -
  have hnode : typedReference scope offset name text = .ok e := by
    cases hty with
    | reference _ hkind hdefault =>
      exact typedReference_ok_iff.mpr ⟨_, _, hkind, hdefault, rfl⟩
  rw [reader, List.cons_append, parseSingle_cons (ready_of_ok stop _)]
  simp only [hnode, List.nil_append]

/-- A phrase in parentheses is read if the phrase is. -/
private theorem readsPhrase_parens {tokens : List Located} {inner : Phrase} (left right : Nat)
    (h : ReadsPhrase scope stop (.chain .comparison) tokens inner) :
    ReadsPhrase scope stop .single
      (⟨.mark .leftParen, left⟩ :: (tokens ++ [⟨.mark .rightParen, right⟩]))
      (.parens inner) := by
  rintro levels e rest hty hneed -
  obtain ⟨fewer, rfl, hfewer⟩ := exists_fewer hneed
  cases hty with
  | parens hty =>
    have hinner := h fewer e (⟨.mark .rightParen, right⟩ :: rest) hty hfewer
      (ends_of_rank?_eq_none rfl)
    rw [reader, List.cons_append, parseSingle_cons (ready_of_ok stop _)]
    refine parseParenthesized_ok_iff.mpr ⟨_, right, rfl, ?_, ready_of_ok stop _⟩
    rw [expression_procedures]
    simpa using hinner

/-- A call is read if its arguments are. -/
private theorem readsPhrase_call {pieces : List (List Located)} {args : List Phrase}
    {tokens : List Located} (offset : Nat) (name : String) (left right : Nat)
    (hlen : pieces.length = args.length)
    (hder : ∀ q ∈ pieces.zip args, Derives (.chain .comparison) q.1 q.2)
    (h : ∀ q ∈ pieces.zip args, ReadsPhrase scope stop (.chain .comparison) q.1 q.2)
    (hsep : Separated pieces tokens) :
    ReadsPhrase scope stop .single
      (⟨.identifier name, offset⟩ :: ⟨.mark .leftParen, left⟩ ::
        (tokens ++ [⟨.mark .rightParen, right⟩]))
      (.call offset name args) := by
  rintro levels e rest hty hneed -
  obtain ⟨fewer, rfl, hfewer⟩ := exists_fewer hneed
  cases hty with
  | @call _ _ es f kind _ hlen' hty hf hkind =>
    have hargs : parseOptionalArguments (.ok stop)
        (reader scope (.ok stop) fewer (.chain .comparison))
        (tokens ++ ⟨.mark .rightParen, right⟩ :: rest) =
          .ok (es, ⟨.mark .rightParen, right⟩ :: rest) :=
      parseOptionalArguments_of_separated hsep hlen hder h hlen' hty hfewer
    have hnode : typedCall offset name f es = .ok (.call offset (Text.upper name) kind es) :=
      typedCall_ok_iff.mpr ⟨kind, hkind, rfl⟩
    rw [reader, List.cons_append, parseSingle_cons (ready_of_ok stop _)]
    refine parseCall_ok_iff.mpr ⟨_, left, _, _, _, right, hf, rfl, ready_of_ok stop _, rfl, ?_,
      ready_of_ok stop _, hnode⟩
    rw [expression_procedures]
    simpa using hargs

/-- A sign is read if its operand is. -/
private theorem readsPhrase_sign {t : Token} {op : UnaryOperator} {tokens : List Located}
    {operand : Phrase} (offset : Nat) (hop : sign? t = some op)
    (h : ReadsPhrase scope stop .signed tokens operand) :
    ReadsPhrase scope stop .signed (⟨t, offset⟩ :: tokens) (.sign offset op operand) := by
  intro levels e rest hty hneed hends
  obtain ⟨fewer, rfl, hfewer⟩ := exists_fewer hneed
  cases hty with
  | @sign _ _ e _ hty hkind =>
    have hnode : typedUnary offset op e = .ok (.unary offset op e) :=
      typedUnary_ok_iff.mpr ⟨hkind, rfl⟩
    refine parseSigned_ok_iff.mpr (.inr ⟨⟨t, offset⟩, tokens ++ rest, op, _, _, rfl, hop,
      ready_of_ok stop _, rfl, ?_, hnode⟩)
    rw [signed_procedures]
    exact h fewer _ rest hty hfewer hends

/-- A single operand is read as a signed one, since it does not start with a sign. -/
private theorem readsPhrase_signed {tokens : List Located} {a : Phrase}
    (hder : Derives .single tokens a) (h : ReadsPhrase scope stop .single tokens a) :
    ReadsPhrase scope stop .signed tokens a := by
  intro levels e rest hty hneed hends
  obtain ⟨t, others, rfl, -, hsign⟩ := hder.exists_cons
  have hread := h levels e rest hty hneed (hends.mono (Nat.le_succ _))
  rw [reader, parseSigned_ok_iff]
  refine .inl ⟨?_, hread⟩
  rintro _ ⟨⟩
  exact hsign rfl

/-- A power is read if both sides are. -/
private theorem readsPhrase_caret {lefts rights : List Located} {left right : Phrase} (offset : Nat)
    (hleft : ReadsPhrase scope stop .signed lefts left)
    (hright : ReadsPhrase scope stop .power rights right) :
    ReadsPhrase scope stop .power (lefts ++ ⟨.mark .caret, offset⟩ :: rights)
      (.binary offset (.arithmetic .power) left right) := by
  intro levels e rest hty hneed hends
  obtain ⟨hneed₁, hneed₂⟩ := Nat.max_le.mp hneed
  obtain ⟨fewer, rfl⟩ : ∃ fewer, levels = fewer + 1 := Nat.exists_eq_add_one.mpr (by omega)
  cases hty with
  | @binary _ _ _ l r _ hty hty' htakes htakes' =>
    -- `^` is looser than the signs, so the left side ends before it
    have hcaret : Ends .signed (⟨.mark .caret, offset⟩ :: (rights ++ rest)) := by
      refine ends_cons fun r hr => ?_
      obtain rfl : 4 = r := Option.some.inj hr
      exact Nat.lt_succ_self 4
    have hread := hleft (fewer + 1) _ _ hty hneed₁ hcaret
    have hnode : typedBinary offset (.arithmetic .power) l r =
        .ok (.binary offset (.arithmetic .power) l r) :=
      typedBinary_ok_iff.mpr ⟨htakes, htakes', rfl⟩
    rw [List.append_assoc, List.cons_append]
    refine parsePower_ok_iff.mpr (.inr ⟨_, offset, rights ++ rest, _, _, hread,
      ready_of_ok stop _, rfl, ?_, hnode⟩)
    rw [operand_procedures]
    refine hright fewer _ rest hty' ?_ hends
    simp only [Phrase.linksBefore, BinaryOperator.precedence?] at hneed₂
    omega

/-- A signed operand is read as a power where no `^` follows. -/
private theorem readsPhrase_power {tokens : List Located} {a : Phrase}
    (h : ReadsPhrase scope stop .signed tokens a) : ReadsPhrase scope stop .power tokens a := by
  intro levels e rest hty hneed hends
  have hread := h levels e rest hty hneed (hends.mono (Nat.le_succ _))
  exact parsePower_ok_iff.mpr (.inl ⟨hread, hends.ne_caret⟩)

/-- A link is read behind its chain, and the chain goes on with a level less. -/
private theorem covered_link {p : Precedence} {t : Token} {op : BinaryOperator}
    {lefts rights : List Located} {left right : Phrase} (offset : Nat)
    (hleft : Covered scope stop p lefts left) (hop : p.operator? t = some op)
    (hright : ReadsPhrase scope stop p.operand rights right) :
    Covered scope stop p (lefts ++ ⟨t, offset⟩ :: rights) (.binary offset op left right) := by
  intro levels e rest result hty hneed hends hresult
  have hprec := Precedence.precedence?_of_operator? hop
  rw [Phrase.need_binary hprec] at hneed
  rw [Phrase.links_binary hprec] at hresult
  -- the links to the left have taken levels, and one is left for this one
  obtain ⟨fewer, hfewer⟩ : ∃ fewer, levels - left.links p = fewer + 1 :=
    Nat.exists_eq_add_one.mpr (by omega)
  cases hty with
  | @binary _ _ _ l r _ hty hty' htakes htakes' =>
    have hbefore : Ends p.operand (⟨t, offset⟩ :: (rights ++ rest)) := by
      refine ends_cons fun r hr => ?_
      obtain rfl := Option.some.inj ((Precedence.rank?_of_operator? hop).symm.trans hr)
      rw [Precedence.rank_operand]
      exact Nat.lt_succ_self _
    have hread := hright fewer r rest hty' (by omega) hends
    have hnode : typedBinary offset op l r = .ok (.binary offset op l r) :=
      typedBinary_ok_iff.mpr ⟨htakes, htakes', rfl⟩
    rw [List.append_assoc, List.cons_append]
    refine hleft levels _ _ result hty (by omega) hbefore ?_
    rw [hfewer]
    refine parseChain_ok_iff.mpr (.inr ⟨_, _, op, _, _, rest, _, rfl, hop, ready_of_ok stop _,
      rfl, ?_, hnode, ?_⟩)
    · rw [operand_procedures]
      exact hread
    · rw [chain_procedures]
      rwa [show levels - (left.links p + 1) = fewer by omega] at hresult

private theorem covered_operand {p : Precedence} {tokens : List Located} {a : Phrase}
    (hder : Derives p.operand tokens a) (h : ReadsPhrase scope stop p.operand tokens a) :
    Covered scope stop p tokens a := by
  intro levels e rest result hty hneed hends hresult
  have hlinks : a.links p = 0 := by
    refine hder.links_eq_zero ?_
    rw [Precedence.rank_operand]
    exact Nat.lt_succ_self _
  have hread := h levels e rest hty hneed hends
  rw [hlinks] at hresult
  rw [reader_chain]
  exact parseChained_ok_iff.mpr ⟨e, rest, hread, hresult⟩

/-- Every derivation is read: by induction on it, one case for each rule. -/
private theorem complete_of_derives {c : Category} {tokens : List Located} {a : Phrase}
    (h : Derives c tokens a) : Complete scope stop c tokens a := by
  induction h with
  | number offset x =>
    rintro levels e rest (_ | _) - -
    rw [reader, List.cons_append, parseSingle_cons (ready_of_ok stop _)]
    rfl
  | string offset s =>
    rintro levels e rest (_ | _) - -
    rw [reader, List.cons_append, parseSingle_cons (ready_of_ok stop _)]
    rfl
  | boolean offset b =>
    rintro levels e rest (_ | _) - -
    rw [reader, List.cons_append, parseSingle_cons (ready_of_ok stop _)]
    rfl
  | reference offset name text => exact readsPhrase_reference offset name text
  | parens left right h ih => exact readsPhrase_parens left right (Complete.readsPhrase ih)
  | call offset name left right hlen h hsep ih =>
    exact readsPhrase_call offset name left right hlen h
      (fun q hq => Complete.readsPhrase (ih q hq)) hsep
  | sign offset hop h ih => exact readsPhrase_sign offset hop ih
  | single h ih => exact readsPhrase_signed h ih
  | power offset hleft hright ihleft ihright => exact readsPhrase_caret offset ihleft ihright
  | signed h ih => exact readsPhrase_power ih
  | link offset hleft hop hright ihleft ihright =>
    exact covered_link offset ihleft hop (Complete.readsPhrase ihright)
  | operand h ih => exact covered_operand h (Complete.readsPhrase ih)

/-- Within the levels that it needs, a phrase is read at the front of all tokens that end it. -/
theorem reader_of_derives {c : Category} {tokens rest : List Located} {a : Phrase} {e : Expr}
    {levels : Nat} (h : Derives c tokens a) (hty : Typed scope a e) (hneed : a.need ≤ levels)
    (hends : Ends c rest) :
    reader scope (.ok stop) levels c (tokens ++ rest) = .ok (e, rest) :=
  (complete_of_derives h).readsPhrase levels e rest hty hneed hends

end

end TypedFormula
