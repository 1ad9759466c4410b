import TypedFormula.Proofs.Evaluation
import TypedFormula.Proofs.Grammar.Acceptance
import TypedFormula.Proofs.Library
import TypedFormula.Proofs.SourceOrder
import TypedFormula.Proofs.Spelling.Words

/-!
# Formulas in any letter case

A formula may be respelled: the names of its functions, its truth values and the marks of its
exponents may be written in any letter case, and the same formula is compiled.

The words of a respelled text are the same but for the letter case of names. So they are a phrase of
the same shape, which needs as many levels and is the same expression, since a call keeps the
upper-case form of its name and functions are looked up by this form (`Phrase.Alike`).

Main statements:

* `Derives.exists_alike` — words that are the same in upper case are phrases that are alike;
* `Formula.compile_of_respelled` — a respelled formula is compiled to the same code.
-/

namespace TypedFormula

/-! ### Words in upper case -/

section

variable {t : Located} {tokens tokens' more more' : List Located}

/-- Only names have letter case: what has the upper-case form of another token is this token. -/
private theorem Token.eq_of_key {t t' : Token} (ht : ∀ name, t ≠ .identifier name)
    (h : t.key = t'.key) :
    t' = t := by
  cases t with
  | identifier name => exact absurd rfl (ht name)
  | _ =>
    cases t' with
    | identifier name => cases h
    | _ => exact h.symm

/-- A token that is no name is the same token in the same words. -/
theorem SameWords.exists_cons (h : SameWords (t :: tokens) tokens')
    (ht : ∀ name, t.token ≠ .identifier name) :
    ∃ more, tokens' = t :: more ∧ SameWords tokens more := by
  obtain ⟨t', more, rfl, hkey, hmore⟩ := List.map_eq_cons_iff.mp h.symm
  obtain ⟨htoken, hoffset⟩ := Located.mk.inj hkey
  obtain rfl : t' = t := by
    cases t
    cases t'
    obtain rfl := Token.eq_of_key ht htoken.symm
    obtain rfl := hoffset
    rfl
  exact ⟨more, rfl, hmore.symm⟩

private theorem SameWords.exists_identifier {name : String} {offset : Nat}
    (h : SameWords (⟨.identifier name, offset⟩ :: tokens) tokens') :
    ∃ name' more, tokens' = ⟨.identifier name', offset⟩ :: more ∧
      Text.upper name' = Text.upper name ∧ SameWords tokens more := by
  obtain ⟨⟨t', offset'⟩, more, rfl, hkey, hmore⟩ := List.map_eq_cons_iff.mp h.symm
  obtain ⟨htoken, rfl⟩ := Located.mk.inj hkey
  cases t' with
  | identifier name' => exact ⟨name', more, rfl, Token.identifier.inj htoken, hmore.symm⟩
  | _ => cases htoken

private theorem SameWords.eq_nil (h : SameWords [] tokens') : tokens' = [] :=
  List.map_eq_nil_iff.mp h.symm

private theorem SameWords.exists_append (h : SameWords (tokens ++ more) tokens') :
    ∃ front back, tokens' = front ++ back ∧ SameWords tokens front ∧ SameWords more back := by
  rw [SameWords, List.map_append] at h
  obtain ⟨front, back, rfl, hfront, hback⟩ := List.map_eq_append_iff.mp h.symm
  exact ⟨front, back, rfl, hfront.symm, hback.symm⟩

/-- A single token that is no name is the same in the same words. -/
private theorem SameWords.eq_singleton (h : SameWords [t] tokens')
    (ht : ∀ name, t.token ≠ .identifier name) : tokens' = [t] := by
  obtain ⟨more, rfl, hmore⟩ := h.exists_cons ht
  rw [hmore.eq_nil]

private theorem SameWords.exists_snoc (h : SameWords (tokens ++ [t]) tokens')
    (ht : ∀ name, t.token ≠ .identifier name) :
    ∃ front, tokens' = front ++ [t] ∧ SameWords tokens front := by
  obtain ⟨front, back, rfl, hfront, hback⟩ := h.exists_append
  exact ⟨front, by rw [hback.eq_singleton ht], hfront⟩

private theorem SameWords.exists_append_cons (h : SameWords (tokens ++ t :: more) tokens')
    (ht : ∀ name, t.token ≠ .identifier name) :
    ∃ front back, tokens' = front ++ t :: back ∧ SameWords tokens front ∧
      SameWords more back := by
  obtain ⟨front, rest, rfl, hfront, hrest⟩ := h.exists_append
  obtain ⟨back, rfl, hback⟩ := hrest.exists_cons ht
  exact ⟨front, back, rfl, hfront, hback⟩

private theorem Separated.exists_sameWords {pieces : List (List Located)}
    (h : Separated pieces tokens) (hwords : SameWords tokens tokens') :
    ∃ pieces', Separated pieces' tokens' ∧ List.Forall₂ SameWords pieces pieces' := by
  induction h generalizing tokens' with
  | none => exact ⟨[], hwords.eq_nil ▸ .none, .nil⟩
  | one tokens => exact ⟨[tokens'], .one tokens', .cons hwords .nil⟩
  | more offset _ ih =>
    obtain ⟨front, back, rfl, hfront, hback⟩ := hwords.exists_append_cons nofun
    obtain ⟨pieces', hseparated, hpieces⟩ := ih hback
    cases hpieces with
    | cons hnext hothers => exact ⟨_, .more offset hseparated, .cons hfront (.cons hnext hothers)⟩

end

/-! ### Phrases that are alike -/

/-- A phrase takes as many levels as another one, and is the same expressions. -/
structure Phrase.Alike (a a' : Phrase) : Prop where
  /-- It needs as many levels. -/
  need : a'.need = a.need
  /-- It has as many links of each chain. -/
  links : ∀ p, a'.links p = a.links p
  /-- It is the same expressions. -/
  typed : ∀ {scope : Scope} {e : Expr}, Typed scope a e → Typed scope a' e

namespace Phrase.Alike

variable {a a' b b' : Phrase} {args args' : List Phrase}

private theorem refl (a : Phrase) : Alike a a := ⟨rfl, fun _ => rfl, id⟩

private theorem parens (h : Alike a a') : Alike (.parens a) (.parens a') where
  need := by rw [Phrase.need, Phrase.need, h.need]
  links _ := rfl
  typed hty := by
    cases hty with
    | parens hty => exact .parens (h.typed hty)

private theorem sign {offset : Nat} {op : UnaryOperator} (h : Alike a a') :
    Alike (.sign offset op a) (.sign offset op a') where
  need := by rw [Phrase.need, Phrase.need, h.need]
  links _ := rfl
  typed hty := by
    cases hty with
    | sign _ hty hkind => exact .sign offset (h.typed hty) hkind

/-- An operator between phrases that are alike. -/
private theorem binary {offset : Nat} {op : BinaryOperator} (ha : Alike a a') (hb : Alike b b') :
    Alike (.binary offset op a b) (.binary offset op a' b') where
  need := by
    have hbefore : linksBefore op a' = linksBefore op a := by
      rw [linksBefore, linksBefore]
      split
      · exact ha.links _
      · rfl
    rw [Phrase.need, Phrase.need, ha.need, hb.need, hbefore]
  links p := by rw [Phrase.links, Phrase.links, ha.links]
  typed hty := by
    cases hty with
    | binary _ hleft hright htakes htakes' =>
      exact .binary offset (ha.typed hleft) (hb.typed hright) htakes htakes'

/-- Phrases that are alike one by one need as many levels. -/
private theorem needs_eq (h : List.Forall₂ Alike args args') : needs args' = needs args := by
  induction h with
  | nil => rfl
  | cons hfirst _ ih => rw [needs, needs, hfirst.need, ih]

private theorem typed_zip {scope : Scope} {es : List Expr} (h : List.Forall₂ Alike args args')
    (hlen : args.length = es.length) (hty : ∀ q ∈ args.zip es, Typed scope q.1 q.2) :
    ∀ q ∈ args'.zip es, Typed scope q.1 q.2 := by
  induction h generalizing es with
  | nil => simp
  | cons hfirst _ ih =>
    obtain ⟨e, es, rfl⟩ := List.exists_cons_of_length_eq_add_one hlen.symm
    rw [List.zip_cons_cons, List.forall_mem_cons] at hty ⊢
    exact ⟨hfirst.typed hty.1, ih (Nat.succ.inj hlen) hty.2⟩

/-- Calls under names with one upper-case form, on arguments that are alike. -/
private theorem call {offset : Nat} {name name' : String}
    (hname : Text.upper name' = Text.upper name) (h : List.Forall₂ Alike args args') :
    Alike (.call offset name args) (.call offset name' args') where
  need := by rw [Phrase.need, Phrase.need, needs_eq h]
  links _ := rfl
  typed {scope _} hty := by
    have hlookup : scope.functions.lookup? name' = scope.functions.lookup? name := by
      rw [Registry.lookup?, Registry.lookup?, hname]
    cases hty with
    | call _ hlen harguments hf hkind =>
      rw [← hname]
      exact .call offset (h.length_eq.symm.trans hlen) (typed_zip h hlen harguments)
        (hlookup.trans hf) hkind

end Phrase.Alike

/-! ### Formulas -/

/-- Lists of words that are phrases one by one are, in the same words, phrases that are alike. -/
private theorem exists_alike_of_zip {c : Category} {pieces pieces' : List (List Located)}
    {args : List Phrase} (hpieces : List.Forall₂ SameWords pieces pieces')
    (hlen : pieces.length = args.length)
    (h : ∀ q ∈ pieces.zip args, ∀ {tokens}, SameWords q.1 tokens →
      ∃ a, Derives c tokens a ∧ q.2.Alike a) :
    ∃ args', List.Forall₂ (Derives c) pieces' args' ∧ List.Forall₂ Phrase.Alike args args' := by
  induction hpieces generalizing args with
  | nil =>
    obtain rfl := List.eq_nil_of_length_eq_zero hlen.symm
    exact ⟨[], .nil, .nil⟩
  | cons hpiece _ ih =>
    obtain ⟨a, args, rfl⟩ := List.exists_cons_of_length_eq_add_one hlen.symm
    rw [List.zip_cons_cons, List.forall_mem_cons] at h
    obtain ⟨a', hder, halike⟩ := h.1 hpiece
    obtain ⟨args', hders, halikes⟩ := ih (Nat.succ.inj hlen) h.2
    exact ⟨a' :: args', .cons hder hders, .cons halike halikes⟩

/-- Words that are the same up to the letter case of names are a phrase that is alike. -/
theorem Derives.exists_alike {c : Category} {tokens tokens' : List Located} {a : Phrase}
    (h : Derives c tokens a) (hwords : SameWords tokens tokens') :
    ∃ a', Derives c tokens' a' ∧ a.Alike a' := by
  induction h generalizing tokens' with
  | number offset x => exact ⟨_, hwords.eq_singleton nofun ▸ .number offset x, .refl _⟩
  | string offset s => exact ⟨_, hwords.eq_singleton nofun ▸ .string offset s, .refl _⟩
  | boolean offset b => exact ⟨_, hwords.eq_singleton nofun ▸ .boolean offset b, .refl _⟩
  | reference offset name default =>
    exact ⟨_, hwords.eq_singleton nofun ▸ .reference offset name default, .refl _⟩
  | parens left right _ ih =>
    obtain ⟨more, rfl, hmore⟩ := hwords.exists_cons nofun
    obtain ⟨front, rfl, hfront⟩ := hmore.exists_snoc nofun
    obtain ⟨a', hder, halike⟩ := ih hfront
    exact ⟨_, .parens left right hder, halike.parens⟩
  | call offset name left right hlen _ hsep ih =>
    obtain ⟨name', more, rfl, hname, hmore⟩ := hwords.exists_identifier
    obtain ⟨behind, rfl, hbehind⟩ := hmore.exists_cons nofun
    obtain ⟨front, rfl, hfront⟩ := hbehind.exists_snoc nofun
    obtain ⟨pieces', hsep', hpieces⟩ := hsep.exists_sameWords hfront
    obtain ⟨args', hders, halikes⟩ := exists_alike_of_zip hpieces hlen ih
    obtain ⟨hlen', hzip⟩ := List.forall₂_iff_zip.mp hders
    exact ⟨_, .call offset name' left right hlen' (fun q hq => hzip hq) hsep',
      .call hname halikes⟩
  | @sign t _ _ _ offset hop _ ih =>
    have hsign : ∀ name, t ≠ .identifier name := by
      rintro name rfl
      cases hop
    obtain ⟨more, rfl, hmore⟩ := hwords.exists_cons hsign
    obtain ⟨a', hder, halike⟩ := ih hmore
    exact ⟨_, .sign offset hop hder, halike.sign⟩
  | single _ ih =>
    obtain ⟨a', hder, halike⟩ := ih hwords
    exact ⟨a', .single hder, halike⟩
  | power offset _ _ ihleft ihright =>
    obtain ⟨front, back, rfl, hfront, hback⟩ := hwords.exists_append_cons nofun
    obtain ⟨left', hleft, halike⟩ := ihleft hfront
    obtain ⟨right', hright, halike'⟩ := ihright hback
    exact ⟨_, .power offset hleft hright, halike.binary halike'⟩
  | signed _ ih =>
    obtain ⟨a', hder, halike⟩ := ih hwords
    exact ⟨a', .signed hder, halike⟩
  | @link p t _ _ _ _ _ offset _ hop _ ihleft ihright =>
    have hoperator : ∀ name, t ≠ .identifier name := by
      rintro name rfl
      cases p <;> cases hop
    obtain ⟨front, back, rfl, hfront, hback⟩ := hwords.exists_append_cons hoperator
    obtain ⟨left', hleft, halike⟩ := ihleft hfront
    obtain ⟨right', hright, halike'⟩ := ihright hback
    exact ⟨_, .link offset hleft hop hright, halike.binary halike'⟩
  | operand _ ih =>
    obtain ⟨a', hder, halike⟩ := ih hwords
    exact ⟨a', .operand hder, halike⟩

private theorem parseFormula_of_respelled {scope : Scope} {text text' : String} {e : Expr}
    (h : parseFormula scope text = .ok e) (hspelled : Respelled 0 text.toList text'.toList) :
    parseFormula scope text' = .ok e := by
  obtain ⟨start, rest, tokens, stop, a, hblanks, htokens, hder, hty, hneed⟩ :=
    parseFormula_ok_iff.mp h
  obtain ⟨rest', hblanks', hrest⟩ := skipBlanks_of_respelled hspelled hblanks
  obtain ⟨words, words', stop', hwords, hwords', hsame⟩ := tokenize_of_respelled hrest
  obtain ⟨rfl, hstop⟩ := TokenStream.mk.inj (htokens.symm.trans hwords)
  obtain rfl := Except.ok.inj hstop
  obtain ⟨a', hder', halike⟩ := hder.exists_alike hsame
  exact parseFormula_ok_iff.mpr ⟨start, rest', words', stop, a', hblanks', hwords', hder',
    halike.typed hty, halike.need.trans_le hneed⟩

/-- A respelled formula is compiled, and all but its text is the same: the code with its offsets,
the variables with their kinds and defaults, and the kind of the result. -/
theorem Formula.compile_of_respelled {scope : Scope} {text text' : String} {f : Formula}
    (h : compile scope text = .ok f) (hspelled : Respelled 0 text.toList text'.toList) :
    compile scope text' = .ok { f with text := text' } := by
  obtain ⟨e, he, hf⟩ := compile_ok_iff.mp h
  obtain ⟨vs, hvs, rfl⟩ := ofExpr_ok_iff.mp hf
  exact compile_ok_iff.mpr
    ⟨e, parseFormula_of_respelled he hspelled, ofExpr_ok_iff.mpr ⟨vs, hvs, rfl⟩⟩

/-- The name of a function, a truth value and the mark of an exponent in other letter case. -/
theorem Formula.compile_of_respelled_of_capitals :
    ∃ f, compile ⟨Dict.empty, Registry.library⟩ "=sum(1e2, true)" = .ok f ∧
      f.code = [⟨.push (.float (.plain (Decimal.nearest false 1 2))), 5⟩,
        ⟨.push (.boolean true), 10⟩, ⟨.call "SUM" 2, 1⟩] ∧
      compile ⟨Dict.empty, Registry.library⟩ "=SUM(1E2, True)" =
        .ok { f with text := "=SUM(1E2, True)" } := by
  have hcode : ((compile ⟨Dict.empty, Registry.library⟩ "=sum(1e2, true)").toOption.map
      Formula.code) = some [⟨.push (.float (.plain (Decimal.nearest false 1 2))), 5⟩,
        ⟨.push (.boolean true), 10⟩, ⟨.call "SUM" 2, 1⟩] := by
    rw [Registry.library_eq]
    decide +kernel
  have hnumber : scan 5 '1' "e2, true)".toList =
      .ok ⟨.number (Decimal.nearest false 1 2), 8, ", true)".toList⟩ := by
    rfl
  have hend : Respelled 14 [')'] [')'] :=
    @Respelled.word 14 ')' [] [')'] [')'] [] _ rfl rfl rfl rfl (fun _ => rfl) (.nil 15)
  have htruth : Respelled 10 "true)".toList "True)".toList :=
    @Respelled.word 10 't' _ "true".toList "True".toList _ _ rfl rfl rfl rfl nofun hend
  have hcomma : Respelled 8 ", true)".toList ", True)".toList :=
    @Respelled.word 8 ',' _ [','] [','] _ _ rfl rfl rfl rfl (fun _ => rfl) (.blank rfl htruth)
  have hexponent : Respelled 5 "1e2, true)".toList "1E2, True)".toList :=
    @Respelled.word 5 '1' _ "1e2".toList "1E2".toList _ _ rfl hnumber rfl rfl nofun hcomma
  have hparen : Respelled 4 "(1e2, true)".toList "(1E2, True)".toList :=
    @Respelled.word 4 '(' _ ['('] ['('] _ _ rfl rfl rfl rfl (fun _ => rfl) hexponent
  have hname : Respelled 1 "sum(1e2, true)".toList "SUM(1E2, True)".toList :=
    @Respelled.word 1 's' _ "sum".toList "SUM".toList _ _ rfl rfl rfl rfl nofun hparen
  have hspelled : Respelled 0 "=sum(1e2, true)".toList "=SUM(1E2, True)".toList :=
    @Respelled.word 0 '=' _ ['='] ['='] _ _ rfl rfl rfl rfl (fun _ => rfl) hname
  cases hcompile : compile ⟨Dict.empty, Registry.library⟩ "=sum(1e2, true)" with
  | error e =>
    rw [hcompile] at hcode
    cases hcode
  | ok f =>
    rw [hcompile] at hcode
    exact ⟨f, rfl, Option.some.inj hcode, compile_of_respelled hcompile hspelled⟩

end TypedFormula
