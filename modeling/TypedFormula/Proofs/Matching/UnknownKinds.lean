import TypedFormula.Proofs.Library
import TypedFormula.Proofs.Matching

/-!
# Matching before the kinds are known

A call is matched before a run with what is known of its arguments, and in the run with their kinds.
An argument of unknown kind is accepted by every parameter, so what is assignable in the run is
assignable before (`assignable_of_covers`). One might expect that what matches in the run also
matches before. This is true of settled signatures, where matching and assignability are the same,
and so of the library.

It is not true in general. Let a repeated parameter take numbers, the required one behind it a whole
number and an optional one at the end a text. In the run the whole number ends the numbers, and the
text comes last. If it is not known that it is a whole number, the repeated parameter takes it as
well, since one argument is left for the required parameter; but this one does not take the text.

The same can be arranged for every signature that is not settled, whatever the names of its
parameters and the order of optional and repeated ones. There is a first repeated parameter, and the
next one is required (`exists_split_of_not_settled`). Let the next one take texts and all others
numbers, and give each required parameter its argument and one more number to the rest. Without the
kind of the text the repeated parameter takes it, and the next one finds a number.

Main statements:

* `matchArguments_of_covers` — a settled signature matches before the run what it matches in it;
* `exists_matched_not_matched_before` — an example of the contrary;
* `settled_iff_matches_before` — settled signatures are exactly those for which this can be said,
  whatever kinds their parameters accept.
-/

namespace TypedFormula

/-! ### Settled signatures -/

/-- A parameter that accepts an argument of some kind accepts it while less is known of it. -/
private theorem StaticKind.Covers.acceptedBy {k : StaticKind} {actual : Kind} (h : k.Covers actual)
    {accepts : KindSet} (haccepts : accepts.accepts actual = true) :
    k.acceptedBy accepts = true := by
  cases k with
  | dynamic => rfl
  | known j => exact h j rfl ▸ haccepts

section

variable {p : Parameter} {ps : List Parameter} {kinds : List StaticKind} {actual : List Kind}

/-- A parameter that takes arguments takes them while less is known of them. -/
private theorem Parameter.Takes.of_covers (hcovers : List.Forall₂ StaticKind.Covers kinds actual)
    (h : p.Takes (actual.map .known)) : p.Takes kinds := by
  have hlength : kinds.length = (actual.map StaticKind.known).length := by
    rw [hcovers.length_eq, List.length_map]
  refine ⟨fun k hk => ?_, fun hrequired hnil => ?_, fun hsingle => ?_⟩
  · obtain ⟨i, hi, rfl⟩ := List.mem_iff_getElem.mp hk
    have hi' : i < actual.length := hcovers.length_eq ▸ hi
    have haccepted := h.accepted (.known actual[i])
      (List.mem_map.mpr ⟨_, List.getElem_mem hi', rfl⟩)
    exact ((List.forall₂_iff_get.mp hcovers).2 i hi hi').acceptedBy haccepted
  · refine h.filled hrequired (List.eq_nil_of_length_eq_zero ?_)
    rw [← hlength, hnil, List.length_nil]
  · rw [hlength]
    exact h.single hsingle

/-- What is assignable is assignable while less is known of it. -/
theorem assignable_of_covers (hcovers : List.Forall₂ StaticKind.Covers kinds actual)
    (h : Assignable ps (actual.map .known)) : Assignable ps kinds := by
  induction ps generalizing kinds actual with
  | nil =>
    rw [assignable_nil, List.map_eq_nil_iff] at h
    subst h
    exact assignable_nil.mpr (List.forall₂_nil_right_iff.mp hcovers)
  | cons p ps ih =>
    obtain ⟨run, rest, hactual, htakes, hrest⟩ := assignable_cons.mp h
    obtain ⟨first, others, rfl, rfl, rfl⟩ := List.map_eq_append_iff.mp hactual
    have hfirst := List.forall₂_take_append kinds first others hcovers
    have hothers := List.forall₂_drop_append kinds first others hcovers
    exact assignable_cons.mpr ⟨_, _, (List.take_append_drop first.length kinds).symm,
      htakes.of_covers hfirst, ih hothers hrest⟩

/-- A settled signature matches before the run what it matches in it. -/
theorem matchArguments_of_covers (hps : checkParameters ps = .ok ()) (hsettled : Settled ps)
    (hcovers : List.Forall₂ StaticKind.Covers kinds actual)
    (h : matchArguments ps (actual.map .known) = .ok ()) : matchArguments ps kinds = .ok () :=
  matchArguments_of_assignable hps hsettled
    (assignable_of_covers hcovers (assignable_of_matchArguments h))

end

/-- A call of a function of the library that is accepted in the run is accepted before it. -/
theorem Library.exists_checkArguments_of_covers [Binary64.Logarithms] {f : Function}
    (hf : f ∈ Library.functions) {kinds : List StaticKind} {actual : List Kind}
    (hcovers : List.Forall₂ StaticKind.Covers kinds actual) {k : StaticKind}
    (h : f.checkArguments (actual.map .known) = .ok k) :
    ∃ resolved, f.checkArguments kinds = .ok resolved :=
  ⟨_, Function.checkArguments_ok_iff.mpr
    ⟨matchArguments_of_covers (checkParameters_of_mem hf) (hasOneRun_of_mem hf).settled hcovers
      (Function.checkArguments_ok_iff.mp h).1, rfl⟩⟩

/-! ### Other signatures -/

/-- A whole number among numbers is taken for a number as long as it is unknown, and then missing
behind them. -/
theorem exists_matched_not_matched_before :
    ∃ (ps : List Parameter) (kinds : List StaticKind) (actual : List Kind),
      checkParameters ps = .ok () ∧ List.Forall₂ StaticKind.Covers kinds actual ∧
        matchArguments ps (actual.map .known) = .ok () ∧
        matchArguments ps kinds = .error (.wrongKind 3 (.known .string)) := by
  refine ⟨[.atLeastOne "numbers" (.single .float), .one "count" (.single .integer),
    .atMostOne "unit" (.single .string)], [.known .float, .dynamic, .known .string],
    [.float, .integer, .string], rfl, ?_, rfl, rfl⟩
  refine .cons ?_ (.cons ?_ (.cons ?_ .nil))
  · rintro _ ⟨⟩
    rfl
  · exact nofun
  · rintro _ ⟨⟩
    rfl

/-- What a parameter is apart from the kinds that it accepts. -/
def Parameter.shape (p : Parameter) : String × Bool × Bool := (p.name, p.optional, p.repeated)

/-- The parameter of the same shape for arguments of other kinds. -/
private def Parameter.accepting (accepts : KindSet) (p : Parameter) : Parameter :=
  { p with accepts := accepts }

section

variable {ps : List Parameter}

private theorem checkParameters_of_shape {qs : List Parameter}
    (hshape : qs.map Parameter.shape = ps.map Parameter.shape) (hps : checkParameters ps = .ok ()) :
    checkParameters qs = .ok () := by
  rw [checkParameters_ok_iff] at hps ⊢
  have hnames : qs.map Parameter.name = ps.map Parameter.name := by
    have h := congrArg (List.map Prod.fst) hshape
    rwa [List.map_map, List.map_map] at h
  refine ⟨hnames ▸ hps.1, ?_⟩
  have h : (ps.map Parameter.shape).Pairwise fun a b => a.2.1 = true → b.2.1 = true :=
    List.pairwise_map.mpr hps.2
  rw [← hshape] at h
  exact List.pairwise_map.mp h

/-- A signature is settled by the shapes of its parameters. -/
private theorem Settled.of_shape {qs : List Parameter}
    (hshape : qs.map Parameter.shape = ps.map Parameter.shape) (h : Settled ps) : Settled qs := by
  intro p q r hsub hp hq
  have hsub' := hsub.map Parameter.shape
  rw [hshape] at hsub'
  obtain ⟨l, hl, heq⟩ := List.sublist_map_iff.mp hsub'
  obtain ⟨p', l, rfl, hp', heq⟩ := List.map_eq_cons_iff.mp heq.symm
  obtain ⟨q', l, rfl, hq', heq⟩ := List.map_eq_cons_iff.mp heq
  obtain ⟨r', l, rfl, hr', heq⟩ := List.map_eq_cons_iff.mp heq
  obtain rfl := List.map_eq_nil_iff.mp heq
  simp only [Parameter.shape, Prod.mk.injEq] at hp' hq' hr'
  have hr := h p' q' r' hl (hp'.2.2.trans hp) (hq'.2.1.trans hq)
  rwa [hr'.2.1, hr'.2.2] at hr

/-- A signature that is not settled has a first repeated parameter, the next one is required, and
one of those behind is optional or repeated. -/
theorem exists_split_of_not_settled
    (hpairwise : ps.Pairwise fun p q => p.optional = true → q.optional = true)
    (h : ¬ Settled ps) :
    ∃ before p q after, ps = before ++ p :: q :: after ∧
      (∀ x ∈ before, x.repeated = false) ∧ p.repeated = true ∧ q.optional = false ∧
      ∃ r ∈ after, r.optional = true ∨ r.repeated = true := by
  induction ps with
  | nil =>
    refine absurd (fun p q r hsub => ?_) h
    cases List.sublist_nil.mp hsub
  | cons x ps ih =>
    obtain ⟨hbehind, hpairwise⟩ := List.pairwise_cons.mp hpairwise
    cases hx : x.repeated with
    | true =>
      simp only [Settled, not_forall, not_and_or, Bool.not_eq_false] at h
      obtain ⟨p, q, r, hsub, hp, hq, hr⟩ := h
      have hsub : [q, r].Sublist ps := by
        obtain hsub | ⟨_, heq, hsub⟩ := List.sublist_cons_iff.mp hsub
        · exact List.sublist_of_cons_sublist hsub
        · exact (List.cons.inj heq).2 ▸ hsub
      cases ps with
      | nil => cases List.sublist_nil.mp hsub
      | cons y after =>
        obtain ⟨hbehind, -⟩ := List.pairwise_cons.mp hpairwise
        have hmemr : r ∈ after := by
          obtain hsub | ⟨_, heq, hsub⟩ := List.sublist_cons_iff.mp hsub
          · exact hsub.subset (List.mem_cons_of_mem q (List.mem_singleton.mpr rfl))
          · exact ((List.cons.inj heq).2 ▸ hsub).subset (List.mem_singleton.mpr rfl)
        have hy : y.optional = false := by
          obtain rfl | hmemq := List.mem_cons.mp (hsub.subset List.mem_cons_self)
          · exact hq
          · by_contra hy
            have hq' := hbehind q hmemq (by simpa using hy)
            rw [hq] at hq'
            cases hq'
        exact ⟨[], x, y, after, rfl, nofun, hx, hy, r, hmemr, hr⟩
    | false =>
      have hps : ¬ Settled ps := fun hsettled => h fun p q r hsub hp => by
        obtain hsub | ⟨_, heq, -⟩ := List.sublist_cons_iff.mp hsub
        · exact hsettled p q r hsub hp
        · rw [(List.cons.inj heq).1, hx] at hp
          cases hp
      obtain ⟨before, p, q, after, rfl, hbefore, hrest⟩ := ih hpairwise hps
      exact ⟨x :: before, p, q, after, rfl, List.forall_mem_cons.mpr ⟨hx, hbefore⟩, hrest⟩

end

section

variable (required total : Nat) {p q : Parameter} {ps before : List Parameter}
  {k : StaticKind} {rest : List StaticKind}

/-- A run takes nothing if it has to leave everything, or if the next argument is not accepted. -/
private theorem takeRun_eq_self {accepts : KindSet} {reserved : Nat}
    (h : rest.length ≤ reserved ∨ nextFits accepts rest = false) :
    takeRun accepts reserved rest = rest := by
  cases rest with
  | nil => rfl
  | cons k ks =>
    refine if_neg fun htake => ?_
    obtain ⟨hmore, hk⟩ := Bool.and_eq_true_iff.mp htake
    have hmore := of_decide_eq_true hmore
    obtain hle | hfits := h
    · rw [List.length_cons] at hle
      omega
    · rw [show nextFits accepts (k :: ks) = k.acceptedBy accepts from rfl, hk] at hfits
      cases hfits

/-- Parameters that are not repeated take one argument each, if they accept it. -/
private theorem matchParameters_append_of_single (hsingle : ∀ x ∈ before, x.repeated = false)
    (haccepts : ∀ x ∈ before, k.acceptedBy x.accepts = true) :
    matchParameters required total (before ++ ps)
        (List.replicate before.length k ++ rest) =
      matchParameters required total ps rest := by
  induction before with
  | nil => rfl
  | cons x before ih =>
    obtain ⟨hx, hbefore⟩ := List.forall_mem_cons.mp hsingle
    obtain ⟨hk, haccepts⟩ := List.forall_mem_cons.mp haccepts
    rw [List.length_cons, List.replicate_succ, List.cons_append, List.cons_append,
      matchParameters_cons_of_single required total hx hk, ih hbefore haccepts]

/-- A repeated parameter takes a run and no more, if what follows has to be left or is not
accepted. -/
private theorem matchParameters_cons_of_stopped {run : List StaticKind}
    (hrepeated : p.repeated = true) (htakes : p.Takes run) (hrest : requiredCount ps ≤ rest.length)
    (hstop : rest.length ≤ requiredCount ps ∨ nextFits p.accepts rest = false) :
    matchParameters required total (p :: ps) (run ++ rest) =
      matchParameters required total ps rest := by
  rw [matchParameters_cons_of_run required total hrepeated htakes hrest, takeRun_eq_self hstop]

/-- A required parameter does not match when it does not accept the next argument. -/
private theorem matchParameters_cons_ne_ok (hrequired : p.optional = false)
    (hrefused : k.acceptedBy p.accepts = false) (left : List StaticKind) :
    matchParameters required total (p :: ps) (k :: rest) ≠ .ok left := by
  obtain ⟨run, next, heq, htakes, -, -⟩ | ⟨-, ⟨-, heq⟩ | heq⟩ :=
    matchParameters_cons_cases required total p ps (k :: rest)
  · cases run with
    | nil => exact absurd rfl (htakes.filled hrequired)
    | cons j run =>
      obtain ⟨rfl, -⟩ := List.cons.inj heq
      rw [htakes.accepted k List.mem_cons_self] at hrefused
      cases hrefused
  · rw [heq]
    nofun
  · rw [heq]
    nofun

/-- Arguments that all parameters accept match, if there is one for each required parameter, or one
more and a parameter to take it. -/
private theorem matchParameters_replicate (haccepts : ∀ x ∈ ps, k.acceptedBy x.accepts = true)
    (hpairwise : ps.Pairwise fun p q => p.optional = true → q.optional = true) {n : Nat}
    (hn : n = requiredCount ps ∨
      n = requiredCount ps + 1 ∧ ∃ r ∈ ps, r.optional = true ∨ r.repeated = true) :
    matchParameters required total ps (List.replicate n k) = .ok [] := by
  induction ps generalizing n with
  | nil =>
    obtain rfl | ⟨-, r, hr, -⟩ := hn
    · rfl
    · cases hr
  | cons p ps ih =>
    obtain ⟨hp, hps⟩ := List.forall_mem_cons.mp haccepts
    obtain ⟨hbehind, hpairwise⟩ := List.pairwise_cons.mp hpairwise
    have hexact := ih hps hpairwise (.inl rfl)
    rw [requiredCount_cons] at hn
    cases hrepeated : p.repeated with
    | true =>
      -- a repeated parameter leaves one argument for each required parameter behind it
      obtain ⟨m, rfl⟩ : ∃ m, n = m + requiredCount ps :=
        ⟨n - requiredCount ps, by split at hn <;> omega⟩
      have htakes : p.Takes (List.replicate m k) := by
        refine ⟨fun j hj => List.eq_of_mem_replicate hj ▸ hp, fun hrequired => ?_, ?_⟩
        · rw [hrequired] at hn
          simp only [Bool.false_eq_true, if_false] at hn
          exact List.ne_nil_of_length_pos (by rw [List.length_replicate]; omega)
        · simp [hrepeated]
      rw [List.replicate_add, matchParameters_cons_of_stopped required total hrepeated htakes
        (by simp) (.inl (by simp)), hexact]
    | false =>
      cases hoptional : p.optional with
      | true =>
        -- nothing is required behind an optional parameter
        have hzero := requiredCount_eq_zero fun q hq => hbehind q hq hoptional
        rw [hzero] at hexact
        simp only [hoptional, if_true, hzero] at hn
        obtain rfl | ⟨rfl, -⟩ := hn
        · simpa [matchParameters, hrepeated, hoptional, nextFits] using hexact
        · exact (matchParameters_cons_of_single required total hrepeated hp).trans hexact
      | false =>
        simp only [hoptional, Bool.false_eq_true, if_false] at hn
        obtain ⟨m, rfl⟩ : ∃ m, n = m + 1 := ⟨n - 1, by omega⟩
        rw [List.replicate_succ, matchParameters_cons_of_single required total hrepeated hp]
        refine ih hps hpairwise ?_
        obtain hn | ⟨hn, r, hr, hflexible⟩ := hn
        · exact .inl (by omega)
        · refine .inr ⟨by omega, r, ?_, hflexible⟩
          obtain rfl | hr := List.mem_cons.mp hr
          · simp [hoptional, hrepeated] at hflexible
          · exact hr

end

section

variable {ps before after : List Parameter} {p q : Parameter}

private theorem requiredCount_map_accepting (accepts : KindSet) :
    requiredCount (ps.map (Parameter.accepting accepts)) = requiredCount ps := by
  induction ps with
  | nil => rfl
  | cons p ps ih =>
    rw [List.map_cons, requiredCount_cons, requiredCount_cons, ih]
    rfl

/-- Known kinds are what is known of themselves. -/
private theorem covers_map_known (actual : List Kind) :
    List.Forall₂ StaticKind.Covers (actual.map .known) actual :=
  List.forall₂_map_left_iff.mpr
    (List.forall₂_same.mpr fun _ _ _ hk => StaticKind.known.inj hk)

/-- The kind `k` of all arguments but one: the first ones are for the parameters before the next two
and for the next one, then comes the argument of another kind, and behind it there is one for each
required parameter and one more. -/
private def argumentsAround {α : Type} (k other : α) (before after : List Parameter) : List α :=
  List.replicate before.length k ++ k :: other :: List.replicate (requiredCount after + 1) k

/-- A text among numbers matches a repeated parameter for numbers and a required one for texts, with
parameters for numbers around them one of which behind them takes a number more. -/
private theorem matchArguments_of_known_text (hbefore : ∀ x ∈ before, x.repeated = false)
    (hnumbers : ∀ x ∈ before ++ after, (StaticKind.known .float).acceptedBy x.accepts = true)
    (hp : p.repeated = true) (haccepts : p.accepts = .single .float) (hq : q.optional = false)
    (hqaccepts : q.accepts = .single .string)
    (hafter : after.Pairwise fun p q => p.optional = true → q.optional = true)
    (hflexible : ∃ r ∈ after, r.optional = true ∨ r.repeated = true) :
    matchArguments (before ++ p :: q :: after)
      (argumentsAround (.known .float) (.known .string) before after) = .ok () := by
  obtain ⟨hbefores, hafters⟩ := List.forall_mem_append.mp hnumbers
  rw [matchArguments_ok_iff, argumentsAround,
    matchParameters_append_of_single _ _ hbefore hbefores]
  have hnumber : p.Takes [.known .float] := p.takes_singleton (by rw [haccepts]; rfl)
  have htext : q.Takes [.known .string] := q.takes_singleton (by rw [hqaccepts]; rfl)
  have hcount : requiredCount (q :: after) = requiredCount after + 1 := by
    rw [requiredCount_cons, hq, Nat.add_comm]
    rfl
  have hmatch : ∀ required total, matchParameters required total (q :: after)
      (.known .string :: List.replicate (requiredCount after + 1) (.known .float)) = .ok [] := by
    intro required total
    have hrest := matchParameters_replicate required total hafters hafter (.inr ⟨rfl, hflexible⟩)
    rw [← hrest]
    cases hrepeated : q.repeated with
    | true =>
      refine matchParameters_cons_of_stopped required total hrepeated htext ?_ (.inr ?_)
      · rw [List.length_cons, List.length_replicate]
        exact Nat.le_succ _
      · rw [hqaccepts]
        rfl
    | false =>
      exact matchParameters_cons_of_single required total hrepeated (by rw [hqaccepts]; rfl)
  -- the text ends the numbers, and the next parameter takes it
  rw [← hmatch _ _]
  refine matchParameters_cons_of_stopped _ _ hp hnumber ?_ (.inr ?_)
  · rw [hcount, List.length_cons, List.length_replicate]
    exact Nat.le_succ _
  · rw [haccepts]
    rfl

/-- As long as the kind of the text is unknown it is taken with the numbers, and the next parameter
finds a number. -/
private theorem matchArguments_ne_ok_of_unknown_text (after : List Parameter)
    (hbefore : ∀ x ∈ before, x.repeated = false)
    (hnumbers : ∀ x ∈ before, (StaticKind.known .float).acceptedBy x.accepts = true)
    (hp : p.repeated = true) (haccepts : p.accepts = .single .float) (hq : q.optional = false)
    (hqaccepts : q.accepts = .single .string) :
    matchArguments (before ++ p :: q :: after)
      (argumentsAround (.known .float) .dynamic before after) ≠ .ok () := by
  rw [Ne, matchArguments_ok_iff, argumentsAround,
    matchParameters_append_of_single _ _ hbefore hnumbers]
  have hrun : p.Takes [.known .float, .dynamic] := by
    refine ⟨fun k hk => ?_, fun _ => List.cons_ne_nil _ _, fun hsingle => ?_⟩
    · rw [haccepts]
      obtain rfl | hk := List.mem_cons.mp hk
      · rfl
      · rw [List.mem_singleton.mp hk]
        rfl
    · rw [hp] at hsingle
      cases hsingle
  have hleft : (List.replicate (requiredCount after + 1) (StaticKind.known .float)).length =
      requiredCount (q :: after) := by
    rw [List.length_replicate, requiredCount_cons, hq, Nat.add_comm]
    rfl
  have hstop : ∀ required total,
      matchParameters required total (p :: q :: after) ([.known .float, .dynamic] ++
          List.replicate (requiredCount after + 1) (.known .float)) =
        matchParameters required total (q :: after)
          (List.replicate (requiredCount after + 1) (.known .float)) := fun required total =>
    matchParameters_cons_of_stopped required total hp hrun (Nat.le_of_eq hleft.symm)
      (.inl (Nat.le_of_eq hleft))
  simp only [List.cons_append, List.nil_append] at hstop
  rw [hstop, List.replicate_succ]
  exact matchParameters_cons_ne_ok _ _ hq (by rw [hqaccepts]; rfl) []

/-- The parameters of a signature that is not settled can be given kinds to accept so that some
arguments match in the run and not before. -/
private theorem exists_not_matched_before (hps : checkParameters ps = .ok ()) (h : ¬ Settled ps) :
    ∃ (qs : List Parameter) (kinds : List StaticKind) (actual : List Kind),
      qs.map Parameter.shape = ps.map Parameter.shape ∧
        List.Forall₂ StaticKind.Covers kinds actual ∧
        matchArguments qs (actual.map .known) = .ok () ∧ matchArguments qs kinds ≠ .ok () := by
  have hpairwise := ((checkParameters_ok_iff ps).mp hps).2
  obtain ⟨before, p, q, after, rfl, hbefore, hp, hq, r, hr, hflexible⟩ :=
    exists_split_of_not_settled hpairwise h
  have hafter : after.Pairwise fun p q => p.optional = true → q.optional = true :=
    (List.pairwise_cons.mp (List.pairwise_cons.mp (List.pairwise_append.mp hpairwise).2.1).2).2
  -- the next parameter takes texts, all others take numbers
  have haccepts : ∀ l : List Parameter, ∀ x ∈ l.map (Parameter.accepting (.single .float)),
      StaticKind.acceptedBy (.known .float) x.accepts = true := by
    intro l x hx
    obtain ⟨y, -, rfl⟩ := List.mem_map.mp hx
    rfl
  have hbefore' : ∀ x ∈ before.map (Parameter.accepting (.single .float)),
      x.repeated = false := by
    intro x hx
    obtain ⟨y, hy, rfl⟩ := List.mem_map.mp hx
    exact hbefore y hy
  refine ⟨before.map (Parameter.accepting (.single .float)) ++
      p.accepting (.single .float) :: q.accepting (.single .string) ::
        after.map (Parameter.accepting (.single .float)),
    argumentsAround (.known .float) .dynamic before after,
    argumentsAround .float .string before after, ?_, ?_, ?_, ?_⟩
  · simp only [List.map_append, List.map_cons, List.map_map]
    rfl
  · have hfirst := covers_map_known (List.replicate before.length .float)
    have hlast := covers_map_known (List.replicate (requiredCount after + 1) .float)
    rw [List.map_replicate] at hfirst hlast
    exact List.rel_append hfirst
      (.cons (fun _ hk => StaticKind.known.inj hk) (.cons nofun hlast))
  · have hmatched := matchArguments_of_known_text hbefore'
      (List.forall_mem_append.mpr ⟨haccepts before, haccepts after⟩)
      (p := p.accepting (.single .float)) hp rfl (q := q.accepting (.single .string)) hq rfl
      (List.pairwise_map.mpr hafter) ⟨_, List.mem_map_of_mem hr, hflexible⟩
    simpa only [argumentsAround, List.map_append, List.map_cons, List.map_replicate,
      List.length_map, requiredCount_map_accepting] using hmatched
  · intro hmatched
    refine matchArguments_ne_ok_of_unknown_text
      (after.map (Parameter.accepting (.single .float))) hbefore' (haccepts before)
      (p := p.accepting (.single .float)) hp rfl (q := q.accepting (.single .string)) hq rfl ?_
    simpa only [argumentsAround, List.length_map, requiredCount_map_accepting] using hmatched

/-- What a settled signature matches in a run it matches before, when less is known of the kinds of
the arguments. No other shape of signatures has this property for all kinds that its parameters may
accept. -/
theorem settled_iff_matches_before (hps : checkParameters ps = .ok ()) :
    Settled ps ↔
      ∀ qs : List Parameter, qs.map Parameter.shape = ps.map Parameter.shape →
        ∀ (kinds : List StaticKind) (actual : List Kind),
          List.Forall₂ StaticKind.Covers kinds actual →
            matchArguments qs (actual.map .known) = .ok () → matchArguments qs kinds = .ok () := by
  constructor
  · intro hsettled qs hshape kinds actual hcovers hmatch
    exact matchArguments_of_covers (checkParameters_of_shape hshape hps)
      (hsettled.of_shape hshape) hcovers hmatch
  · intro hbefore
    by_contra hnot
    obtain ⟨qs, kinds, actual, hshape, hcovers, hmatch, hne⟩ := exists_not_matched_before hps hnot
    exact hne (hbefore qs hshape kinds actual hcovers hmatch)

/-- Numbers before two required parameters are a settled signature: the argument of unknown kind is
one of the last two. -/
theorem settled_iff_matches_before_of_scale :
    let ps : List Parameter :=
      [.atLeastOne "numbers" .numeric, .one "factor" .numeric, .one "unit" (.single .string)]
    checkParameters ps = .ok () ∧ Settled ps ∧
      List.Forall₂ StaticKind.Covers [.known .float, .dynamic, .dynamic] [.float, .float, .string] ∧
      matchArguments ps [.known .float, .known .float, .known .string] = .ok () ∧
      matchArguments ps [.known .float, .dynamic, .dynamic] = .ok () := by
  intro ps
  have hcheck : checkParameters ps = .ok () := rfl
  have hsettled : Settled ps := HasOneRun.settled (by decide)
  have hcovers : List.Forall₂ StaticKind.Covers [.known .float, .dynamic, .dynamic]
      [.float, .float, .string] :=
    .cons (fun _ hk => StaticKind.known.inj hk) (.cons nofun (.cons nofun .nil))
  exact ⟨hcheck, hsettled, hcovers, rfl,
    (settled_iff_matches_before hcheck).mp hsettled ps rfl _ _ hcovers rfl⟩

end

end TypedFormula
