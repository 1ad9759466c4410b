import Mathlib.Data.List.Forall2
import TypedFormula.Library

/-!
# What it means that arguments match

A signature asks for a split of the arguments into consecutive runs, one for each parameter in
order: a parameter that is not repeated takes at most one argument, one that is not optional takes
at least one, and a parameter takes only arguments of kinds that it accepts (`Assignable`). Matching
looks for such a split from left to right and never goes back.

What is matched is always assignable. The other direction is not true of all signatures, since a
repeated parameter may take an argument that a later one needs. It is true where the choice of the
repeated parameter does not matter (`Settled`): either nothing required stands behind it, and what
is optional can do without an argument, or all that stands behind the next parameter takes exactly
one argument, and the number of arguments decides. All signatures of the library are of this kind.

The proofs share one description of what matching does with a single parameter
(`matchParameters_cons_cases`): it takes a run and goes on, or it fails at the next argument.

Main statements:

* `assignable_of_matchParameters` — what is matched is assignable;
* `matchArguments_of_assignable` — what is assignable to a settled signature is matched;
* `trueOf_of_matchArguments_error` — mismatches tell the truth;
* `matchArguments_meets_signature` — all three, and that the library has such signatures.
-/

namespace TypedFormula

/-! ### Assignments -/

/-- A parameter takes a run of arguments. -/
structure Parameter.Takes (p : Parameter) (run : List StaticKind) : Prop where
  /-- It accepts each of them. -/
  accepted : ∀ k ∈ run, k.acceptedBy p.accepts = true
  /-- It takes at least one, unless it is optional. -/
  filled : p.optional = false → run ≠ []
  /-- It takes at most one, unless it is repeated. -/
  single : p.repeated = false → run.length ≤ 1

/-- The arguments split into consecutive runs, one for each parameter, that the parameters take. -/
def Assignable (parameters : List Parameter) (kinds : List StaticKind) : Prop :=
  ∃ runs, List.Forall₂ Parameter.Takes parameters runs ∧ runs.flatten = kinds

/-- No parameter that is repeated stands before a required one that itself stands before an optional
or repeated one. -/
def Settled (parameters : List Parameter) : Prop :=
  ∀ p q r, [p, q, r].Sublist parameters → p.repeated = true → q.optional = false →
    r.optional = false ∧ r.repeated = false

/-- At most one parameter is repeated, and those behind it are all required or all optional. -/
def HasOneRun : List Parameter → Prop
  | [] => True
  | p :: ps =>
    if p.repeated then
      (∀ q ∈ ps, q.repeated = false) ∧
        ((∀ q ∈ ps, q.optional = false) ∨ ∀ q ∈ ps, q.optional = true)
    else HasOneRun ps

/-- What a mismatch says of a signature and of arguments is the case. -/
def ArgumentMismatch.TrueOf (parameters : List Parameter) (kinds : List StaticKind) :
    ArgumentMismatch → Prop
  | tooFew expected actual =>
    actual = kinds.length ∧ expected = requiredCount parameters ∧ actual < expected
  | tooMany max actual =>
    (∀ p ∈ parameters, p.repeated = false) ∧ actual = kinds.length ∧ max = parameters.length ∧
      max < actual
  | wrongKind ordinal found =>
    1 ≤ ordinal ∧ ordinal ≤ kinds.length ∧ kinds[ordinal - 1]? = some found

instance decidableHasOneRun : (ps : List Parameter) → Decidable (HasOneRun ps)
  | [] => isTrue trivial
  | p :: ps =>
    have := decidableHasOneRun ps
    inferInstanceAs (Decidable (if p.repeated then _ else _))

section

variable {p : Parameter} {ps : List Parameter} {kinds : List StaticKind}

@[simp] theorem assignable_nil : Assignable [] kinds ↔ kinds = [] := by
  simp [Assignable, eq_comm]

/-- Arguments are assignable exactly when they are a run for the first parameter and arguments that
are assignable to the others. -/
theorem assignable_cons :
    Assignable (p :: ps) kinds ↔
      ∃ run rest, kinds = run ++ rest ∧ p.Takes run ∧ Assignable ps rest := by
  constructor
  · rintro ⟨runs, hruns, rfl⟩
    cases hruns with
    | cons htakes hruns => exact ⟨_, _, List.flatten_cons, htakes, _, hruns, rfl⟩
  · rintro ⟨run, rest, rfl, htakes, runs, hruns, rfl⟩
    exact ⟨run :: runs, .cons htakes hruns, List.flatten_cons⟩

private theorem Parameter.takes_nil (h : p.optional = true) : p.Takes [] :=
  ⟨nofun, fun hrequired => by simp [h] at hrequired, fun _ => Nat.zero_le 1⟩

theorem Parameter.takes_singleton {k : StaticKind} (h : k.acceptedBy p.accepts = true) :
    p.Takes [k] :=
  ⟨by simpa using h, fun _ => List.cons_ne_nil _ _, fun _ => Nat.le_refl 1⟩

/-- A parameter that is not repeated takes nothing, or one argument that it accepts. -/
theorem Parameter.Takes.of_single {run : List StaticKind} (h : p.Takes run)
    (hsingle : p.repeated = false) :
    (run = [] ∧ p.optional = true) ∨ ∃ k, run = [k] ∧ k.acceptedBy p.accepts = true := by
  match run, h.single hsingle with
  | [], _ =>
    refine .inl ⟨rfl, ?_⟩
    by_contra hrequired
    exact h.filled (by simpa using hrequired) rfl
  | [k], _ => exact .inr ⟨k, rfl, h.accepted k (List.mem_singleton.mpr rfl)⟩

/-- The number of required parameters grows with a required one only. -/
@[simp] theorem requiredCount_cons :
    requiredCount (p :: ps) = (if p.optional then 0 else 1) + requiredCount ps := by
  cases h : p.optional <;> simp [requiredCount, h, Nat.add_comm]

theorem requiredCount_eq_zero (h : ∀ q ∈ ps, q.optional = true) : requiredCount ps = 0 := by
  simpa [requiredCount] using h

private theorem requiredCount_eq_length (h : ∀ q ∈ ps, q.optional = false) :
    requiredCount ps = ps.length := by
  have hall : ps.filter (fun q => !q.optional) = ps :=
    List.filter_eq_self.mpr fun q hq => by simp [h q hq]
  rw [requiredCount, hall]

end

/-! ### Runs -/

section

variable (accepts : KindSet) (reserved : Nat)

/-- A run leaves what it has to, if there is as much. -/
private theorem le_length_takeRun {kinds : List StaticKind} (h : reserved ≤ kinds.length) :
    reserved ≤ (takeRun accepts reserved kinds).length := by
  induction kinds with
  | nil => exact h
  | cons k ks ih =>
    rw [takeRun]
    split
    · rename_i htake
      have hlt : reserved < ks.length + 1 :=
        of_decide_eq_true (Bool.and_eq_true_iff.mp htake).1
      exact ih (Nat.le_of_lt_succ hlt)
    · exact h

/-- A run takes arguments that are accepted, and if it takes any, it leaves what it has to. -/
private theorem exists_append_takeRun (kinds : List StaticKind) :
    ∃ run, kinds = run ++ takeRun accepts reserved kinds ∧
      (∀ k ∈ run, k.acceptedBy accepts = true) ∧
      (run ≠ [] → reserved ≤ (takeRun accepts reserved kinds).length) := by
  induction kinds with
  | nil => exact ⟨[], rfl, nofun, fun hne => absurd rfl hne⟩
  | cons k ks ih =>
    rw [takeRun]
    split
    · rename_i htake
      obtain ⟨hmore, hk⟩ := Bool.and_eq_true_iff.mp htake
      obtain ⟨run, hrun, haccepted, -⟩ := ih
      refine ⟨k :: run, congrArg (k :: ·) hrun, List.forall_mem_cons.mpr ⟨hk, haccepted⟩,
        fun _ => le_length_takeRun accepts reserved ?_⟩
      exact Nat.le_of_lt_succ (of_decide_eq_true hmore)
    · exact ⟨[], rfl, nofun, fun hne => absurd rfl hne⟩

/-- A run that takes nothing, though the next argument is accepted, has to leave everything. -/
private theorem length_le_of_takeRun_eq {kinds : List StaticKind}
    (hfits : nextFits accepts kinds = true) (h : takeRun accepts reserved kinds = kinds) :
    kinds.length ≤ reserved := by
  cases kinds with
  | nil => cases hfits
  | cons k ks =>
    by_contra hmore
    have htake : (decide (reserved < ks.length + 1) && k.acceptedBy accepts) = true :=
      Bool.and_eq_true_iff.mpr ⟨decide_eq_true (Nat.lt_of_not_le hmore), hfits⟩
    have hsuffix := (takeRun_suffix accepts reserved ks).length_le
    rw [takeRun, if_pos htake] at h
    rw [h, List.length_cons] at hsuffix
    omega

private theorem takeRun_append {run rest : List StaticKind}
    (haccepted : ∀ k ∈ run, k.acceptedBy accepts = true) (hrest : reserved ≤ rest.length) :
    takeRun accepts reserved (run ++ rest) = takeRun accepts reserved rest := by
  induction run with
  | nil => rfl
  | cons k run ih =>
    obtain ⟨hk, hrun⟩ := List.forall_mem_cons.mp haccepted
    have htake : (decide (reserved < (run ++ rest).length + 1) && k.acceptedBy accepts) = true := by
      simp only [List.length_append, hk, Bool.and_true, decide_eq_true_eq]
      omega
    rw [List.cons_append, takeRun, if_pos htake, ih hrun]

end

/-! ### One parameter -/

section

variable (required total : Nat) (p : Parameter) (ps : List Parameter) (rest : List StaticKind)

/-- Matching takes a run for the first parameter and goes on with what is left, and a run that takes
something leaves one argument for each required parameter; or it fails for the first parameter,
which is required and repeated but would take an argument that others need, or is required and does
not take the next argument. -/
theorem matchParameters_cons_cases :
    (∃ run left, rest = run ++ left ∧ p.Takes run ∧
        (p.repeated = true → run ≠ [] → requiredCount ps ≤ left.length) ∧
        matchParameters required total (p :: ps) rest = matchParameters required total ps left) ∨
      (p.optional = false ∧
        ((rest.length ≤ requiredCount ps ∧
            matchParameters required total (p :: ps) rest = .error (.tooFew required total)) ∨
          matchParameters required total (p :: ps) rest =
            .error (mismatchAt required total rest))) := by
  rw [matchParameters]
  cases hrepeated : p.repeated with
  | true =>
    simp only [if_true]
    split
    · rename_i hnothing
      obtain ⟨hlength, hrequired⟩ := Bool.and_eq_true_iff.mp hnothing
      refine .inr ⟨by simpa using hrequired, ?_⟩
      split
      · rename_i hfits
        have hleft := (takeRun_suffix p.accepts (requiredCount ps) rest).eq_of_length
          (of_decide_eq_true hlength)
        exact .inl ⟨length_le_of_takeRun_eq _ _ hfits hleft, rfl⟩
      · exact .inr rfl
    · rename_i hsome
      obtain ⟨run, hrun, haccepted, hleaves⟩ :=
        exists_append_takeRun p.accepts (requiredCount ps) rest
      have hfilled : p.optional = false → run ≠ [] := by
        rintro hrequired rfl
        rw [List.nil_append] at hrun
        simp [← hrun, hrequired] at hsome
      exact .inl ⟨run, _, hrun, ⟨haccepted, hfilled, by simp [hrepeated]⟩, fun _ => hleaves, rfl⟩
  | false =>
    simp only [Bool.false_eq_true, if_false]
    split
    · rename_i hfits
      cases rest with
      | nil => cases hfits
      | cons k ks => exact .inl ⟨[k], ks, rfl, p.takes_singleton hfits, nofun, rfl⟩
    · split
      · rename_i hoptional
        exact .inl ⟨[], rest, rfl, p.takes_nil hoptional, nofun, rfl⟩
      · rename_i hrequired
        exact .inr ⟨by simpa using hrequired, .inr rfl⟩

end

/-! ### What is matched is assignable -/

section

variable {required total : Nat} {ps : List Parameter} {rest left : List StaticKind}

/-- What matching takes is assignable to the parameters. -/
theorem assignable_of_matchParameters
    (h : matchParameters required total ps rest = .ok left) :
    ∃ taken, rest = taken ++ left ∧ Assignable ps taken := by
  induction ps generalizing rest with
  | nil =>
    obtain rfl := Except.ok.inj h
    exact ⟨[], rfl, assignable_nil.mpr rfl⟩
  | cons p ps ih =>
    obtain ⟨run, next, rfl, htakes, -, heq⟩ | ⟨-, ⟨-, heq⟩ | heq⟩ :=
      matchParameters_cons_cases required total p ps rest
    · obtain ⟨taken, rfl, hassignable⟩ := ih (heq ▸ h)
      refine ⟨run ++ taken, (List.append_assoc ..).symm, ?_⟩
      exact assignable_cons.mpr ⟨run, taken, rfl, htakes, hassignable⟩
    · rw [heq] at h
      cases h
    · rw [heq] at h
      cases h

/-- Arguments match exactly when matching the parameters leaves none of them. -/
theorem matchArguments_ok_iff {parameters : List Parameter} {kinds : List StaticKind} :
    matchArguments parameters kinds = .ok () ↔
      matchParameters (requiredCount parameters) kinds.length parameters kinds = .ok [] := by
  unfold matchArguments
  split
  · rename_i e heq
    simp [heq]
  · rename_i heq
    simp [heq]
  · rename_i k ks heq
    rw [heq]
    split <;> simp

theorem assignable_of_matchArguments {parameters : List Parameter} {kinds : List StaticKind}
    (h : matchArguments parameters kinds = .ok ()) : Assignable parameters kinds := by
  obtain ⟨taken, hkinds, hassignable⟩ :=
    assignable_of_matchParameters (matchArguments_ok_iff.mp h)
  rwa [hkinds, List.append_nil]

end

/-! ### What is assignable is matched -/

section

variable {p q : Parameter} {ps : List Parameter} {kinds rest run : List StaticKind}

private theorem suffix_append_cases {α : Type} {l a b : List α} (h : l <:+ a ++ b) :
    l <:+ b ∨ ∃ a', a' <:+ a ∧ l = a' ++ b := by
  obtain hb | ⟨a', rfl⟩ := List.suffix_or_suffix_of_suffix h (List.suffix_append a b)
  · exact .inl hb
  · exact .inr ⟨a', List.suffix_append_self_iff.mp h, rfl⟩

/-- A parameter takes the end of a run that it takes, if it needs no more. -/
private theorem Parameter.Takes.of_suffix {run' : List StaticKind} (h : p.Takes run)
    (hrun : run' <:+ run) (hfilled : p.optional = false → run' ≠ []) : p.Takes run' :=
  ⟨fun k hk => h.accepted k (hrun.subset hk), hfilled,
    fun hsingle => Nat.le_trans hrun.length_le (h.single hsingle)⟩

/-- Optional parameters do without the first arguments. -/
private theorem assignable_of_suffix (hoptional : ∀ p ∈ ps, p.optional = true)
    (h : Assignable ps kinds) (hrest : rest <:+ kinds) : Assignable ps rest := by
  induction ps generalizing kinds rest with
  | nil =>
    rw [assignable_nil] at h ⊢
    rw [h] at hrest
    exact List.suffix_nil.mp hrest
  | cons p ps ih =>
    obtain ⟨run, others, rfl, htakes, hothers⟩ := assignable_cons.mp h
    obtain ⟨hp, hps⟩ := List.forall_mem_cons.mp hoptional
    obtain hrest | ⟨run', hrun', rfl⟩ := suffix_append_cases hrest
    · exact assignable_cons.mpr ⟨[], rest, rfl, Parameter.takes_nil hp, ih hps hothers hrest⟩
    · refine assignable_cons.mpr ⟨run', others, rfl, ?_, hothers⟩
      exact htakes.of_suffix hrun' fun hrequired => by simp [hp] at hrequired

/-- As many arguments are assignable to required parameters that are not repeated. -/
private theorem Assignable.length_eq
    (hone : ∀ p ∈ ps, p.optional = false ∧ p.repeated = false) (h : Assignable ps kinds) :
    kinds.length = ps.length := by
  induction ps generalizing kinds with
  | nil =>
    obtain rfl := assignable_nil.mp h
    rfl
  | cons p ps ih =>
    obtain ⟨run, others, rfl, htakes, hothers⟩ := assignable_cons.mp h
    obtain ⟨⟨hrequired, hsingle⟩, hps⟩ := List.forall_mem_cons.mp hone
    obtain ⟨-, hoptional⟩ | ⟨k, rfl, -⟩ := htakes.of_single hsingle
    · simp [hrequired] at hoptional
    · rw [List.length_append, ih hps hothers, List.length_singleton, List.length_cons,
        Nat.add_comm]

/-- There are as many arguments as required parameters. -/
theorem Assignable.requiredCount_le (h : Assignable ps kinds) :
    requiredCount ps ≤ kinds.length := by
  induction ps generalizing kinds with
  | nil => exact Nat.zero_le _
  | cons p ps ih =>
    obtain ⟨run, others, rfl, htakes, hothers⟩ := assignable_cons.mp h
    rw [requiredCount_cons, List.length_append]
    refine Nat.add_le_add ?_ (ih hothers)
    split
    · exact Nat.zero_le _
    · rename_i hrequired
      exact List.length_pos_iff.mpr (htakes.filled (by simpa using hrequired))

/-- A parameter before required ones that are not repeated does without the first arguments, as long
as one is left for it. -/
private theorem assignable_cons_of_suffix (hone : ∀ p ∈ ps, p.optional = false ∧ p.repeated = false)
    (h : Assignable (q :: ps) kinds) (hrest : rest <:+ kinds) (hlength : ps.length < rest.length) :
    Assignable (q :: ps) rest := by
  obtain ⟨run, others, rfl, htakes, hothers⟩ := assignable_cons.mp h
  have hothers_length := hothers.length_eq hone
  obtain hrest | ⟨run', hrun', rfl⟩ := suffix_append_cases hrest
  · have hle := hrest.length_le
    omega
  · refine assignable_cons.mpr ⟨run', others, rfl, htakes.of_suffix hrun' fun _ => ?_, hothers⟩
    rintro rfl
    rw [List.nil_append] at hlength
    omega

/-- A settled signature is settled without its first parameter. -/
private theorem Settled.tail (h : Settled (p :: ps)) : Settled ps := fun a b c hsub =>
  h a b c (hsub.cons p)

/-- Behind a required parameter that follows a repeated one, a settled signature has only required
parameters that are not repeated. -/
private theorem Settled.of_repeated (h : Settled (p :: q :: ps)) (hrepeated : p.repeated = true)
    (hrequired : q.optional = false) :
    ∀ r ∈ ps, r.optional = false ∧ r.repeated = false := fun r hr =>
  h p q r (((List.singleton_sublist.mpr hr).cons_cons q).cons_cons p) hrepeated hrequired

/-- What a repeated parameter leaves is assignable to the parameters behind it, if the signature is
settled. -/
private theorem assignable_takeRun (hsettled : Settled (p :: ps)) (hrepeated : p.repeated = true)
    (hpairwise : ps.Pairwise fun p q => p.optional = true → q.optional = true)
    (hrest : Assignable ps rest) :
    Assignable ps (takeRun p.accepts (requiredCount ps) rest) := by
  have hsuffix := takeRun_suffix p.accepts (requiredCount ps) rest
  cases ps with
  | nil => exact assignable_of_suffix nofun hrest hsuffix
  | cons q ps =>
    cases hq : q.optional with
    | true =>
      -- nothing is required behind an optional parameter
      refine assignable_of_suffix (List.forall_mem_cons.mpr ⟨hq, fun r hr => ?_⟩) hrest hsuffix
      exact (List.pairwise_cons.mp hpairwise).1 r hr hq
    | false =>
      have hone := hsettled.of_repeated hrepeated hq
      have hleaves := le_length_takeRun p.accepts (requiredCount (q :: ps)) hrest.requiredCount_le
      refine assignable_cons_of_suffix hone hrest hsuffix (Nat.lt_of_lt_of_le ?_ hleaves)
      have hcount : requiredCount (q :: ps) = 1 + ps.length := by
        simp [hq, requiredCount_eq_length fun r hr => (hone r hr).1]
      omega

/-- A repeated parameter takes a run that it can take, if enough is left, and perhaps more. -/
theorem matchParameters_cons_of_run (required total : Nat) (hrepeated : p.repeated = true)
    (htakes : p.Takes run) (hrest : requiredCount ps ≤ rest.length) :
    matchParameters required total (p :: ps) (run ++ rest) =
      matchParameters required total ps (takeRun p.accepts (requiredCount ps) rest) := by
  rw [matchParameters, takeRun_append _ _ htakes.accepted hrest]
  have hprogress : ¬ (decide ((takeRun p.accepts (requiredCount ps) rest).length =
      (run ++ rest).length) && !p.optional) = true := by
    intro hnothing
    obtain ⟨hlength, hrequired⟩ := Bool.and_eq_true_iff.mp hnothing
    have hrun := List.length_pos_iff.mpr (htakes.filled (by simpa using hrequired))
    have hle := (takeRun_suffix p.accepts (requiredCount ps) rest).length_le
    have hlength := of_decide_eq_true hlength
    rw [List.length_append] at hlength
    omega
  simp only [hrepeated, if_true, if_neg hprogress]

/-- A parameter that is not repeated takes one argument that it accepts. -/
theorem matchParameters_cons_of_single {k : StaticKind} (required total : Nat)
    (hsingle : p.repeated = false) (haccepted : k.acceptedBy p.accepts = true) :
    matchParameters required total (p :: ps) (k :: rest) =
      matchParameters required total ps rest := by
  have hfits : nextFits p.accepts (k :: rest) = true := haccepted
  simp only [matchParameters, hsingle, Bool.false_eq_true, if_false, hfits, if_true, List.tail_cons]

/-- What is assignable to the parameters of a settled signature is matched with them. -/
private theorem matchParameters_of_assignable (required total : Nat) (hsettled : Settled ps)
    (hpairwise : ps.Pairwise fun p q => p.optional = true → q.optional = true)
    (h : Assignable ps kinds) : matchParameters required total ps kinds = .ok [] := by
  induction ps generalizing kinds with
  | nil =>
    obtain rfl := assignable_nil.mp h
    rfl
  | cons p ps ih =>
    obtain ⟨run, rest, rfl, htakes, hrest⟩ := assignable_cons.mp h
    obtain ⟨hbehind, hpairwise'⟩ := List.pairwise_cons.mp hpairwise
    cases hrepeated : p.repeated with
    | true =>
      rw [matchParameters_cons_of_run required total hrepeated htakes hrest.requiredCount_le]
      exact ih hsettled.tail hpairwise' (assignable_takeRun hsettled hrepeated hpairwise' hrest)
    | false =>
      obtain ⟨rfl, hoptional⟩ | ⟨k, rfl, haccepted⟩ := htakes.of_single hrepeated
      · rw [matchParameters, List.nil_append]
        simp only [hrepeated, Bool.false_eq_true, if_false, hoptional, if_true]
        split
        · -- the next argument is taken here, and the others do without it
          refine ih hsettled.tail hpairwise' (assignable_of_suffix (fun q hq => ?_) hrest
            (List.tail_suffix rest))
          exact hbehind q hq hoptional
        · exact ih hsettled.tail hpairwise' hrest
      · rw [List.singleton_append,
          matchParameters_cons_of_single required total hrepeated haccepted]
        exact ih hsettled.tail hpairwise' hrest

/-- What is assignable to a settled signature is matched with it. -/
theorem matchArguments_of_assignable (hps : checkParameters ps = .ok ()) (hsettled : Settled ps)
    (h : Assignable ps kinds) : matchArguments ps kinds = .ok () :=
  matchArguments_ok_iff.mpr
    (matchParameters_of_assignable _ _ hsettled ((checkParameters_ok_iff _).mp hps).2 h)

/-- A signature with one repeated parameter that stands before required ones only, or before
optional ones only, is settled. -/
theorem HasOneRun.settled (h : HasOneRun ps) : Settled ps := by
  induction ps with
  | nil =>
    intro p q r hsub
    cases List.sublist_nil.mp hsub
  | cons x ps ih =>
    intro p q r hsub hp hq
    rw [HasOneRun] at h
    split at h
    · obtain ⟨hsingle, hbehind⟩ := h
      obtain hsub | ⟨_, heq, hsub⟩ := List.sublist_cons_iff.mp hsub
      · have hp' := hsingle p (hsub.subset List.mem_cons_self)
        rw [hp] at hp'
        cases hp'
      · obtain ⟨rfl, rfl⟩ := List.cons.inj heq
        have hmemq := hsub.subset List.mem_cons_self
        have hmemr := hsub.subset (List.mem_cons_of_mem q (List.mem_singleton.mpr rfl))
        refine ⟨?_, hsingle r hmemr⟩
        obtain hrequired | hoptional := hbehind
        · exact hrequired r hmemr
        · have hq' := hoptional q hmemq
          rw [hq] at hq'
          cases hq'
    · rename_i hx
      obtain hsub | ⟨_, heq, -⟩ := List.sublist_cons_iff.mp hsub
      · exact ih h p q r hsub hp hq
      · exact absurd ((List.cons.inj heq).1 ▸ hp) hx

end

/-! ### Mismatches -/

section

variable {parameters ps : List Parameter} {kinds rest : List StaticKind}

/-- A mismatch at the next argument is the case, if there are too few arguments where none is
left. -/
private theorem trueOf_mismatchAt (hrest : rest <:+ kinds)
    (hfew : rest = [] → kinds.length < requiredCount parameters) :
    (mismatchAt (requiredCount parameters) kinds.length rest).TrueOf parameters kinds := by
  cases rest with
  | nil => exact ⟨rfl, rfl, hfew rfl⟩
  | cons k ks =>
    obtain ⟨before, rfl⟩ := hrest
    have hordinal : (before ++ k :: ks).length - ks.length - 1 = before.length := by
      rw [List.length_append, List.length_cons]
      omega
    refine ⟨?_, Nat.sub_le _ _, ?_⟩
    · rw [List.length_append, List.length_cons]
      omega
    · rw [hordinal]
      simp

/-- A mismatch of the parameters is the case. Where fewer arguments are left than parameters that
require one, there were too few from the start, since nothing was taken that others need. -/
private theorem trueOf_of_matchParameters_error
    (hpairwise : ps.Pairwise fun p q => p.optional = true → q.optional = true)
    (hrest : rest <:+ kinds)
    (hfew : rest.length < requiredCount ps → kinds.length < requiredCount parameters)
    {e : ArgumentMismatch}
    (h : matchParameters (requiredCount parameters) kinds.length ps rest = .error e) :
    e.TrueOf parameters kinds := by
  induction ps generalizing rest with
  | nil => cases h
  | cons p ps ih =>
    obtain ⟨hbehind, hpairwise⟩ := List.pairwise_cons.mp hpairwise
    rw [requiredCount_cons] at hfew
    obtain ⟨run, left, rfl, htakes, hleaves, heq⟩ | ⟨hrequired, ⟨hle, heq⟩ | heq⟩ :=
      matchParameters_cons_cases (requiredCount parameters) kinds.length p ps rest
    · rw [heq] at h
      refine ih hpairwise ((List.suffix_append run left).trans hrest) (fun hlt => hfew ?_) h
      cases hp : p.optional with
      | true =>
        -- nothing is required behind an optional parameter
        rw [requiredCount_eq_zero fun q hq => hbehind q hq hp] at hlt
        cases hlt
      | false =>
        have hrun := htakes.filled hp
        cases hrepeated : p.repeated with
        | true => exact absurd (hleaves hrepeated hrun) (Nat.not_le_of_lt hlt)
        | false =>
          have hone := htakes.single hrepeated
          simp only [List.length_append, Bool.false_eq_true, if_false]
          omega
    · obtain rfl := Except.error.inj (heq ▸ h)
      refine ⟨rfl, rfl, hfew ?_⟩
      simp only [hrequired, Bool.false_eq_true, if_false]
      omega
    · obtain rfl := Except.error.inj (heq ▸ h)
      refine trueOf_mismatchAt hrest fun hnil => hfew ?_
      simp only [hnil, hrequired, List.length_nil, Bool.false_eq_true, if_false]
      omega

/-- A mismatch of arguments with a signature is the case. -/
theorem trueOf_of_matchArguments_error (hps : checkParameters parameters = .ok ())
    {e : ArgumentMismatch} (h : matchArguments parameters kinds = .error e) :
    e.TrueOf parameters kinds := by
  unfold matchArguments at h
  split at h
  · rename_i e' heq
    obtain rfl := Except.error.inj h
    exact trueOf_of_matchParameters_error ((checkParameters_ok_iff _).mp hps).2 List.suffix_rfl id
      heq
  · cases h
  · rename_i k ks heq
    split at h
    · rename_i hmany
      obtain rfl := Except.error.inj h
      obtain ⟨hsingle, hlt⟩ := Bool.and_eq_true_iff.mp hmany
      exact ⟨by simpa using hsingle, rfl, rfl, of_decide_eq_true hlt⟩
    · obtain rfl := Except.error.inj h
      obtain ⟨taken, hkinds, -⟩ := assignable_of_matchParameters heq
      exact trueOf_mismatchAt ⟨taken, hkinds.symm⟩ nofun

end

/-! ### Signatures -/

/-- All signatures of the library have at most one repeated parameter, and it stands last or before
required ones only, or before optional ones only. -/
theorem Library.hasOneRun_of_mem [Binary64.Logarithms] {f : Function}
    (hf : f ∈ Library.functions) : HasOneRun f.parameters := by
  have hall : (Library.functions.all fun f => decide (HasOneRun f.parameters)) = true := rfl
  exact of_decide_eq_true (List.all_eq_true.mp hall f hf)

/-- Arguments that match a list of parameters are assignable to it. Arguments that are assignable to
a signature match it, if at most one parameter is repeated and those behind it are all required or
all optional, as in the library. A mismatch with a signature tells the truth: too few arguments are
fewer than the required parameters, too many are more than the parameters of a signature without
repetition, and an argument that does not fit is there and has the kind that is told. -/
theorem matchArguments_meets_signature [Binary64.Logarithms] (parameters : List Parameter)
    (kinds : List StaticKind) :
    (matchArguments parameters kinds = .ok () → Assignable parameters kinds) ∧
      (checkParameters parameters = .ok () → HasOneRun parameters → Assignable parameters kinds →
        matchArguments parameters kinds = .ok ()) ∧
      (checkParameters parameters = .ok () → ∀ e, matchArguments parameters kinds = .error e →
        e.TrueOf parameters kinds) ∧
      ∀ f ∈ Library.functions, HasOneRun f.parameters :=
  ⟨assignable_of_matchArguments,
    fun hps hrun => matchArguments_of_assignable hps hrun.settled,
    fun hps _ => trueOf_of_matchArguments_error hps,
    fun _ => Library.hasOneRun_of_mem⟩

/-- Numbers before a factor: the last argument is the factor, also if its kind is unknown, and a
single one is too few. -/
theorem matchArguments_meets_signature_of_factor :
    let parameters : List Parameter := [.atLeastOne "numbers" .numeric, .one "factor" .numeric]
    (checkParameters parameters = .ok () ∧ HasOneRun parameters ∧
        Assignable parameters [.known .float, .known .integer, .dynamic] ∧
        matchArguments parameters [.known .float, .known .integer, .dynamic] = .ok ()) ∧
      ∃ e, matchArguments parameters [.known .float] = .error e ∧
        e.TrueOf parameters [.known .float] := by
  intro parameters
  have hcheck : checkParameters parameters = .ok () := rfl
  have hassignable : Assignable parameters [.known .float, .known .integer, .dynamic] :=
    ⟨[[.known .float, .known .integer], [.dynamic]],
      .cons ⟨by decide, by decide, by decide⟩ (.cons (Parameter.takes_singleton rfl) .nil), rfl⟩
  refine ⟨⟨hcheck, by decide, hassignable, ?_⟩, _, rfl, ?_⟩
  · exact (matchArguments_meets_signature parameters _).2.1 hcheck (by decide) hassignable
  · exact (matchArguments_meets_signature parameters _).2.2.1 hcheck _ rfl

end TypedFormula
