import TypedFormula.Kind

/-!
# Signatures

A signature is a list of parameters. A parameter takes arguments of certain kinds, may be left
out (`optional`), and may take a run of arguments in place of one (`repeated`). Arguments are
matched from left to right and without going back: a repeated parameter takes every argument it
accepts, but leaves one for each required parameter after it, and an optional one is skipped when
the next argument does not fit.

Main statements:

* `takeRun_suffix` — a run takes arguments from the front and leaves the others as they are;
* `checkParameters_ok_iff` — a list of parameters is a signature exactly when no name is used
  twice and no required parameter follows an optional one.
-/

namespace TypedFormula

/-- A formal parameter of a function. -/
structure Parameter where
  /-- The name shown in the usage. -/
  name : String
  /-- The kinds that an argument may have. -/
  accepts : KindSet
  /-- Whether the argument may be left out. -/
  optional : Bool
  /-- Whether the parameter takes a run of arguments. -/
  repeated : Bool
deriving DecidableEq

namespace Parameter

/-- A parameter for exactly one argument. -/
def one (name : String) (accepts : KindSet) : Parameter := ⟨name, accepts, false, false⟩

/-- A parameter for at most one argument. -/
def atMostOne (name : String) (accepts : KindSet) : Parameter := ⟨name, accepts, true, false⟩

/-- A parameter for at least one argument. -/
def atLeastOne (name : String) (accepts : KindSet) : Parameter := ⟨name, accepts, false, true⟩

/-- A parameter for any number of arguments. -/
def anyNumber (name : String) (accepts : KindSet) : Parameter := ⟨name, accepts, true, true⟩

/-- The parameter as it stands in a usage: dots after a repeated one, brackets around an
optional one. -/
def usage (p : Parameter) : String :=
  let shown := if p.repeated then p.name ++ "..." else p.name
  if p.optional then "[" ++ shown ++ "]" else shown

end Parameter

/-- How a function is called: its name and its parameters between parentheses. -/
def usageText (name : String) (parameters : List Parameter) : String :=
  name ++ "(" ++ String.intercalate ", " (parameters.map Parameter.usage) ++ ")"

/-- How many parameters need an argument. -/
def requiredCount (parameters : List Parameter) : Nat :=
  (parameters.filter fun p => !p.optional).length

/-! ### Well-formed signatures -/

/-- Why a list of parameters is no signature. -/
inductive SignatureFault where
  /-- Two parameters have one name. -/
  | duplicateName (name : String)
  /-- A required parameter follows an optional one. -/
  | requiredAfterOptional (name : String)
deriving DecidableEq

/-- The text of a signature fault. -/
def SignatureFault.message : SignatureFault → String
  | duplicateName name => "duplicate argument name \"" ++ name ++ "\""
  | requiredAfterOptional name => "required argument \"" ++ name ++ "\" follows an optional one"

/-- Checks parameters from left to right, knowing the names before them and whether one of those
was optional. -/
def checkParametersAfter (names : List String) (optionalSeen : Bool) :
    List Parameter → Except SignatureFault Unit
  | [] => .ok ()
  | p :: ps =>
    if p.name ∈ names then .error (.duplicateName p.name)
    else if !p.optional && optionalSeen then .error (.requiredAfterOptional p.name)
    else checkParametersAfter (p.name :: names) (optionalSeen || p.optional) ps

/-- Checks that names are unique and that no required parameter follows an optional one. -/
def checkParameters (parameters : List Parameter) : Except SignatureFault Unit :=
  checkParametersAfter [] false parameters

/-! ### Matching -/

/-- Why arguments do not match a signature. -/
inductive ArgumentMismatch where
  /-- There are fewer arguments than required parameters. -/
  | tooFew (expected actual : Nat)
  /-- There are more arguments than parameters. -/
  | tooMany (max actual : Nat)
  /-- The argument with this number, counted from one, does not fit. -/
  | wrongKind (ordinal : Nat) (found : StaticKind)
deriving DecidableEq

/-- The text of a mismatch. -/
def ArgumentMismatch.message : ArgumentMismatch → String
  | tooFew expected actual =>
    "expected at least " ++ toString expected ++ " argument(s), got " ++ toString actual
  | tooMany max actual =>
    "expected at most " ++ toString max ++ " argument(s), got " ++ toString actual
  | wrongKind ordinal found =>
    "argument " ++ toString ordinal ++ " has the wrong type (" ++ found.name ++ ")"

/-- Whether the next argument is there and fits. -/
def nextFits (accepts : KindSet) : List StaticKind → Bool
  | [] => false
  | k :: _ => k.acceptedBy accepts

/-- The arguments left over by a run that takes every fitting argument but leaves `reserved`. -/
def takeRun (accepts : KindSet) (reserved : Nat) : List StaticKind → List StaticKind
  | [] => []
  | k :: ks =>
    if reserved < ks.length + 1 && k.acceptedBy accepts then takeRun accepts reserved ks
    else k :: ks

/-- The mismatch at the next of the remaining arguments: it does not fit, or there is none. -/
def mismatchAt (required total : Nat) : List StaticKind → ArgumentMismatch
  | [] => .tooFew required total
  | k :: ks => .wrongKind (total - ks.length) k

/-- Matches the parameters with the remaining arguments and gives those left over at the end. -/
def matchParameters (required total : Nat) :
    List Parameter → List StaticKind → Except ArgumentMismatch (List StaticKind)
  | [], rest => .ok rest
  | p :: ps, rest =>
    if p.repeated then
      let left := takeRun p.accepts (requiredCount ps) rest
      if left.length = rest.length && !p.optional then
        if nextFits p.accepts rest then .error (.tooFew required total)
        else .error (mismatchAt required total rest)
      else matchParameters required total ps left
    else if nextFits p.accepts rest then matchParameters required total ps rest.tail
    else if p.optional then matchParameters required total ps rest
    else .error (mismatchAt required total rest)

/-- Matches arguments of the given kinds with a signature. -/
def matchArguments (parameters : List Parameter) (kinds : List StaticKind) :
    Except ArgumentMismatch Unit :=
  match matchParameters (requiredCount parameters) kinds.length parameters kinds with
  | .error e => .error e
  | .ok [] => .ok ()
  | .ok (k :: ks) =>
    if !parameters.any Parameter.repeated && parameters.length < kinds.length then
      .error (.tooMany parameters.length kinds.length)
    else .error (mismatchAt (requiredCount parameters) kinds.length (k :: ks))

/-! ### What matching relies on -/

/-- A run takes arguments from the front and leaves the others as they are. -/
theorem takeRun_suffix (accepts : KindSet) (reserved : Nat) (kinds : List StaticKind) :
    takeRun accepts reserved kinds <:+ kinds := by
  induction kinds with
  | nil => exact List.suffix_rfl
  | cons k ks ih =>
    rw [takeRun]
    split
    · exact ih.trans (List.suffix_cons k ks)
    · exact List.suffix_rfl

/-- Parameters pass after others exactly when their names are new and pairwise different, and no
required one follows an optional one, there or here. -/
private theorem checkParametersAfter_ok_iff (names : List String) (optionalSeen : Bool)
    (ps : List Parameter) :
    checkParametersAfter names optionalSeen ps = .ok () ↔
      (ps.map Parameter.name).Nodup ∧ (∀ p ∈ ps, p.name ∉ names) ∧
        (optionalSeen = true → ∀ p ∈ ps, p.optional = true) ∧
        ps.Pairwise fun p q => p.optional = true → q.optional = true := by
  induction ps generalizing names optionalSeen with
  | nil => simp [checkParametersAfter]
  | cons p ps ih =>
    by_cases hname : p.name ∈ names
    · simp [checkParametersAfter, hname]
    · cases hopt : p.optional <;> cases hseen : optionalSeen
      all_goals
        simp only [checkParametersAfter, hname, hopt, if_false, Bool.not_false, Bool.not_true,
          Bool.true_and, Bool.false_and, Bool.and_false, if_true, Bool.false_or, Bool.or_true,
          List.map_cons, List.nodup_cons, List.mem_map, List.mem_cons, forall_eq_or_imp,
          List.pairwise_cons]
      all_goals grind

/-- A list of parameters is a signature exactly when no name is used twice and no required
parameter follows an optional one. -/
theorem checkParameters_ok_iff (ps : List Parameter) :
    checkParameters ps = .ok () ↔
      (ps.map Parameter.name).Nodup ∧
        ps.Pairwise fun p q => p.optional = true → q.optional = true := by
  simp [checkParameters, checkParametersAfter_ok_iff]

end TypedFormula
