import TypedFormula.Proofs.Declarations
import TypedFormula.Proofs.Equality
import TypedFormula.Proofs.Finite.Runs
import TypedFormula.Proofs.SourceOrder

/-!
# The variables of a formula

What a formula says of its variables is collected reference by reference, apart from the code. It
agrees with the code nevertheless: the loads of the code are the references of the text, one by one
and in its order, and the listed variables are the loaded ones in the order of their first loads
(`Formula.Lists`).

Defaults are compared with the first one that is given for their variable, and the comparison stops
at the first one that differs (`FirstConflict`). Defaults are single finite values, on which
equality is an equivalence. So no two defaults of a variable differ exactly when none differs from
the first one.

Main statements:

* `denotes_of_parseFormula` — the references of a tree are those of the text, in its order;
* `Variables.add_error_iff` — at which reference collecting stops;
* `Formula.compile_of_references` — what a formula knows of its variables, and which texts that have
  a tree are not compiled.
-/

namespace TypedFormula

/-! ### References of the text -/

/-- A reference as the text has it. -/
structure WrittenReference where
  /-- The variable. -/
  name : String
  /-- The text of the default. -/
  default : Option String
  /-- The byte offset. -/
  offset : Nat

/-- The reference that a token is. -/
def Located.reference? : Located → Option WrittenReference
  | ⟨.reference name default, offset⟩ => some ⟨name, default, offset⟩
  | _ => none

/-- The tokens of a text behind its equals sign. -/
def formulaTokens (text : String) : List Located :=
  match skipBlanks 0 text.toList with
  | (start, '=' :: rest) => (tokenize (start + 1) rest).tokens
  | _ => []

/-- The references that a text has, from the first one on. -/
def writtenReferences (text : String) : List WrittenReference :=
  (formulaTokens text).filterMap Located.reference?

/-- A reference of a tree is what is written: the variable at its place, under the kind that it has
in the scope, with the value of this kind that the default writes. -/
structure Denotes (scope : Scope) (written : WrittenReference) (o : Expr.Occurrence) : Prop where
  /-- The variable. -/
  name : o.name = written.name
  /-- The place. -/
  offset : o.offset = written.offset
  /-- The kind. -/
  kind : scope.types.get? written.name = some o.kind
  /-- The default. -/
  default : WritesDefault o.kind written.default o.default

section

variable {scope : Scope} {text : String} {e : Expr}

/-- A token is a reference exactly when the node that it leaves is one, and this is what it
writes. -/
private theorem MadeOf.denotes {t : Located} {n : Expr} (h : MadeOf scope t n) :
    Option.Rel (Denotes scope) t.reference? n.occurrence? := by
  cases h with
  | reference offset hkind hdefault => exact .some ⟨rfl, rfl, hkind, hdefault⟩
  | sign offset hop operand =>
    unfold sign? at hop
    split at hop <;> first | exact .none | cases hop
  | operator offset hop left right =>
    unfold Precedence.operator? at hop
    split at hop <;> first | exact .none | cases hop
  | _ => exact .none

/-- The tokens that leave no nodes are no references. -/
private theorem filterMap_reference?_leaving (tokens : List Located) :
    (leaving tokens).filterMap Located.reference? = tokens.filterMap Located.reference? := by
  rw [leaving, List.filterMap_filter]
  refine List.filterMap_congr fun t _ => ?_
  obtain ⟨t, offset⟩ := t
  cases t with
  | mark m => cases m <;> rfl
  | _ => rfl

/-- The references of the tree of a text are those that the text has, in the same order. -/
theorem denotes_of_parseFormula (h : parseFormula scope text = .ok e) :
    List.Forall₂ (Denotes scope) (writtenReferences text) e.occurrences := by
  obtain ⟨start, rest, tokens, stop, a, hskip, htokens, hder, hty, -⟩ := parseFormula_ok_iff.mp h
  have hwritten : formulaTokens text = tokens := by
    simp only [formulaTokens, hskip, htokens]
  rw [writtenReferences, hwritten, e.occurrences_eq_filterMap, ← filterMap_reference?_leaving]
  exact List.rel_filterMap (R := MadeOf scope) (P := Denotes scope) (fun _ _ => MadeOf.denotes)
    (hder.madeOf hty)

end

/-! ### Collecting -/

/-- A value is the default that the first of all references to a variable with a default gives. -/
def FirstDefault (name : String) (v : Value) (os : List Expr.Occurrence) : Prop :=
  ∃ before o after, os = before ++ o :: after ∧ o.name = name ∧ o.default = some v ∧
    ∀ p ∈ before, p.name = name → p.default = none

/-- A reference is the first one that gives a default that differs from the first default for its
variable. -/
def FirstConflict (os : List Expr.Occurrence) (o : Expr.Occurrence) (first v : Value) : Prop :=
  ∃ before after, os = before ++ o :: after ∧ FirstDefault o.name first os ∧
    o.default = some v ∧ first.equals v = false ∧
    ∀ p ∈ before, ∀ u w, FirstDefault p.name u os → p.default = some w → u.equals w = true

section

variable {name : String} {v : Value} {os : List Expr.Occurrence}

private theorem firstDefault?_eq_findSome? : Expr.firstDefault? name os =
    os.findSome? fun o => if o.name = name then o.default else none := by
  induction os with
  | nil => rfl
  | cons o os ih =>
    rw [Expr.firstDefault?, ih, List.findSome?_cons]
    cases if o.name = name then o.default else none <;> rfl

private theorem firstDefault?_eq_some_iff :
    Expr.firstDefault? name os = some v ↔ FirstDefault name v os := by
  rw [firstDefault?_eq_findSome?, List.findSome?_eq_some_iff]
  simp only [Option.ite_none_right_eq_some, ite_eq_right_iff, FirstDefault, and_assoc]

private theorem exists_firstDefault? {o : Expr.Occurrence} (ho : o ∈ os) (hv : o.default = some v) :
    ∃ first, Expr.firstDefault? o.name os = some first := by
  rw [← Option.isSome_iff_exists, firstDefault?_eq_findSome?, List.findSome?_isSome_iff]
  exact ⟨o, ho, by simp [hv]⟩

end

/-- The error at a reference whose default differs from another one for its variable. -/
def Expr.Occurrence.conflict? (first? : String → Option Value) (o : Expr.Occurrence) :
    Option CompileError :=
  match o.default, first? o.name with
  | some v, some first =>
    if first.equals v then none else some ⟨.conflictingDefaults o.name first v, o.offset⟩
  | _, _ => none

section

variable {first? : String → Option Value} {o : Expr.Occurrence} {err : CompileError}

/-- A reference is refused exactly when it gives a default that differs from the known one. -/
private theorem Expr.Occurrence.conflict?_eq_some_iff : o.conflict? first? = some err ↔
    ∃ first v, first? o.name = some first ∧ o.default = some v ∧ first.equals v = false ∧
      err = ⟨.conflictingDefaults o.name first v, o.offset⟩ := by
  unfold conflict?
  constructor
  · intro h
    split at h
    · rename_i v first hv hfirst
      split at h
      · cases h
      · rename_i hdiffer
        exact ⟨first, v, hfirst, hv, Bool.eq_false_iff.mpr hdiffer, (Option.some.inj h).symm⟩
    · cases h
  · rintro ⟨first, v, hfirst, hv, hdiffer, rfl⟩
    simp [hfirst, hv, hdiffer]

private theorem Expr.Occurrence.conflict?_eq_none_iff : o.conflict? first? = none ↔
    ∀ first v, first? o.name = some first → o.default = some v → first.equals v = true := by
  rw [Option.eq_none_iff_forall_ne_some]
  constructor
  · intro h first v hfirst hv
    by_contra hdiffer
    exact h _ (conflict?_eq_some_iff.mpr ⟨first, v, hfirst, hv, by simpa using hdiffer, rfl⟩)
  · intro h err herr
    obtain ⟨first, v, hfirst, hv, hdiffer, -⟩ := conflict?_eq_some_iff.mp herr
    rw [h first v hfirst hv] at hdiffer
    cases hdiffer

end

/-- A difference from a default that is known stays one when others are known too. -/
private theorem Expr.Occurrence.conflict?_or {first? : String → Option Value} {o : Expr.Occurrence}
    {err : CompileError} (h : o.conflict? first? = some err) (more? : String → Option Value) :
    o.conflict? (fun name => (first? name).or (more? name)) = some err := by
  unfold conflict? at h ⊢
  cases hfirst : first? o.name with
  | none => cases o.default <;> simp [hfirst] at h
  | some first =>
    rw [hfirst] at h
    simpa [hfirst] using h

namespace Variables

/-- The names that are collected are those that were there, and the new ones in the order in which
they first appear. -/
private theorem names_kinds_add {vs vs' : Variables} {os : List Expr.Occurrence}
    (h : vs.add os = .ok vs') :
    vs'.kinds.names = vs.kinds.names ++
      ((os.map (·.name)).filter fun name => decide (name ∉ vs.kinds.names)).eraseDups := by
  induction os generalizing vs with
  | nil =>
    rw [← Except.ok.inj h]
    simp
  | cons o os ih =>
    rw [add] at h
    split at h
    · cases h
    · rw [ih h, List.map_cons]
      unfold addKind
      split
      · rename_i hcontains
        have hmem : o.name ∈ vs.kinds.names :=
          Dict.mem_names_iff.mpr (Option.isSome_iff_exists.mp hcontains)
        rw [List.filter_cons_of_neg (by simpa using hmem)]
      · rename_i hcontains
        have hnew : o.name ∉ vs.kinds.names := fun hmem =>
          hcontains (Option.isSome_iff_exists.mpr (Dict.mem_names_iff.mp hmem))
        rw [Dict.names_insert, if_neg hnew, List.filter_cons_of_pos (by simpa using hnew),
          List.eraseDups_cons, List.filter_filter, List.append_assoc, List.singleton_append]
        refine congrArg (fun names => vs.kinds.names ++ o.name :: List.eraseDups names) ?_
        refine List.filter_congr fun name _ => Bool.eq_iff_iff.mpr ?_
        simp [and_comm]

private theorem addDefault_error_iff {defaults : Dict Value} {o : Expr.Occurrence}
    {err : CompileError} :
    addDefault defaults o = .error err ↔ o.conflict? defaults.get? = some err := by
  unfold addDefault Expr.Occurrence.conflict?
  cases o.default with
  | none => simp
  | some v =>
    cases defaults.get? o.name with
    | none => simp
    | some first =>
      simp only
      split <;> simp

/-- A reference that is not refused does not differ from the first default for its variable, unless
its default differs from itself. -/
private theorem conflict?_eq_none {vs : Variables} {o : Expr.Occurrence} {os : List Expr.Occurrence}
    (hself : ∀ v, o.default = some v → v.equals v = true) {defaults : Dict Value}
    (h : addDefault vs.defaults o = .ok defaults) :
    o.conflict? (fun name => (vs.defaults.get? name).or (Expr.firstDefault? name (o :: os))) =
      none := by
  unfold addDefault at h
  unfold Expr.Occurrence.conflict?
  cases hdefault : o.default with
  | none => rfl
  | some v =>
    simp only [hdefault] at h
    cases hget : vs.defaults.get? o.name with
    | none => simp [Expr.firstDefault?, hdefault, hget, hself v hdefault]
    | some first =>
      simp only [hget] at h
      split at h
      · rename_i hequals
        simp [hget, hequals]
      · cases h

/-- Collecting stops at the first reference whose default differs from the first default for its
variable; a default that differs from itself would stop it too. -/
theorem add_error_iff {vs : Variables} {os : List Expr.Occurrence}
    (hself : ∀ o ∈ os, ∀ v, o.default = some v → v.equals v = true) {err : CompileError} :
    vs.add os = .error err ↔
      os.findSome? (Expr.Occurrence.conflict? fun name =>
        (vs.defaults.get? name).or (Expr.firstDefault? name os)) = some err := by
  induction os generalizing vs with
  | nil => simp [add]
  | cons o os ih =>
    obtain ⟨hfirst, hothers⟩ := List.forall_mem_cons.mp hself
    rw [add, List.findSome?_cons]
    cases hadd : addDefault vs.defaults o with
    | error err' =>
      rw [Expr.Occurrence.conflict?_or (addDefault_error_iff.mp hadd) _]
      simp
    | ok defaults =>
      -- what was collected before the other references is known, or given at this one
      have hknown : (fun name => (vs.defaults.get? name).or (Expr.firstDefault? name (o :: os))) =
          fun name => (defaults.get? name).or (Expr.firstDefault? name os) := by
        funext name
        rw [get?_addDefault hadd, Option.or_assoc, Expr.firstDefault?]
      rw [conflict?_eq_none hfirst hadd, hknown]
      exact ih hothers

end Variables

/-- The first reference that is refused is the first one whose default differs. -/
private theorem firstConflict_iff {os : List Expr.Occurrence} {err : CompileError} :
    os.findSome? (Expr.Occurrence.conflict? fun name => Expr.firstDefault? name os) = some err ↔
      ∃ o first v, FirstConflict os o first v ∧
        err = ⟨.conflictingDefaults o.name first v, o.offset⟩ := by
  rw [List.findSome?_eq_some_iff]
  simp only [Expr.Occurrence.conflict?_eq_some_iff, Expr.Occurrence.conflict?_eq_none_iff,
    firstDefault?_eq_some_iff, FirstConflict]
  constructor
  · rintro ⟨before, o, after, hos, ⟨first, v, hfirst, hv, hdiffer, herr⟩, hbefore⟩
    exact ⟨o, first, v, ⟨before, after, hos, hfirst, hv, hdiffer, hbefore⟩, herr⟩
  · rintro ⟨o, first, v, ⟨before, after, hos, hfirst, hv, hdiffer, hbefore⟩, herr⟩
    exact ⟨before, o, after, hos, ⟨first, v, hfirst, hv, hdiffer, herr⟩, hbefore⟩

/-- Where defaults are single and finite, one of them differs from the first one for its variable
exactly when two of one variable differ. -/
private theorem exists_firstConflict_iff {os : List Expr.Occurrence}
    (hdefaults : ∀ o ∈ os, ∀ v, o.default = some v → v.isList = false ∧ v.isFinite = true) :
    (∃ o first v, FirstConflict os o first v) ↔
      ∃ o ∈ os, ∃ p ∈ os, o.name = p.name ∧
        ∃ v w, o.default = some v ∧ p.default = some w ∧ v.equals w = false := by
  constructor
  · rintro ⟨o, first, v, before, after, rfl, ⟨before', p, after', hos, hname, hfirst, -⟩, hv,
      hdiffer, -⟩
    refine ⟨p, ?_, o, List.mem_append_right _ List.mem_cons_self, hname, first, v, hfirst, hv,
      hdiffer⟩
    rw [hos]
    exact List.mem_append_right _ List.mem_cons_self
  · rintro ⟨o, ho, p, hp, hname, v, w, hv, hw, hdiffer⟩
    by_contra hnone
    -- all defaults of the variable equal the first one, hence each other
    have hagree : ∀ q ∈ os, ∀ first u, Expr.firstDefault? q.name os = some first →
        q.default = some u → first.equals u = true := by
      have hsome : os.findSome? (Expr.Occurrence.conflict? fun name =>
          Expr.firstDefault? name os) = none := by
        refine Option.eq_none_iff_forall_ne_some.mpr fun err herr => ?_
        obtain ⟨q, first, u, hconflict, -⟩ := firstConflict_iff.mp herr
        exact hnone ⟨q, first, u, hconflict⟩
      exact fun q hq => Expr.Occurrence.conflict?_eq_none_iff.mp
        (List.findSome?_eq_none_iff.mp hsome q hq)
    obtain ⟨first, hfirst⟩ := exists_firstDefault? ho hv
    obtain ⟨q, hq, -, hgiven⟩ := Expr.exists_occurrence_of_firstDefault? hfirst
    obtain ⟨hsingle, hfinite⟩ := hdefaults q hq first hgiven
    have hfinite_v := (hdefaults o ho v hv).2
    have hfinite_w := (hdefaults p hp w hw).2
    have hequals_v := hagree o ho first v hfirst hv
    have hequals_w := hagree p hp first w (hname ▸ hfirst) hw
    have hback := Value.equals_symm hsingle hfinite hfinite_v hequals_v
    rw [Value.equals_trans (hdefaults o ho v hv).1 hfinite_v hfinite hfinite_w hback hequals_w]
      at hdiffer
    cases hdiffer

/-! ### Formulas -/

/-- What a formula knows of its variables is what the references in some order say: the code loads
them in this order, which is that of the text; the loaded variables are listed in the order of their
first loads, with the kinds that they have in the scope; and they have the first defaults that are
given, of these kinds. -/
structure Formula.Lists (f : Formula) (scope : Scope) (os : List Expr.Occurrence) : Prop where
  /-- The loads of the code are the references. -/
  loads : f.loads = os.map Expr.Occurrence.load
  /-- Each is behind the one before it in the text. -/
  ordered : (f.loads.map Load.offset).Pairwise (· < ·)
  /-- No variable is listed twice. -/
  nodup : f.kinds.names.Nodup
  /-- The variables are listed in the order of their first loads. -/
  names : f.kinds.names = (f.loads.map Load.name).eraseDups
  /-- The listed kinds are those of the scope, for the loaded variables only. -/
  kind : ∀ name, f.kinds.get? name =
    if name ∈ f.loads.map Load.name then scope.types.get? name else none
  /-- Each load has the kind that is listed. -/
  declared : ∀ l ∈ f.loads, f.kinds.get? l.name = some l.kind
  /-- A default is the one that the first reference with a default gives. -/
  default : ∀ name v, f.defaults.get? name = some v ↔ FirstDefault name v os
  /-- A default is of the scalar kind of a listed variable. -/
  scalar : ∀ name v, f.defaults.get? name = some v →
    ∃ kind, f.kinds.get? name = some (.scalar kind) ∧ v.kind = .scalar kind

section

variable {scope : Scope} {text : String} {e : Expr}

private theorem Typed.isFinite_of_default {a : Phrase} (h : Typed scope a e) {o : Expr.Occurrence}
    (ho : o ∈ e.occurrences) {v : Value} (hv : o.default = some v) :
    v.isList = false ∧ v.isFinite = true := by
  obtain ⟨kind, text, -, hread⟩ := h.exists_readDefault? ho hv
  exact ⟨isList_of_readDefault? hread, isFinite_of_readDefault? hread⟩

private theorem Formula.loads_of_ofExpr {f : Formula} (h : ofExpr text e = .ok f) :
    f.loads = e.occurrences.map Expr.Occurrence.load := by
  obtain ⟨vs, -, rfl⟩ := ofExpr_ok_iff.mp h
  exact e.loads_code

/-- What a compiled formula knows of its variables is what the references of its tree say. -/
theorem Formula.lists_of_ofExpr (hparse : parseFormula scope text = .ok e) {f : Formula}
    (h : ofExpr text e = .ok f) : f.Lists scope e.occurrences := by
  obtain ⟨-, a, -, hty, -⟩ := exists_phrase_of_parseFormula hparse
  have hloads := loads_of_ofExpr h
  have hnames : f.loads.map Load.name = e.occurrences.map (·.name) := by
    rw [hloads, List.map_map]
    rfl
  have hdefaults := get?_defaults_of_ofExpr h
  refine ⟨hloads, ?_, f.kinds.nodup, ?_, fun name => ?_, ?_, ?_, ?_⟩
  · rw [hloads, List.map_map]
    exact (offsets_of_parseFormula hparse).2.sublist e.sublist_offsets
  · obtain ⟨vs, hadd, rfl⟩ := ofExpr_ok_iff.mp h
    rw [hnames, Variables.names_kinds_add hadd]
    simp [Variables.empty, Dict.names, Dict.empty]
  · refine Option.ext fun kind => ?_
    rw [get?_kinds_iff h hty, ← List.mem_map, ← hnames]
    split
    · rename_i hmem
      exact and_iff_right hmem
    · rename_i hmem
      exact iff_of_false (fun hlisted => hmem hlisted.1) (Option.some_ne_none kind).symm
  · rw [hloads]
    exact List.forall_mem_map.mpr fun o ho => get?_kinds_of_mem_occurrences h hty ho
  · intro name v
    rw [hdefaults, Expr.default?, firstDefault?_eq_some_iff]
  · intro name v hv
    rw [hdefaults] at hv
    obtain ⟨o, ho, rfl, hdefault⟩ := Expr.exists_occurrence_of_firstDefault? hv
    obtain ⟨kind, text, hkind, hread⟩ := hty.exists_readDefault? ho hdefault
    exact ⟨kind, (get?_kinds_iff h hty).mpr ⟨⟨o, ho, rfl⟩, hkind⟩, kind_of_readDefault? hread⟩

private theorem CompileCause.exists_message_conflictingDefaults (name : String) (first v : Value) :
    ∃ more, (conflictingDefaults name first v).message = "Conflicting defaults" ++ more := by
  have hbegin : "Conflicting defaults for " = "Conflicting defaults" ++ " for " := by decide
  have hmessage : (conflictingDefaults name first v).message =
      "Conflicting defaults for " ++ referenceText name ++ ": " ++ first.text ++ " and " ++
        v.text := rfl
  rw [hmessage, hbegin]
  simp only [String.append_assoc]
  exact ⟨_, rfl⟩

/-- A text with a tree is refused exactly where the first default stands that differs from the first
one for its variable. -/
theorem Formula.compile_error_iff (hparse : parseFormula scope text = .ok e) {err : CompileError} :
    compile scope text = .error err ↔ ∃ o first v, FirstConflict e.occurrences o first v ∧
      err = ⟨.conflictingDefaults o.name first v, o.offset⟩ := by
  obtain ⟨-, a, -, hty, -⟩ := exists_phrase_of_parseFormula hparse
  have hself : ∀ o ∈ e.occurrences, ∀ v, o.default = some v → v.equals v = true := by
    intro o ho v hv
    obtain ⟨hsingle, hfinite⟩ := hty.isFinite_of_default ho hv
    exact Value.equals_self hsingle hfinite
  have hadd : compile scope text = .error err ↔
      Variables.empty.add e.occurrences = .error err := by
    rw [compile, hparse]
    simp only [ofExpr]
    cases Variables.empty.add e.occurrences <;> simp
  rw [hadd, Variables.add_error_iff hself, ← firstConflict_iff]
  simp only [Variables.empty, Dict.get?_empty, Option.none_or]

end

/-- What a compiled formula knows of its variables is what the references of the text say. A text
with a tree is refused exactly when two defaults of one variable differ, with a complaint about
conflicting defaults at the first reference whose default differs from the first one for its
variable. -/
theorem Formula.compile_of_references (scope : Scope) (text : String) :
    (∀ f, compile scope text = .ok f →
      ∃ e, parseFormula scope text = .ok e ∧ f.Lists scope e.occurrences) ∧
    ∀ e, parseFormula scope text = .ok e →
      List.Forall₂ (Denotes scope) (writtenReferences text) e.occurrences ∧
      (e.occurrences.map Expr.Occurrence.offset).Pairwise (· < ·) ∧
      ((∃ err, compile scope text = .error err) ↔
        ∃ o ∈ e.occurrences, ∃ p ∈ e.occurrences, o.name = p.name ∧
          ∃ v w, o.default = some v ∧ p.default = some w ∧ v.equals w = false) ∧
      ∀ err, compile scope text = .error err →
        (∃ more, err.message = "Conflicting defaults" ++ more) ∧
        ∃ o first v, FirstConflict e.occurrences o first v ∧
          err = ⟨.conflictingDefaults o.name first v, o.offset⟩ := by
  refine ⟨fun f hcompile => ?_, fun e hparse => ⟨denotes_of_parseFormula hparse, ?_, ?_, ?_⟩⟩
  · obtain ⟨e, hparse, hof⟩ := compile_ok_iff.mp hcompile
    exact ⟨e, hparse, lists_of_ofExpr hparse hof⟩
  · exact (offsets_of_parseFormula hparse).2.sublist e.sublist_offsets
  · obtain ⟨-, a, -, hty, -⟩ := exists_phrase_of_parseFormula hparse
    rw [← exists_firstConflict_iff fun o ho v hv => hty.isFinite_of_default ho hv]
    simp only [compile_error_iff hparse]
    constructor
    · rintro ⟨err, o, first, v, hconflict, -⟩
      exact ⟨o, first, v, hconflict⟩
    · rintro ⟨o, first, v, hconflict⟩
      exact ⟨_, o, first, v, hconflict, rfl⟩
  · intro err herr
    have hconflict := (compile_error_iff hparse).mp herr
    refine ⟨?_, hconflict⟩
    obtain ⟨o, first, v, -, rfl⟩ := hconflict
    exact CompileCause.exists_message_conflictingDefaults o.name first v

/-- A variable may be given its default more than once, also behind other references to it; a third
default that differs is refused where it stands. -/
theorem Formula.compile_of_references_of_repeated :
    let scope : Scope := ⟨Dict.ofList [("x", .float), ("y", .integer)], Registry.empty⟩
    (∃ f e, compile scope "=$y + $x + ${x:2} + ${x:2.0}" = .ok f ∧
      parseFormula scope "=$y + $x + ${x:2} + ${x:2.0}" = .ok e ∧ f.Lists scope e.occurrences ∧
      f.kinds.names = ["y", "x"] ∧ f.defaults.get? "x" = some (.float (.plain 2))) ∧
    ∃ e err, parseFormula scope "=$x + ${x:2} + ${x:2.0} + ${x:3}" = .ok e ∧
      compile scope "=$x + ${x:2} + ${x:2.0} + ${x:3}" = .error err ∧ err.offset = 26 ∧
      ∃ o first v, FirstConflict e.occurrences o first v ∧
        err = ⟨.conflictingDefaults o.name first v, o.offset⟩ := by
  intro scope
  constructor
  · have hvalue : (compile scope "=$y + $x + ${x:2} + ${x:2.0}").toOption.map
        (fun f => (f.kinds.names, f.defaults.get? "x")) =
          some (["y", "x"], some (.float (.plain 2))) := by
      decide +kernel
    cases hcompile : compile scope "=$y + $x + ${x:2} + ${x:2.0}" with
    | error err => simp [hcompile, Except.toOption] at hvalue
    | ok f =>
      obtain ⟨hnames, hdefault⟩ : f.kinds.names = ["y", "x"] ∧
          f.defaults.get? "x" = some (.float (.plain 2)) := by
        simpa [hcompile, Except.toOption] using hvalue
      obtain ⟨e, hparse, hlists⟩ := (compile_of_references scope _).1 f hcompile
      exact ⟨f, e, rfl, hparse, hlists, hnames, hdefault⟩
  · have herror : (compile scope "=$x + ${x:2} + ${x:2.0} + ${x:3}").map (fun _ => ()) =
        .error ⟨.conflictingDefaults "x" (.float (.plain 2)) (.float (.plain 3)), 26⟩ := by
      decide +kernel
    have htree : (parseFormula scope "=$x + ${x:2} + ${x:2.0} + ${x:3}").isOk = true := by
      decide +kernel
    cases hparse : parseFormula scope "=$x + ${x:2} + ${x:2.0} + ${x:3}" with
    | error err => simp [hparse, Except.isOk, Except.toBool] at htree
    | ok e =>
      cases hcompile : compile scope "=$x + ${x:2} + ${x:2.0} + ${x:3}" with
      | ok f => simp [hcompile, Except.map] at herror
      | error err =>
        obtain rfl : err = _ := by simpa [hcompile, Except.map] using herror
        have hconflict := ((compile_of_references scope _).2 e hparse).2.2.2 _ hcompile
        exact ⟨e, _, rfl, rfl, rfl, hconflict.2⟩

end TypedFormula
