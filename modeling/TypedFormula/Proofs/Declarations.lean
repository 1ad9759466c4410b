import TypedFormula.Proofs.Kinds

/-!
# Formulas depend on the kinds of their own variables

Reading and typing look into the declarations only where a formula refers to a variable. So a text
that is a formula under some declarations is the same formula under all others in which its own
variables have the same kinds, whatever these say of other names.

A compiled formula lists its variables with their kinds. The list is complete: every reference of
the tree is in it under its kind (`Formula.get?_kinds_of_mem_occurrences`), because a name has one
kind in a scope and the first reference to a name decides. Declarations that agree with the list
therefore agree with every reference.

Main statements:

* `parseFormula_of_kinds` — a text has the same tree under declarations that agree on its variables;
* `Formula.compile_of_matchesTypes` — a compiled formula that fits other declarations is what its
  text compiles to under them.
-/

namespace TypedFormula

/-! ### Trees -/

section

variable {scope : Scope} {a : Phrase} {e : Expr}

/-- A phrase is the same expression under declarations in which the variables of the expression
have the kinds of its references. -/
private theorem Typed.of_kinds (h : Typed scope a e) {types : Declarations}
    (hkinds : ∀ o ∈ e.occurrences, types.get? o.name = some o.kind) :
    Typed ⟨types, scope.functions⟩ a e := by
  induction h with
  | number offset x => exact .number offset x
  | string offset s => exact .string offset s
  | boolean offset b => exact .boolean offset b
  | reference offset hkind hdefault =>
    exact .reference offset (hkinds _ (List.mem_singleton.mpr rfl)) hdefault
  | parens h ih => exact .parens (ih hkinds)
  | call offset hlen h hf hkind ih =>
    refine .call offset hlen (fun q hq => ih q hq fun o ho => hkinds o ?_) hf hkind
    exact Expr.mem_allOccurrences.mpr ⟨q.2, (List.of_mem_zip hq).2, ho⟩
  | sign offset h hkind ih => exact .sign offset (ih hkinds) hkind
  | binary offset hleft hright htakes htakes' ihleft ihright =>
    refine .binary offset (ihleft fun o ho => hkinds o ?_) (ihright fun o ho => hkinds o ?_)
      htakes htakes'
    · exact List.mem_append_left _ ho
    · exact List.mem_append_right _ ho

end

/-- A text has the same tree under declarations that agree on its variables. -/
theorem parseFormula_of_kinds {types types' : Declarations} {functions : Registry} {text : String}
    {e : Expr} (h : parseFormula ⟨types, functions⟩ text = .ok e)
    (hkinds : ∀ o ∈ e.occurrences, types'.get? o.name = some o.kind) :
    parseFormula ⟨types', functions⟩ text = .ok e := by
  obtain ⟨start, rest, tokens, stop, a, hblanks, htokens, hder, hty, hneed⟩ :=
    parseFormula_ok_iff.mp h
  exact parseFormula_ok_iff.mpr
    ⟨start, rest, tokens, stop, a, hblanks, htokens, hder, hty.of_kinds hkinds, hneed⟩

/-! ### Listed variables -/

namespace Variables

/-- One more reference gives its kind to a variable that has none. -/
private theorem get?_addKind (kinds : Dict Kind) (o : Expr.Occurrence) (name : String) :
    (addKind kinds o).get? name =
      (kinds.get? name).or (if o.name = name then some o.kind else none) := by
  unfold addKind
  rw [Dict.contains]
  cases hget : kinds.get? o.name with
  | none =>
    rw [if_neg (by simp), Dict.get?_insert]
    by_cases hname : name = o.name
    · simp [hname, hget]
    · simp [hname, Ne.symm hname]
  | some kind =>
    rw [if_pos (by simp)]
    by_cases hname : o.name = name
    · simp [← hname, hget]
    · simp [hname]

/-- The kinds collected from references are those that were there, and for the other variables
those of their first references. -/
private theorem get?_kinds_add {vs vs' : Variables} {os : List Expr.Occurrence}
    (h : vs.add os = .ok vs') (name : String) :
    vs'.kinds.get? name =
      (vs.kinds.get? name).or ((os.find? fun o => decide (o.name = name)).map (·.kind)) := by
  induction os generalizing vs with
  | nil =>
    rw [← Except.ok.inj h]
    simp
  | cons o os ih =>
    rw [add] at h
    split at h
    · cases h
    · rename_i defaults hadd
      rw [ih h, get?_addKind, Option.or_assoc]
      by_cases hname : o.name = name <;> simp [hname]

end Variables

namespace Formula

variable {scope : Scope} {text : String} {f : Formula} {e : Expr}

/-- Every reference of the tree of a formula is listed under its kind. -/
theorem get?_kinds_of_mem_occurrences {a : Phrase} (h : ofExpr text e = .ok f)
    (hty : Typed scope a e) {o : Expr.Occurrence} (ho : o ∈ e.occurrences) :
    f.kinds.get? o.name = some o.kind := by
  obtain ⟨vs, hadd, rfl⟩ := ofExpr_ok_iff.mp h
  have hsome : (e.occurrences.find? fun p => decide (p.name = o.name)).isSome :=
    List.find?_isSome.mpr ⟨o, ho, decide_eq_true rfl⟩
  obtain ⟨first, hfirst⟩ := Option.isSome_iff_exists.mp hsome
  -- the first reference to the name has the kind that the name has in the scope
  have hname : first.name = o.name := by
    simpa using List.find?_some hfirst
  have hkind := (hty.of_mem_occurrences (List.mem_of_find?_eq_some hfirst)).1
  rw [hname, (hty.of_mem_occurrences ho).1] at hkind
  rw [Variables.get?_kinds_add hadd, hfirst]
  exact hkind.symm

/-- A variable is listed under a kind exactly when the tree refers to it and it has this kind in the
scope. -/
theorem get?_kinds_iff {a : Phrase} (h : ofExpr text e = .ok f) (hty : Typed scope a e)
    {name : String} {kind : Kind} :
    f.kinds.get? name = some kind ↔
      (∃ o ∈ e.occurrences, o.name = name) ∧ scope.types.get? name = some kind := by
  constructor
  · intro hget
    obtain ⟨vs, hadd, rfl⟩ := ofExpr_ok_iff.mp h
    rw [Variables.get?_kinds_add hadd, Variables.empty, Dict.get?_empty, Option.none_or,
      Option.map_eq_some_iff] at hget
    obtain ⟨o, hfind, rfl⟩ := hget
    have hname : o.name = name := by simpa using List.find?_some hfind
    have ho := List.mem_of_find?_eq_some hfind
    exact ⟨⟨o, ho, hname⟩, hname ▸ (hty.of_mem_occurrences ho).1⟩
  · rintro ⟨⟨o, ho, rfl⟩, hkind⟩
    rw [get?_kinds_of_mem_occurrences h hty ho, ← hkind]
    exact (hty.of_mem_occurrences ho).1.symm

private theorem get?_of_matchesTypes {a : Phrase} (h : ofExpr text e = .ok f)
    (hty : Typed scope a e) {types : Declarations} (hmatch : f.matchesTypes types = true)
    {o : Expr.Occurrence} (ho : o ∈ e.occurrences) : types.get? o.name = some o.kind :=
  matchesTypes_iff.mp hmatch (o.name, o.kind)
    (Dict.get?_eq_some_iff.mp (get?_kinds_of_mem_occurrences h hty ho))

/-- A compiled formula that fits other declarations is what its text compiles to under them. -/
theorem compile_of_matchesTypes {types types' : Declarations} {functions : Registry}
    (h : compile ⟨types, functions⟩ text = .ok f) (hmatch : f.matchesTypes types' = true) :
    compile ⟨types', functions⟩ text = .ok f := by
  obtain ⟨e, hparse, hof⟩ := compile_ok_iff.mp h
  obtain ⟨-, a, -, hty, -⟩ := exists_phrase_of_parseFormula hparse
  refine compile_ok_iff.mpr ⟨e, parseFormula_of_kinds hparse fun o ho => ?_, hof⟩
  exact get?_of_matchesTypes hof hty hmatch ho

end Formula

end TypedFormula
