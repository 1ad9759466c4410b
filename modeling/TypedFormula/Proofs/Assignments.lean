import Mathlib.Data.List.Induction
import TypedFormula.Command
import TypedFormula.Proofs.Failures
import TypedFormula.Proofs.Positions.Reports

/-!
# Where the variables of the command come from

A file, then the variables that are given with values, then those that are declared without values:
in this order every place that mentions a variable (`Mention`) takes the variable over from the
places before it. The last mention of a name settles its kind and its value together
(`Assignment.Follows`), so that the two dictionaries of an assignment have the same names, and a
value always has the kind that stands beside it.

The file is read into a dictionary first, which forgets the order of its members, and a value is
converted only where no later member of the file has the same name. Neither changes what the last
mention is.

Main statements:

* `lastNamed?_bindings` — a file says of a name what its last member of this name says;
* `VariableSources.exists_follows` — an assignment follows the mentions of its sources;
* `assignment_follows_mentions` — and so no variable of the command is bound to a value of another
  kind than declared.
-/

namespace TypedFormula

/-! ### The last of a name -/

/-- The last member of a list that has a name. -/
def lastNamed? {α : Type} (nameOf : α → String) (name : String) (xs : List α) : Option α :=
  xs.reverse.find? fun x => decide (nameOf x = name)

section

variable {α β : Type} {nameOf : α → String} {name : String} {x : α} {xs ys : List α}

private theorem lastNamed?_append (nameOf : α → String) (name : String) (xs ys : List α) :
    lastNamed? nameOf name (xs ++ ys) =
      (lastNamed? nameOf name ys).or (lastNamed? nameOf name xs) := by
  rw [lastNamed?, List.reverse_append, List.find?_append]
  rfl

private theorem lastNamed?_singleton (nameOf : α → String) (name : String) (x : α) :
    lastNamed? nameOf name [x] = if nameOf x = name then some x else none := by
  rw [lastNamed?, List.reverse_singleton, List.find?_singleton]
  exact ite_congr decide_eq_true_eq (fun _ => rfl) fun _ => rfl

private theorem mem_of_lastNamed? (h : lastNamed? nameOf name xs = some x) :
    x ∈ xs ∧ nameOf x = name := by
  have hname := List.find?_some (p := fun y => decide (nameOf y = name)) h
  exact ⟨List.mem_reverse.mp (List.mem_of_find?_eq_some h), of_decide_eq_true hname⟩

private theorem lastNamed?_eq_none_iff :
    lastNamed? nameOf name xs = none ↔ ∀ y ∈ xs, nameOf y ≠ name := by
  rw [lastNamed?, List.find?_eq_none]
  constructor
  · exact fun h y hy hname => h y (List.mem_reverse.mpr hy) (decide_eq_true hname)
  · exact fun h y hy hname => h y (List.mem_reverse.mp hy) (of_decide_eq_true hname)

/-- Where every name comes once, the last one of a name is the only one. -/
private theorem lastNamed?_eq_some_iff (h : (xs.map nameOf).Nodup) :
    lastNamed? nameOf name xs = some x ↔ x ∈ xs ∧ nameOf x = name := by
  refine ⟨mem_of_lastNamed?, ?_⟩
  rintro ⟨hmem, hname⟩
  obtain ⟨before, behind, rfl⟩ := List.append_of_mem hmem
  rw [List.map_append, List.map_cons, List.nodup_append, List.nodup_cons] at h
  have hnone : lastNamed? nameOf name behind = none := by
    refine List.find?_eq_none.mpr fun y hy hyname => h.2.1.1 ?_
    rw [hname, ← of_decide_eq_true hyname]
    exact List.mem_map_of_mem (List.mem_reverse.mp hy)
  rw [List.append_cons, lastNamed?_append, hnone, lastNamed?_append, lastNamed?_singleton,
    if_pos hname]
  rfl

private theorem lastNamed?_map {nameOf' : β → String} {f : β → α}
    (hf : ∀ b, nameOf (f b) = nameOf' b) (name : String) (bs : List β) :
    lastNamed? nameOf name (bs.map f) = (lastNamed? nameOf' name bs).map f := by
  rw [lastNamed?, ← List.map_reverse, List.find?_map, lastNamed?]
  refine congrArg (Option.map f) (congrArg (bs.reverse.find? ·) (funext fun b => ?_))
  exact congrArg (fun n => decide (n = name)) (hf b)

/-- A dictionary that is filled from left to right has the last value of every name. -/
private theorem Dict.get?_ofList (pairs : List (String × α)) (name : String) :
    (Dict.ofList pairs).get? name = (lastNamed? Prod.fst name pairs).map Prod.snd := by
  have hfold : ∀ d : Dict α,
      (pairs.foldl (fun d pair => d.insert pair.1 pair.2) d).get? name =
        ((lastNamed? Prod.fst name pairs).map Prod.snd).or (d.get? name) := by
    induction pairs with
    | nil => exact fun d => rfl
    | cons pair pairs ih =>
      intro d
      rw [List.foldl_cons, ih, Dict.get?_insert, ← List.singleton_append, lastNamed?_append,
        lastNamed?_singleton]
      cases lastNamed? Prod.fst name pairs with
      | some last => rfl
      | none =>
        by_cases h : name = pair.1
        · rw [if_pos h, if_pos h.symm]
          rfl
        · rw [if_neg h, if_neg (Ne.symm h)]
          rfl
  rw [Dict.ofList, hfold Dict.empty]
  exact Option.or_none

end

/-! ### Mentions -/

deriving instance DecidableEq for FileEntry

/-- A place that declares a variable. -/
inductive Mention where
  /-- A member of a file. -/
  | inFile (name : String) (entry : FileEntry)
  /-- A name and a kind with the text of a value. -/
  | given (name : String) (kind : Kind) (text : List Char)
  /-- A name and a kind alone. -/
  | unset (name : String) (kind : Kind)
deriving DecidableEq

namespace Mention

/-- The name of the variable. -/
def name : Mention → String
  | inFile name _ => name
  | given name _ _ => name
  | unset name _ => name

/-- The kind of the variable. -/
def kind : Mention → Kind
  | inFile _ entry => entry.kind
  | given _ kind _ => kind
  | unset _ kind => kind

/-- The value of the variable or that it has none, unless what is said does not fit the kind. -/
def value : Mention → Except ValueFault (Option Value)
  | inFile _ entry =>
    match entry.value with
    | none => .ok none
    | some v => (fitValue entry.kind v).map some
  | given _ kind text => (givenValue kind text).map some
  | unset _ _ => .ok none

/-- A value has the kind that it is mentioned with. -/
private theorem kind_of_value {m : Mention} {v : Value} (h : m.value = .ok (some v)) :
    v.kind = m.kind := by
  cases m with
  | inFile name entry =>
    rw [value] at h
    cases hentry : entry.value with
    | none =>
      rw [hentry] at h
      cases h
    | some w =>
      simp only [hentry] at h
      cases hfit : fitValue entry.kind w with
      | error fault =>
        rw [hfit] at h
        cases h
      | ok u =>
        rw [hfit] at h
        obtain rfl := Option.some.inj (Except.ok.inj h)
        exact kind_of_fitValue hfit
  | given name kind text =>
    rw [value] at h
    cases hgiven : givenValue kind text with
    | error fault =>
      rw [hgiven] at h
      cases h
    | ok u =>
      rw [hgiven] at h
      obtain rfl := Option.some.inj (Except.ok.inj h)
      exact kind_of_givenValue hgiven
  | unset name kind => cases Except.ok.inj h

/-- A definition is what a mention says. -/
structure Gives (m : Mention) (d : Definition) : Prop where
  /-- The name is the same. -/
  name : m.name = d.name
  /-- The kind is the same. -/
  kind : m.kind = d.kind
  /-- The value fits the kind and is the same. -/
  value : m.value = .ok d.value

end Mention

/-- The mention that a text `NAME:KIND=VALUE` is. -/
def givenMention? (text : String) : Option Mention :=
  match splitAtFirst? '=' text.toList with
  | none => none
  | some (declaration, given) =>
    match declared declaration with
    | .error _ => none
    | .ok (name, kind) => some (.given name kind given)

/-- The mention that a text `NAME:KIND` is. -/
def unsetMention? (text : String) : Option Mention :=
  match declared text.toList with
  | .error _ => none
  | .ok (name, kind) => some (.unset name kind)

/-- The members of the object that a text holds, in order. -/
def readEntries? [JsonReader] (text : String) : Option (List (String × FileEntry)) :=
  match JsonReader.tree? text.toList with
  | some (.object members) =>
    match readMemberNames? members with
    | none => none
    | some members =>
      members.mapM fun m => (FileEntry.ofJson? m.2).map fun e => (String.ofList m.1, e)
  | _ => none

/-- The mentions in a file, in order. -/
def fileMentions? [JsonReader] : Option SourceFile → Option (List Mention)
  | none => some []
  | some file =>
    match file.contents with
    | .error _ => none
    | .ok text => (readEntries? text).map fun entries => entries.map fun e => .inFile e.1 e.2

/-- All mentions of variables, in order. -/
def VariableSources.mentions? [JsonReader] (s : VariableSources) : Option (List Mention) := do
  let fromFile ← fileMentions? s.file
  let given ← s.given.mapM givenMention?
  let unset ← s.unset.mapM unsetMention?
  return fromFile ++ given ++ unset

/-! ### What settles a name -/

/-- The last definition of every name is what the last mention of the name gives. -/
private def Settles (ms : List Mention) (ds : List Definition) : Prop :=
  ∀ name, (lastNamed? Mention.name name ms).map (fun m => (m.kind, m.value)) =
    (lastNamed? Definition.name name ds).map fun d => (d.kind, .ok d.value)

private theorem settles_nil : Settles [] [] := fun _ => rfl

/-- Later mentions settle what later definitions define. -/
private theorem Settles.append {ms ns : List Mention} {ds es : List Definition} (h : Settles ms ds)
    (h' : Settles ns es) : Settles (ms ++ ns) (ds ++ es) := by
  intro name
  rw [lastNamed?_append, lastNamed?_append, Option.map_or, Option.map_or, h name, h' name]

private theorem Mention.Gives.settles {m : Mention} {d : Definition} (h : m.Gives d) :
    Settles [m] [d] := by
  intro name
  rw [lastNamed?_singleton, lastNamed?_singleton, h.name]
  split
  · rw [Option.map_some, Option.map_some, h.kind, h.value]
  · rfl

/-- A name that is mentioned is defined by what its last mention says. -/
private theorem Settles.exists_lastNamed? {ms : List Mention} {ds : List Definition}
    (h : Settles ms ds) {name : String} {m : Mention}
    (hm : lastNamed? Mention.name name ms = some m) :
    ∃ d, lastNamed? Definition.name name ds = some d ∧ d.kind = m.kind ∧ m.value = .ok d.value := by
  have hsettled := h name
  rw [hm, Option.map_some] at hsettled
  obtain ⟨d, hd, hsame⟩ := Option.map_eq_some_iff.mp hsettled.symm
  obtain ⟨hkind, hvalue⟩ := Prod.mk.inj hsame
  exact ⟨d, hd, hkind, hvalue.symm⟩

private theorem Settles.lastNamed?_eq_none {ms : List Mention} {ds : List Definition}
    (h : Settles ms ds) {name : String} (hm : lastNamed? Mention.name name ms = none) :
    lastNamed? Definition.name name ds = none := by
  have hsettled := h name
  rw [hm] at hsettled
  exact Option.map_eq_none_iff.mp hsettled.symm

/-- Mentions that are read one by one settle the definitions that are read one by one. -/
private theorem exists_settles_of_mapM {α ε : Type} {define : α → Except ε Definition}
    (mention? : α → Option Mention)
    (hgives : ∀ a d, define a = .ok d → ∃ m, mention? a = some m ∧ m.Gives d) {as : List α}
    {ds : List Definition} (h : as.mapM define = .ok ds) :
    ∃ ms, as.mapM mention? = some ms ∧ Settles ms ds := by
  induction as generalizing ds with
  | nil =>
    obtain rfl := Except.ok.inj h
    exact ⟨[], rfl, settles_nil⟩
  | cons a as ih =>
    rw [List.mapM_cons] at h
    cases hd : define a with
    | error e =>
      rw [hd] at h
      cases h
    | ok d =>
      cases hds : as.mapM define with
      | error e =>
        rw [hd, hds] at h
        cases h
      | ok rest =>
        rw [hd, hds] at h
        obtain rfl := Except.ok.inj h
        obtain ⟨m, hm, hmd⟩ := hgives a d hd
        obtain ⟨ms, hms, hsettles⟩ := ih hds
        refine ⟨m :: ms, ?_, hmd.settles.append hsettles⟩
        rw [List.mapM_cons, hm, hms]
        rfl

/-! ### Files -/

/-- The entries of a file are its members, of which later ones count, in the order of the names. -/
theorem readBindings?_eq [JsonReader] (text : String) :
    readBindings? text = (readEntries? text).map fun entries =>
      (Dict.ofList entries).entries.mergeSort fun a b => decide (a.1 ≤ b.1) := by
  rw [readBindings?, readEntries?]
  cases JsonReader.tree? text.toList with
  | none => rfl
  | some json =>
    cases json with
    | object members =>
      simp only
      cases readMemberNames? members <;> rfl
    | _ => rfl

/-- The entries of a file have of every name the last member. -/
theorem lastNamed?_bindings (entries : List (String × FileEntry)) (name : String) :
    lastNamed? Prod.fst name
        ((Dict.ofList entries).entries.mergeSort fun a b => decide (a.1 ≤ b.1)) =
      lastNamed? Prod.fst name entries := by
  have hperm := List.mergeSort_perm (Dict.ofList entries).entries fun a b => decide (a.1 ≤ b.1)
  have hnodup := ((hperm.map Prod.fst).nodup_iff).mpr (Dict.ofList entries).nodup
  refine Option.ext fun p => ?_
  have hget : (Dict.ofList entries).get? name = some p.2 ∧ p.1 = name ↔
      lastNamed? Prod.fst name entries = some p := by
    rw [Dict.get?_ofList, Option.map_eq_some_iff]
    constructor
    · rintro ⟨⟨q, hq, hvalue⟩, hname⟩
      have hsame : q = p := Prod.ext ((mem_of_lastNamed? hq).2.trans hname.symm) hvalue
      rw [hq, hsame]
    · intro hp
      exact ⟨⟨p, hp, rfl⟩, (mem_of_lastNamed? hp).2⟩
  rw [lastNamed?_eq_some_iff hnodup, hperm.mem_iff, ← hget, Dict.get?_eq_some_iff]
  constructor
  · rintro ⟨hmem, rfl⟩
    exact ⟨hmem, rfl⟩
  · rintro ⟨hmem, rfl⟩
    exact ⟨hmem, rfl⟩

/-- An entry of a file is what the definition of the entry says. -/
private theorem gives_of_fileDefinition {entry : String × FileEntry} {d : Definition}
    (h : fileDefinition entry = .ok d) : (Mention.inFile entry.1 entry.2).Gives d := by
  rw [fileDefinition] at h
  cases hvalue : entry.2.value with
  | none =>
    rw [hvalue] at h
    obtain rfl := Except.ok.inj h
    exact ⟨rfl, rfl, by rw [Mention.value, hvalue]⟩
  | some v =>
    rw [hvalue] at h
    cases hfit : fitValue entry.2.kind v with
    | error fault =>
      simp only [hfit] at h
      cases h
    | ok w =>
      simp only [hfit] at h
      obtain rfl := Except.ok.inj h
      refine ⟨rfl, rfl, ?_⟩
      rw [Mention.value, hvalue]
      simp only [hfit]
      rfl

/-- The members of a file, of which the dictionary of the file keeps the last ones, settle what the
entries of the dictionary define. -/
private theorem settles_inFile {entries : List (String × FileEntry)} {ds : List Definition}
    (h : ((Dict.ofList entries).entries.mergeSort fun a b => decide (a.1 ≤ b.1)).mapM
      fileDefinition = .ok ds) :
    Settles (entries.map fun e => .inFile e.1 e.2) ds := by
  have hmap : ∀ (name : String) (es : List (String × FileEntry)),
      lastNamed? Mention.name name (es.map fun e => .inFile e.1 e.2) =
        (lastNamed? Prod.fst name es).map fun e => .inFile e.1 e.2 :=
    fun name es => lastNamed?_map (fun _ => rfl) name es
  obtain ⟨ms, hms, hsettles⟩ := exists_settles_of_mapM (fun e => some (Mention.inFile e.1 e.2))
    (fun e d hd => ⟨_, rfl, gives_of_fileDefinition hd⟩) h
  obtain rfl := Option.some.inj (List.mapM_pure.symm.trans hms)
  intro name
  rw [← hsettles name, hmap, hmap, lastNamed?_bindings]

/-- The members of a file settle the definitions of a file. -/
private theorem exists_fileMentions? [JsonReader] {file : Option SourceFile} {ds : List Definition}
    (h : fileDefinitions file = .ok ds) : ∃ ms, fileMentions? file = some ms ∧ Settles ms ds := by
  cases file with
  | none =>
    obtain rfl := Except.ok.inj h
    exact ⟨[], rfl, settles_nil⟩
  | some file =>
    rw [fileDefinitions] at h
    cases hcontents : file.contents with
    | error fault =>
      simp only [hcontents] at h
      cases h
    | ok text =>
      simp only [hcontents, readBindings?_eq] at h
      cases hentries : readEntries? text with
      | none =>
        rw [hentries] at h
        cases h
      | some entries =>
        rw [hentries, Option.map_some] at h
        simp only at h
        refine ⟨entries.map fun e => .inFile e.1 e.2, ?_, settles_inFile h⟩
        rw [fileMentions?, hcontents]
        simp only [hentries]
        rfl

/-! ### Arguments -/

/-- A text `NAME:KIND=VALUE` that gives a definition is a mention that says it. -/
private theorem exists_givenMention? {text : String} {d : Definition}
    (h : givenDefinition text = .ok d) : ∃ m, givenMention? text = some m ∧ m.Gives d := by
  rw [givenDefinition] at h
  cases hsplit : splitAtFirst? '=' text.toList with
  | none =>
    rw [hsplit] at h
    cases h
  | some parts =>
    simp only [hsplit] at h
    cases hdeclared : declared parts.1 with
    | error err =>
      rw [hdeclared] at h
      cases h
    | ok pair =>
      simp only [hdeclared] at h
      cases hgiven : givenValue pair.2 parts.2 with
      | error fault =>
        rw [hgiven] at h
        cases h
      | ok v =>
        rw [hgiven] at h
        obtain rfl := Except.ok.inj h
        refine ⟨.given pair.1 pair.2 parts.2, ?_, rfl, rfl, ?_⟩
        · rw [givenMention?, hsplit]
          simp only [hdeclared]
        · rw [Mention.value, hgiven]
          rfl

/-- A text `NAME:KIND` that gives a definition is a mention that says it. -/
private theorem exists_unsetMention? {text : String} {d : Definition}
    (h : unsetDefinition text = .ok d) : ∃ m, unsetMention? text = some m ∧ m.Gives d := by
  rw [unsetDefinition] at h
  cases hdeclared : declared text.toList with
  | error err =>
    rw [hdeclared] at h
    cases h
  | ok pair =>
    rw [hdeclared] at h
    obtain rfl := Except.ok.inj h
    refine ⟨.unset pair.1 pair.2, ?_, rfl, rfl, rfl⟩
    rw [unsetMention?, hdeclared]

/-- The mentions of all sources settle the definitions of all sources. -/
private theorem VariableSources.exists_mentions? [JsonReader] {s : VariableSources}
    {ds : List Definition} (h : s.definitions = .ok ds) :
    ∃ ms, s.mentions? = some ms ∧ Settles ms ds := by
  rw [definitions] at h
  cases hfile : fileDefinitions s.file with
  | error err =>
    rw [hfile] at h
    cases h
  | ok fromFile =>
    cases hgiven : s.given.mapM givenDefinition with
    | error err =>
      rw [hfile, hgiven] at h
      cases h
    | ok given =>
      cases hunset : s.unset.mapM unsetDefinition with
      | error err =>
        rw [hfile, hgiven, hunset] at h
        cases h
      | ok unset =>
        rw [hfile, hgiven, hunset] at h
        obtain rfl := Except.ok.inj h
        obtain ⟨ms, hms, hsettles⟩ := exists_fileMentions? hfile
        obtain ⟨ns, hns, hsettles'⟩ :=
          exists_settles_of_mapM _ (fun _ _ => exists_givenMention?) hgiven
        obtain ⟨os, hos, hsettles''⟩ :=
          exists_settles_of_mapM _ (fun _ _ => exists_unsetMention?) hunset
        refine ⟨ms ++ ns ++ os, ?_, (hsettles.append hsettles').append hsettles''⟩
        rw [mentions?, hms, hns, hos]
        rfl

/-! ### Assignments -/

namespace Assignment

private theorem ofDefinitions_snoc (ds : List Definition) (d : Definition) :
    ofDefinitions (ds ++ [d]) = (ofDefinitions ds).add d := List.foldl_append

/-- A definition adds its name to the values, with its value or without one. -/
private theorem values_add (a : Assignment) (d : Definition) :
    (a.add d).binding.values = a.binding.values.insert d.name d.value := by
  unfold add
  cases d.value <;> rfl

/-- The kind of a name and its value or that it has none come from the last definition. -/
private theorem get?_ofDefinitions (ds : List Definition) (name : String) :
    (ofDefinitions ds).types.get? name =
        (lastNamed? Definition.name name ds).map Definition.kind ∧
      (ofDefinitions ds).binding.values.get? name =
        (lastNamed? Definition.name name ds).map Definition.value := by
  induction ds using List.reverseRecOn with
  | nil => exact ⟨rfl, rfl⟩
  | append_singleton ds d ih =>
    rw [ofDefinitions_snoc, types_add, values_add, Dict.get?_insert, lastNamed?_append,
      lastNamed?_singleton, ih.1, ih.2]
    by_cases h : name = d.name
    · rw [if_pos h, if_pos h, if_pos h.symm]
      exact ⟨rfl, rfl⟩
    · rw [if_neg h, if_neg h, if_neg (Ne.symm h)]
      exact ⟨rfl, rfl⟩

private theorem names_ofDefinitions (ds : List Definition) :
    (ofDefinitions ds).binding.values.names = (ofDefinitions ds).types.names := by
  induction ds using List.reverseRecOn with
  | nil => rfl
  | append_singleton ds d ih =>
    have htypes :
        ((ofDefinitions ds).add d).types = (ofDefinitions ds).types.insert d.name d.kind := rfl
    rw [ofDefinitions_snoc, values_add, htypes, Dict.names_insert, Dict.names_insert, ih]

/-- An assignment follows mentions if the last mention of a name settles what it has of the name. -/
structure Follows (a : Assignment) (ms : List Mention) : Prop where
  /-- The values have the names of the kinds. -/
  names : a.binding.values.names = a.types.names
  /-- The kind of a name that is mentioned is that of the last mention, and so is the value, or that
  it has none. -/
  mentioned : ∀ name m, lastNamed? Mention.name name ms = some m →
    a.types.get? name = some m.kind ∧
      ∃ v?, m.value = .ok v? ∧ a.binding.values.get? name = some v?
  /-- Nothing has a name that is not mentioned. -/
  unmentioned : ∀ name, (∀ m ∈ ms, m.name ≠ name) →
    a.types.get? name = none ∧ a.binding.values.get? name = none
  /-- A value has the kind of its name. -/
  bound : ∀ name v, a.binding.get? name = some v → a.types.get? name = some v.kind

/-- The assignment of definitions follows the mentions that settle them. -/
private theorem follows_of_settles {ms : List Mention} {ds : List Definition} (h : Settles ms ds) :
    (ofDefinitions ds).Follows ms := by
  constructor
  case names => exact names_ofDefinitions ds
  case mentioned =>
    intro name m hm
    obtain ⟨d, hd, hkind, hvalue⟩ := h.exists_lastNamed? hm
    rw [(get?_ofDefinitions ds name).1, (get?_ofDefinitions ds name).2, hd, ← hkind]
    exact ⟨rfl, d.value, hvalue, rfl⟩
  case unmentioned =>
    intro name hname
    have hnone := h.lastNamed?_eq_none (lastNamed?_eq_none_iff.mpr hname)
    rw [(get?_ofDefinitions ds name).1, (get?_ofDefinitions ds name).2, hnone]
    exact ⟨rfl, rfl⟩
  case bound =>
    intro name v hv
    rw [Binding.get?, (get?_ofDefinitions ds name).2] at hv
    cases hm : lastNamed? Mention.name name ms with
    | none =>
      rw [h.lastNamed?_eq_none hm] at hv
      cases hv
    | some m =>
      obtain ⟨d, hd, hkind, hvalue⟩ := h.exists_lastNamed? hm
      rw [hd] at hv
      have hbound : d.value = some v := hv
      rw [(get?_ofDefinitions ds name).1, hd, Option.map_some, hkind,
        Mention.kind_of_value (hvalue.trans (congrArg Except.ok hbound))]

end Assignment

/-- Sources that give an assignment have mentions, and the assignment follows them. -/
theorem VariableSources.exists_follows [JsonReader] {s : VariableSources} {a : Assignment}
    (h : s.assignment = .ok a) : ∃ ms, s.mentions? = some ms ∧ a.Follows ms := by
  rw [assignment] at h
  cases hds : s.definitions with
  | error err =>
    rw [hds] at h
    cases h
  | ok ds =>
    rw [hds] at h
    obtain rfl := Except.ok.inj h
    obtain ⟨ms, hms, hsettles⟩ := exists_mentions? hds
    exact ⟨ms, hms, Assignment.follows_of_settles hsettles⟩

/-! ### Runs -/

/-- A step fails on a bound value only where a variable is bound to a value that it does not
take. -/
private theorem Expr.FailsWith.exists_get? {env : Environment} {n : Expr} {cause : EvalCause}
    (h : n.FailsWith env cause) {name : String} {declared actual : Kind}
    (hcause : cause = .boundKind name declared actual) :
    ∃ offset other kind default v, n = .reference offset other kind default ∧
      env.binding.get? other = some v ∧ ¬ kind.Admits v.kind := by
  cases h with
  | reference offset hload =>
    rcases loadVariable_error_cases hload with heq | ⟨v, hv, hadmits, -⟩
    · cases heq.symm.trans hcause
    · exact ⟨_, _, _, _, v, rfl, hv, hadmits⟩
  | unary offset hu happly =>
    rcases applyUnary_error_cases happly with ⟨-, heq⟩ | ⟨source, -, heq⟩
    · cases heq.symm.trans hcause
    · cases heq.symm.trans hcause
  | binary offset hu hw happly =>
    rcases applyBinary_error_cases happly with
      ⟨v, -, -, heq⟩ | ⟨a, -, ⟨v, source, -, -, heq⟩ | heq | heq⟩
    all_goals cases heq.symm.trans hcause
  | call offset hvs happly =>
    rcases applyCall_error_cases happly with ⟨-, heq⟩ | ⟨f, -, hfunction⟩
    · cases heq.symm.trans hcause
    · rcases applyFunction_error_cases hfunction with
        ⟨m, -, heq⟩ | ⟨source, -, heq⟩ | ⟨k, v, -, -, -, heq⟩
      all_goals cases heq.symm.trans hcause

/-- Where values have the kinds of their names, no run finds a value of another kind. -/
private theorem Formula.run_ne_boundKind {scope : Scope} {text : String} {f : Formula}
    (hcompile : Formula.compile scope text = .ok f) (functions : Registry) {binding : Binding}
    (hbound : ∀ name v, binding.get? name = some v → scope.types.get? name = some v.kind)
    (offset : Nat) (name : String) (declared actual : Kind) :
    f.run functions binding ≠ .error (.atOffset offset (.boundKind name declared actual)) := by
  intro hrun
  obtain ⟨e, hparse, hof⟩ := compile_ok_iff.mp hcompile
  obtain ⟨-, a, -, hty, -⟩ := exists_phrase_of_parseFormula hparse
  rw [run_of_ofExpr hof, Expr.value] at hrun
  obtain ⟨n, hn, cause, hfails, heq⟩ := Expr.exists_failsWith_of_eval hrun
  obtain ⟨-, hcause⟩ := EvalError.atOffset.inj heq
  obtain ⟨o, other, kind, default, v, rfl, hv, hadmits⟩ := hfails.exists_get? hcause.symm
  obtain ⟨b, hreference⟩ := hty.exists_of_mem_nodes hn
  have hkind := (hreference.of_mem_occurrences (List.mem_singleton.mpr rfl)).1
  exact hadmits (.inl (Option.some.inj ((hbound other v hv).symm.trans hkind)))

/-- What does not compile is the variables or the text. -/
private theorem aboutVariables_or_compile_of_compileWith [Binary64.Logarithms] [JsonReader]
    {formula : String} {sources : VariableSources} {err : CommandError}
    (h : compileWith formula sources = .error err) :
    err.aboutVariables = true ∨ ∃ source, err = .compile formula source := by
  rw [compileWith] at h
  cases hassignment : sources.assignment with
  | error err' =>
    rw [hassignment] at h
    obtain rfl := Except.error.inj h
    exact .inl (aboutVariables_of_assignment hassignment)
  | ok a =>
    rw [hassignment] at h
    cases hcompile : Formula.compile ⟨a.types, .library⟩ formula with
    | ok f => simp [bind, Except.bind, hcompile, pure, Except.pure] at h
    | error source =>
      refine .inr ⟨source, ?_⟩
      simpa [bind, Except.bind, hcompile, throw, throwThe, MonadExceptOf.throw, eq_comm] using h

/-- An assignment of variables has the kind and the value of every name from the last place that
mentions it: the members of the file come first, then the given variables, then those that are
declared alone, each from left to right. Kinds and values have the same names, and a value has the
kind of its name. So no formula fails on a variable that is bound to a value of another kind. -/
theorem assignment_follows_mentions [Binary64.Logarithms] [JsonReader] (s : VariableSources) :
    (∀ a, s.assignment = .ok a → ∃ ms, s.mentions? = some ms ∧ a.Follows ms) ∧
    ∀ formula json text offset name declared actual,
      (Request.eval formula s json).answer ≠
        .error (.evaluation text (.atOffset offset (.boundKind name declared actual))) := by
  refine ⟨fun a => VariableSources.exists_follows,
    fun formula json text offset name declared actual h => ?_⟩
  rw [Request.answer] at h
  cases hcompile : compileWith formula s with
  | error err =>
    rw [hcompile] at h
    obtain rfl := Except.error.inj h
    rcases aboutVariables_or_compile_of_compileWith hcompile with hvariables | ⟨source, heq⟩
    · cases hvariables
    · cases heq
  | ok p =>
    obtain ⟨f, binding⟩ := p
    obtain ⟨a, ha, hf, rfl⟩ := exists_assignment_of_compileWith hcompile
    obtain ⟨ms, -, hfollows⟩ := VariableSources.exists_follows ha
    rw [hcompile] at h
    cases hrun : f.run .library a.binding with
    | ok v => simp [bind, Except.bind, hrun, pure, Except.pure] at h
    | error source =>
      have hsource : source = .atOffset offset (.boundKind name declared actual) := by
        have hboth : formula = text ∧
            source = .atOffset offset (.boundKind name declared actual) := by
          simpa [bind, Except.bind, hrun, throw, throwThe, MonadExceptOf.throw] using h
        exact hboth.2
      exact Formula.run_ne_boundKind hf .library hfollows.bound offset name declared actual
        (hrun.trans (congrArg Except.error hsource))

/-- A name comes twice in a file, and another one is given with a value and then declared without
one: kinds and values are those of the last mentions. -/
theorem assignment_follows_mentions_of_repeated_names :
    let file := "\x7b\"x\": [\"Integer\"], \"x\": [\"Boolean\", \"true\"]\x7d"
    let s : VariableSources := ⟨some ⟨"vars.json", .ok file⟩, ["y:integer=7", "z:string=a"],
      ["y:float"]⟩
    ∃ a ms, s.assignment = .ok a ∧ s.mentions? = some ms ∧ a.Follows ms ∧
      ms.map Mention.name = ["x", "x", "y", "z", "y"] ∧
      a.types.entries = [("x", .boolean), ("y", .float), ("z", .string)] ∧
      a.binding.values.entries =
        [("x", some (.boolean true)), ("y", none), ("z", some (.string "a"))] := by
  intro file s
  -- the entries of a file are sorted, which does not reduce
  have hfile : fileDefinitions s.file = .ok [⟨"x", .boolean, some (.boolean true)⟩] := by
    have hentries : readEntries? file =
        some [("x", ⟨.integer, none⟩), ("x", ⟨.boolean, some (.string "true")⟩)] := by
      decide +kernel
    have hread : readBindings? file = some [("x", ⟨.boolean, some (.string "true")⟩)] := by
      rw [readBindings?_eq, hentries]
      exact congrArg some (List.mergeSort_singleton _)
    simp only [s, fileDefinitions, hread]
    rfl
  have hassignment : s.assignment = .ok (.ofDefinitions [⟨"x", .boolean, some (.boolean true)⟩,
      ⟨"y", .integer, some (.integer 7)⟩, ⟨"z", .string, some (.string "a")⟩,
      ⟨"y", .float, none⟩]) := by
    rw [VariableSources.assignment, VariableSources.definitions, hfile]
    rfl
  obtain ⟨ms, hms, hfollows⟩ := (assignment_follows_mentions s).1 _ hassignment
  have hnames : s.mentions?.map (fun ms => ms.map Mention.name) =
      some ["x", "x", "y", "z", "y"] := by
    decide +kernel
  rw [hms] at hnames
  exact ⟨_, ms, hassignment, hms, hfollows, Option.some.inj hnames, rfl, rfl⟩

end TypedFormula
