import Mathlib.Data.List.Induction
import TypedFormula.Proofs.Library

/-!
# Histories of registrations

What a registry holds follows from the functions that were to be registered, in their order: a name
means the latest function of this name, in any letter case, whose signature is well formed
(`latest?`). A registration that fails leaves nothing behind, since the signature is checked before
anything is written.

Keys are turned to upper case when a function is registered, when it is looked up, and once more
when the functions are listed by their keys. The three agree because every function stands under its
own name in upper case (`Registry.Keyed`), which every registration keeps, and because upper case is
reached in one step.

Main statements:

* `Registry.lookup?_registerAll_eq` — what a name means after a history of registrations;
* `Registry.keyed_registerAll` — functions stand under their own names, with their signatures
  checked;
* `Registry.reflects_history` — all that a registry says is said by its history.
-/

namespace TypedFormula

/-! ### Histories -/

/-- Whether a list of parameters is a signature: no two of them have one name, and no required one
follows an optional one. -/
def Function.HasSignature (f : Function) : Prop :=
  (f.parameters.map Parameter.name).Nodup ∧
    f.parameters.Pairwise fun p q => p.optional = true → q.optional = true

instance (f : Function) : Decidable f.HasSignature :=
  inferInstanceAs (Decidable ((f.parameters.map Parameter.name).Nodup ∧
    f.parameters.Pairwise fun p q => p.optional = true → q.optional = true))

/-- Whether a name is that of a function, in any letter case. -/
def Function.IsNamed (f : Function) (name : String) : Prop :=
  Text.upper f.name = Text.upper name

instance (f : Function) (name : String) : Decidable (f.IsNamed name) :=
  inferInstanceAs (Decidable (Text.upper f.name = Text.upper name))

/-- The latest function of a name among those that have a signature. -/
def latest? (history : List Function) (name : String) : Option Function :=
  history.reverse.find? fun f => decide (f.HasSignature ∧ f.IsNamed name)

private theorem latest?_append_singleton (history : List Function) (f : Function) (name : String) :
    latest? (history ++ [f]) name =
      if f.HasSignature ∧ f.IsNamed name then some f else latest? history name := by
  rw [latest?, List.reverse_append, List.reverse_singleton, List.singleton_append, List.find?_cons]
  split
  · rename_i h
    rw [if_pos (of_decide_eq_true h)]
  · rename_i h
    rw [if_neg (of_decide_eq_false h)]
    rfl

private theorem hasSignature_of_latest? {history : List Function} {name : String} {f : Function}
    (h : latest? history name = some f) : f ∈ history ∧ f.HasSignature ∧ f.IsNamed name := by
  have hfits : decide (f.HasSignature ∧ f.IsNamed name) = true :=
    List.find?_some (p := fun g : Function => decide (g.HasSignature ∧ g.IsNamed name)) h
  exact ⟨List.mem_reverse.mp (List.mem_of_find?_eq_some h), of_decide_eq_true hfits⟩

/-- A function with a signature is not passed over: its name has a latest function. -/
private theorem exists_latest? {history : List Function} {f : Function} (hf : f ∈ history)
    (h : f.HasSignature) : ∃ g, latest? history f.name = some g := by
  refine Option.isSome_iff_exists.mp (List.find?_isSome.mpr ⟨f, List.mem_reverse.mpr hf, ?_⟩)
  exact decide_eq_true ⟨h, rfl⟩

namespace Registry

variable {r : Registry} {f : Function} {key name : String}

/-! ### One registration -/

private theorem register_of_hasSignature (r : Registry) (h : f.HasSignature) :
    r.register f = .ok (r.lookup? f.name, ⟨r.functions.insert (Text.upper f.name) f⟩) := by
  rw [register, (checkParameters_ok_iff f.parameters).mpr h]
  rfl

/-- A function without a signature is refused. -/
private theorem register_of_not_hasSignature (r : Registry) (h : ¬ f.HasSignature) :
    ∃ fault, checkParameters f.parameters = .error fault ∧
      r.register f = .error ⟨Text.upper f.name, fault⟩ := by
  cases hcheck : checkParameters f.parameters with
  | ok u => exact absurd ((checkParameters_ok_iff f.parameters).mp hcheck) h
  | error fault => exact ⟨fault, rfl, by rw [register, hcheck]⟩

private theorem registerAll_append (r : Registry) (history more : List Function) :
    r.registerAll (history ++ more) = (r.registerAll history).registerAll more :=
  List.foldl_append

/-- A registration that succeeds gives the registry that is left. -/
private theorem registerAll_singleton_of_hasSignature (r : Registry) (h : f.HasSignature) :
    r.registerAll [f] = ⟨r.functions.insert (Text.upper f.name) f⟩ := by
  rw [registerAll, List.foldl_cons, register_of_hasSignature r h]
  rfl

private theorem registerAll_singleton_of_not_hasSignature (r : Registry) (h : ¬ f.HasSignature) :
    r.registerAll [f] = r := by
  obtain ⟨fault, -, hregister⟩ := register_of_not_hasSignature r h
  rw [registerAll, List.foldl_cons, hregister]
  rfl

private theorem lookup?_registerAll_singleton (r : Registry) (f : Function) (name : String) :
    (r.registerAll [f]).lookup? name =
      if f.HasSignature ∧ f.IsNamed name then some f else r.lookup? name := by
  by_cases h : f.HasSignature
  · rw [registerAll_singleton_of_hasSignature r h, lookup?, Dict.get?_insert]
    exact if_congr (eq_comm.trans (and_iff_right h).symm) rfl rfl
  · rw [registerAll_singleton_of_not_hasSignature r h, if_neg fun hboth => h hboth.1]

/-! ### Histories of registrations -/

/-- A name means the latest function of this name that has a signature, and what it meant before
the history if there is none. -/
theorem lookup?_registerAll_eq (r : Registry) (history : List Function) (name : String) :
    (r.registerAll history).lookup? name = (latest? history name).or (r.lookup? name) := by
  induction history using List.reverseRecOn with
  | nil => rfl
  | append_singleton history f ih =>
    rw [registerAll_append, lookup?_registerAll_singleton, latest?_append_singleton, ih]
    split <;> rfl

/-- Every function stands under its own name in upper case, and has a signature. -/
def Keyed (r : Registry) : Prop :=
  ∀ key f, r.functions.get? key = some f → key = Text.upper f.name ∧ f.HasSignature

private theorem Keyed.registerAll_singleton (hr : r.Keyed) (f : Function) :
    (r.registerAll [f]).Keyed := by
  by_cases h : f.HasSignature
  · rw [registerAll_singleton_of_hasSignature r h]
    intro key g hg
    rw [Dict.get?_insert] at hg
    split at hg
    · rename_i hkey
      obtain rfl := Option.some.inj hg
      exact ⟨hkey, h⟩
    · exact hr key g hg
  · rwa [registerAll_singleton_of_not_hasSignature r h]

/-- A history of registrations keeps functions under their own names. -/
theorem keyed_registerAll (hr : r.Keyed) (history : List Function) :
    (r.registerAll history).Keyed := by
  induction history using List.reverseRecOn with
  | nil => exact hr
  | append_singleton history f ih =>
    rw [registerAll_append]
    exact ih.registerAll_singleton f

private theorem keyed_empty : empty.Keyed := by
  intro key f h
  cases h

/-! ### Keys -/

private theorem Keyed.lookup?_of_get? (hr : r.Keyed) (h : r.functions.get? key = some f) :
    r.lookup? key = some f := by
  rw [lookup?, (hr key f h).1, Text.upper_upper, ← (hr key f h).1, h]

private theorem mem_names_iff : key ∈ r.names ↔ ∃ f, r.functions.get? key = some f := by
  rw [names, (List.mergeSort_perm _ _).mem_iff]
  exact Dict.mem_names_iff

private theorem length_names (r : Registry) : r.names.length = r.size := by
  rw [names, (List.mergeSort_perm _ _).length_eq, Dict.names, List.length_map]
  rfl

/-- The names ascend, and none comes twice. -/
private theorem names_pairwise (r : Registry) : r.names.Pairwise (· < ·) := by
  have htrans : ∀ a b c : String, decide (a ≤ b) = true → decide (b ≤ c) = true →
      decide (a ≤ c) = true := fun a b c hab hbc =>
    decide_eq_true (String.le_trans (of_decide_eq_true hab) (of_decide_eq_true hbc))
  have htotal : ∀ a b : String, (decide (a ≤ b) || decide (b ≤ a)) = true := by
    intro a b
    rw [Bool.or_eq_true, decide_eq_true_eq, decide_eq_true_eq]
    exact String.le_total a b
  have hascending : r.names.Pairwise (· ≤ ·) :=
    (List.pairwise_mergeSort htrans htotal r.functions.names).imp of_decide_eq_true
  have hnodup : r.names.Pairwise (· ≠ ·) :=
    (List.mergeSort_perm _ _).nodup_iff.mpr r.functions.nodup
  refine (hascending.and hnodup).imp fun h => String.not_le.mp fun hle => ?_
  exact h.2 (String.le_antisymm h.1 hle)

/-! ### Listings -/

private theorem Keyed.map_some_toList (hr : r.Keyed) :
    r.toList.map some = r.names.map r.lookup? := by
  have hall : ∀ keys : List String, (∀ key ∈ keys, ∃ f, r.functions.get? key = some f) →
      (keys.filterMap r.lookup?).map some = keys.map r.lookup? := by
    intro keys hkeys
    induction keys with
    | nil => rfl
    | cons key keys ih =>
      obtain ⟨hkey, hrest⟩ := List.forall_mem_cons.mp hkeys
      obtain ⟨f, hf⟩ := hkey
      have hlookup := hr.lookup?_of_get? hf
      rw [List.filterMap_cons_some hlookup, List.map_cons, List.map_cons, ih hrest, hlookup]
  exact hall r.names fun _ => mem_names_iff.mp

private theorem mem_toList_iff : f ∈ r.toList ↔ ∃ name, r.lookup? name = some f := by
  rw [toList, List.mem_filterMap]
  constructor
  · rintro ⟨key, -, hkey⟩
    exact ⟨key, hkey⟩
  · rintro ⟨name, hname⟩
    exact ⟨Text.upper name, mem_names_iff.mpr ⟨f, hname⟩, by rwa [lookup?_upper]⟩

/-- The functions are listed under their own names in upper case. -/
private theorem Keyed.map_upper_toList (hr : r.Keyed) :
    r.toList.map (fun f => Text.upper f.name) = r.names := by
  have hkey : ∀ key ∈ r.names, (r.lookup? key).map (fun f => Text.upper f.name) = some key := by
    intro key hmem
    obtain ⟨f, hf⟩ := mem_names_iff.mp hmem
    rw [hr.lookup?_of_get? hf, Option.map_some, ← (hr key f hf).1]
  refine (List.map_inj_right (f := some) fun _ _ => Option.some.inj).mp ?_
  calc (r.toList.map fun f => Text.upper f.name).map some
      = (r.toList.map some).map (Option.map fun f => Text.upper f.name) := by
        simp only [List.map_map, Function.comp_def, Option.map_some]
    _ = r.names.map some := by
        rw [hr.map_some_toList, List.map_map]
        exact List.map_congr_left hkey

/-! ### The registry of a history -/

/-- A registry says what a history of registrations says. -/
structure Reflects (r : Registry) (history : List Function) : Prop where
  /-- A name means the latest function of this name that has a signature. -/
  lookup : ∀ name, r.lookup? name = latest? history name
  /-- A function with a signature is registered, and gives the function that its name meant. -/
  register_ok : ∀ f : Function, f.HasSignature →
    r.register f = .ok (r.lookup? f.name, r.registerAll [f])
  /-- A function without a signature is refused, and changes nothing. -/
  register_error : ∀ f : Function, ¬ f.HasSignature →
    (∃ fault, r.register f = .error ⟨Text.upper f.name, fault⟩) ∧ r.registerAll [f] = r
  /-- The names are those in upper case of the functions with a signature. -/
  mem_names : ∀ key, key ∈ r.names ↔
    ∃ f ∈ history, f.HasSignature ∧ Text.upper f.name = key
  /-- The names ascend, and none comes twice. -/
  ascending : r.names.Pairwise (· < ·)
  /-- There are as many names as functions. -/
  size : r.names.length = r.size
  /-- The listing has the function of each name, in the order of the names. -/
  listing : r.toList.map some = r.names.map (latest? history)
  /-- The functions are listed under their own names, so that none comes twice. -/
  listed_names : r.toList.map (fun f => Text.upper f.name) = r.names
  /-- A function is listed exactly when some name means it. -/
  mem_listing : ∀ f, f ∈ r.toList ↔ ∃ name, r.lookup? name = some f
  /-- The signatures of all functions pass the check. -/
  checked : ∀ f ∈ r.toList, checkParameters f.parameters = .ok ()

/-- A registry that was filled says what its history says. -/
private theorem reflects_registerAll (history : List Function) :
    (empty.registerAll history).Reflects history := by
  have hkeyed := keyed_registerAll keyed_empty history
  have hlookup : ∀ name, (empty.registerAll history).lookup? name = latest? history name := by
    intro name
    rw [lookup?_registerAll_eq]
    exact Option.or_none
  generalize empty.registerAll history = r at hkeyed hlookup
  refine ⟨hlookup, fun f h => ?_, fun f h => ?_, fun key => ?_, r.names_pairwise, r.length_names,
    ?_, hkeyed.map_upper_toList, fun f => mem_toList_iff, fun f hf => ?_⟩
  · rw [register_of_hasSignature r h, registerAll_singleton_of_hasSignature r h]
  · obtain ⟨fault, -, hregister⟩ := register_of_not_hasSignature r h
    exact ⟨⟨fault, hregister⟩, registerAll_singleton_of_not_hasSignature r h⟩
  · rw [mem_names_iff]
    constructor
    · rintro ⟨f, hf⟩
      have hlatest := hlookup key ▸ hkeyed.lookup?_of_get? hf
      exact ⟨f, (hasSignature_of_latest? hlatest).1, (hkeyed key f hf).2, (hkeyed key f hf).1.symm⟩
    · rintro ⟨f, hmem, hsignature, rfl⟩
      obtain ⟨g, hg⟩ := exists_latest? hmem hsignature
      exact ⟨g, (hlookup f.name).trans hg⟩
  · rw [hkeyed.map_some_toList]
    exact List.map_congr_left fun key _ => hlookup key
  · obtain ⟨name, hname⟩ := mem_toList_iff.mp hf
    exact (checkParameters_ok_iff f.parameters).mpr (hkeyed _ f hname).2

/-- After every history of registrations the registry without functions says what the history says,
and the registry of the library says what the functions of the library and then the history say. -/
theorem reflects_history [Binary64.Logarithms] (history : List Function) :
    (empty.registerAll history).Reflects history ∧
      (library.registerAll history).Reflects (Library.functions ++ history) := by
  refine ⟨reflects_registerAll history, ?_⟩
  rw [library, ← registerAll_append]
  exact reflects_registerAll (Library.functions ++ history)

end Registry

end TypedFormula
