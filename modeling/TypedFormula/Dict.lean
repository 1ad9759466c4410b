/-!
# Dictionaries in insertion order

A `Dict α` holds at most one entry per name and keeps the entries in the order in which their
names first arrived: `insert` overwrites an existing entry where it stands and appends a new
one. The order is what listings of variables, caches and declarations show.

Main statements:

* `Dict.get?_eq_some_iff` — what is found under a name is what its entry holds;
* `Dict.get?_insert`, `Dict.get?_erase` — an insertion and an erasure are seen at their own name
  and nowhere else;
* `Dict.names_insert` — an insertion keeps the names, or appends the new one.
-/

namespace TypedFormula

/-! ### Entries -/

/-- The entries after writing `value` under `name`: overwritten in place, or appended. -/
def putEntry {α : Type} (name : String) (value : α) : List (String × α) → List (String × α)
  | [] => [(name, value)]
  | entry :: entries =>
    if entry.1 = name then (name, value) :: entries else entry :: putEntry name value entries

/-- The value under `name`, if there is an entry for it. -/
def findEntry? {α : Type} (name : String) : List (String × α) → Option α
  | [] => none
  | entry :: entries => if entry.1 = name then some entry.2 else findEntry? name entries

/-- Writing under a name leaves the names alone when it is there, and appends it otherwise. -/
private theorem map_fst_putEntry {α : Type} (name : String) (value : α)
    (entries : List (String × α)) :
    (putEntry name value entries).map Prod.fst =
      if name ∈ entries.map Prod.fst then entries.map Prod.fst
      else entries.map Prod.fst ++ [name] := by
  induction entries with
  | nil => simp [putEntry]
  | cons entry entries ih =>
    by_cases h : entry.1 = name
    · simp [putEntry, h]
    · by_cases hmem : name ∈ entries.map Prod.fst
      · simp [putEntry, h, ih, hmem]
      · simp [putEntry, h, ih, hmem, Ne.symm h]

private theorem nodup_putEntry {α : Type} {entries : List (String × α)} (name : String) (value : α)
    (h : (entries.map Prod.fst).Nodup) : ((putEntry name value entries).map Prod.fst).Nodup := by
  rw [map_fst_putEntry]
  split
  · exact h
  · rename_i hmem
    rw [List.nodup_append]
    refine ⟨h, by simp, ?_⟩
    intro a ha b hb
    rw [List.mem_singleton.mp hb]
    exact fun heq => hmem (heq ▸ ha)

/-- What is written under a name is what is found there, and other names are untouched. -/
private theorem findEntry?_putEntry {α : Type} (name other : String) (value : α)
    (entries : List (String × α)) :
    findEntry? other (putEntry name value entries) =
      if other = name then some value else findEntry? other entries := by
  induction entries with
  | nil => simp [putEntry, findEntry?, eq_comm]
  | cons entry entries ih =>
    by_cases h : entry.1 = name
    · by_cases ho : other = name
      · simp [putEntry, findEntry?, h, ho]
      · simp [putEntry, findEntry?, h, ho, Ne.symm ho]
    · by_cases ho : entry.1 = other
      · have hne : ¬ other = name := fun heq => h (ho.trans heq)
        simp [putEntry, findEntry?, ho, hne]
      · simp [putEntry, findEntry?, h, ho, ih]

/-- Where names are apart, what is found under a name is what its entry holds. -/
private theorem findEntry?_eq_some_iff {α : Type} {entries : List (String × α)}
    (h : (entries.map Prod.fst).Nodup) {name : String} {value : α} :
    findEntry? name entries = some value ↔ (name, value) ∈ entries := by
  induction entries with
  | nil => exact ⟨nofun, nofun⟩
  | cons entry entries ih =>
    obtain ⟨hnew, hnodup⟩ := List.nodup_cons.mp h
    unfold findEntry?
    rw [List.mem_cons]
    by_cases heq : entry.1 = name
    · -- the name has its entry here, and no other one behind it
      have hbehind : (name, value) ∉ entries := fun hmem =>
        hnew (heq ▸ List.mem_map_of_mem hmem)
      rw [if_pos heq, ← heq, Option.some.injEq]
      constructor
      · rintro rfl; exact .inl rfl
      · rintro (hentry | hmem)
        · exact (congrArg Prod.snd hentry).symm
        · exact absurd (heq ▸ hmem) hbehind
    · rw [if_neg heq, ih hnodup]
      refine ⟨.inr, fun hmem => hmem.resolve_left fun hentry => heq ?_⟩
      exact (congrArg Prod.fst hentry).symm

/-- What is written under a new name is appended. -/
theorem putEntry_of_notMem {α : Type} {name : String} (value : α) {entries : List (String × α)}
    (h : name ∉ entries.map Prod.fst) :
    putEntry name value entries = entries ++ [(name, value)] := by
  induction entries with
  | nil => rfl
  | cons entry entries ih =>
    obtain ⟨hentry, hentries⟩ := not_or.mp (mt List.mem_cons.mpr h)
    rw [putEntry, if_neg (Ne.symm hentry), ih hentries]
    rfl

/-! ### The dictionary -/

/-- Values under distinct names, in the order in which the names first arrived. -/
@[ext] structure Dict (α : Type) where
  /-- The entries, oldest name first. -/
  entries : List (String × α)
  /-- No name has two entries. -/
  nodup : (entries.map Prod.fst).Nodup

namespace Dict

variable {α : Type}

/-- The dictionary without entries. -/
def empty : Dict α := ⟨[], by simp⟩

instance : EmptyCollection (Dict α) := ⟨empty⟩

instance : Inhabited (Dict α) := ⟨empty⟩

/-- The value under a name. -/
def get? (d : Dict α) (name : String) : Option α := findEntry? name d.entries

/-- Whether a name has an entry. -/
def contains (d : Dict α) (name : String) : Bool := (d.get? name).isSome

/-- Writes a value: in place when the name has an entry, at the end otherwise. -/
def insert (d : Dict α) (name : String) (value : α) : Dict α :=
  ⟨putEntry name value d.entries, nodup_putEntry name value d.nodup⟩

/-- The names, oldest first. -/
def names (d : Dict α) : List String := d.entries.map Prod.fst

/-- The number of entries. -/
def size (d : Dict α) : Nat := d.entries.length

/-- Whether there is no entry. -/
def isEmpty (d : Dict α) : Bool := d.entries.isEmpty

/-- Writes all pairs, left to right, so that of two pairs with one name the later counts. -/
def ofList (pairs : List (String × α)) : Dict α :=
  pairs.foldl (fun d pair => d.insert pair.1 pair.2) empty

/-- The dictionary without the entry of a name. -/
def erase (d : Dict α) (name : String) : Dict α :=
  ⟨d.entries.filter fun entry => !decide (entry.1 = name),
    d.nodup.sublist (List.filter_sublist.map Prod.fst)⟩

/-- What is found under a name is what its entry holds. -/
theorem get?_eq_some_iff {d : Dict α} {name : String} {value : α} :
    d.get? name = some value ↔ (name, value) ∈ d.entries :=
  findEntry?_eq_some_iff d.nodup

/-- The names are those under which something is found. -/
theorem mem_names_iff {d : Dict α} {name : String} :
    name ∈ d.names ↔ ∃ value, d.get? name = some value := by
  simp [names, get?_eq_some_iff]

/-- An insertion is seen at its own name and nowhere else. -/
theorem get?_insert (d : Dict α) (name other : String) (value : α) :
    (d.insert name value).get? other = if other = name then some value else d.get? other :=
  findEntry?_putEntry name other value d.entries

/-- An erasure is seen at its own name and nowhere else. -/
theorem get?_erase (d : Dict α) (name other : String) :
    (d.erase name).get? other = if other = name then none else d.get? other := by
  refine Option.ext fun value => ?_
  rw [get?_eq_some_iff]
  by_cases h : other = name
  · simp [erase, h]
  · simp [erase, h, get?_eq_some_iff]

theorem get?_foldl_erase (d : Dict α) (names : List String) (other : String) :
    (names.foldl erase d).get? other = if other ∈ names then none else d.get? other := by
  induction names generalizing d with
  | nil => simp
  | cons name names ih =>
    rw [List.foldl_cons, ih, get?_erase]
    by_cases h : other = name <;> simp [h]

/-- An insertion keeps the names when the name is there, and appends it otherwise. -/
theorem names_insert (d : Dict α) (name : String) (value : α) :
    (d.insert name value).names =
      if name ∈ d.names then d.names else d.names ++ [name] :=
  map_fst_putEntry name value d.entries

@[simp] theorem get?_empty (name : String) : (empty : Dict α).get? name = none := rfl

end Dict

end TypedFormula
