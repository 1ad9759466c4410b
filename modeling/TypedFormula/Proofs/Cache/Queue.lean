import Mathlib.Data.List.Basic
import Mathlib.Data.List.Induction
import TypedFormula.Proofs.Cache

/-!
# Caches are bounded queues

A cache finds formulas in a dictionary, and keeps apart from it the order in which their texts came.
A `Queue` is the same without this split: one list of texts with their formulas, oldest first, in
which a text is looked for from the front, a formula is replaced where it stands, and a new one is
put at the end while the front is dropped as far as there is no room.

That a cache does what the queue does rests on the two parts staying in step (`Cache.Coherent`): the
order has no text twice and has exactly the texts that have formulas. Then the order with the
formula of each text is a queue (`Cache.queue`), and every operation of the cache is the operation
of the queue on it. An eviction needs the order to be free of repetitions as well, since a text that
leaves takes its formula away from all places in which it stands.

Main statements:

* `Cache.coherent_reached` — the two parts are in step after all requests;
* `Cache.Coherent.queue_after` — a request does to a cache what it does to its queue;
* `Cache.reached_refines_queue` — what a cache is after all requests, and the laws that follow.
-/

namespace TypedFormula

/-! ### Queues -/

/-- Whether a formula is looked for. -/
def Cache.Request.isLookup : Cache.Request → Bool
  | .compile .. => true
  | .evaluate .. => true
  | .clear => false

/-- How often a formula was looked for. -/
private def CacheCounts.lookups (counts : CacheCounts) : Nat :=
  counts.hits + counts.misses + counts.recompilations

/-- Formulas with their texts, oldest first, and what happened so far. -/
structure Queue where
  /-- The texts and their formulas. -/
  entries : List (String × Formula)
  /-- What happened so far. -/
  counts : CacheCounts

namespace Queue

/-- The queue without formulas, to which nothing happened. -/
def empty : Queue := ⟨[], ⟨0, 0, 0, 0⟩⟩

/-- The formula of a text. -/
def find? (q : Queue) (text : String) : Option Formula :=
  (q.entries.find? fun entry => decide (entry.1 = text)).map Prod.snd

/-- The queue with another formula for a text, where it stands. -/
def replace (q : Queue) (text : String) (f : Formula) : Queue :=
  { q with entries := q.entries.map fun entry => if entry.1 = text then (text, f) else entry }

/-- The queue with a formula at the end, and without the front for which there is no room. Without
capacity nothing changes. -/
def push (q : Queue) (capacity : Nat) (text : String) (f : Formula) : Queue :=
  if capacity = 0 then q
  else
    let excess := q.entries.length + 1 - capacity
    { entries := (q.entries ++ [(text, f)]).drop excess
      counts := { q.counts with evictions := q.counts.evictions + excess } }

/-- The queue after a request for the formula of a text. -/
def lookup (functions : Registry) (capacity : Nat) (q : Queue) (text : String)
    (types : Declarations) : Queue :=
  match q.find? text with
  | none =>
    let q := { q with counts := { q.counts with misses := q.counts.misses + 1 } }
    match Formula.compile ⟨types, functions⟩ text with
    | .error _ => q
    | .ok f => q.push capacity text f
  | some f =>
    if f.matchesTypes types then { q with counts := { q.counts with hits := q.counts.hits + 1 } }
    else
      let q := { q with counts := { q.counts with recompilations := q.counts.recompilations + 1 } }
      match Formula.compile ⟨types, functions⟩ text with
      | .error _ => q
      | .ok f => q.replace text f

/-- The queue after a request. -/
def after (functions : Registry) (capacity : Nat) (q : Queue) : Cache.Request → Queue
  | .compile text types => q.lookup functions capacity text types
  | .evaluate text types _ => q.lookup functions capacity text types
  | .clear => { q with entries := [] }

/-- The queue that requests lead to, the earliest one first. -/
def reached (functions : Registry) (capacity : Nat) (history : List Cache.Request) : Queue :=
  history.foldl (after functions capacity) empty

/-- A lookup is a hit, a miss or a recompilation, and what it stores is none of them. -/
private theorem lookups_after (functions : Registry) (capacity : Nat) (q : Queue)
    (request : Cache.Request) :
    (q.after functions capacity request).counts.lookups =
      q.counts.lookups + if request.isLookup then 1 else 0 := by
  have hpush : ∀ (q : Queue) text f, (q.push capacity text f).counts.lookups =
      q.counts.lookups := by
    intro q text f
    unfold push
    split <;> rfl
  have hlookup : ∀ text types, (q.lookup functions capacity text types).counts.lookups =
      q.counts.lookups + 1 := by
    intro text types
    unfold lookup
    split
    · cases Formula.compile ⟨types, functions⟩ text with
      | error e => simp only [CacheCounts.lookups]; omega
      | ok f => rw [hpush]; simp only [CacheCounts.lookups]; omega
    · split
      · simp only [CacheCounts.lookups]; omega
      · cases Formula.compile ⟨types, functions⟩ text with
        | error e => rfl
        | ok f => rfl
  cases request with
  | compile text types => exact hlookup text types
  | evaluate text types binding => exact hlookup text types
  | clear => rfl

private theorem lookups_reached (functions : Registry) (capacity : Nat)
    (history : List Cache.Request) :
    (reached functions capacity history).counts.lookups =
      history.countP Cache.Request.isLookup := by
  induction history using List.reverseRecOn with
  | nil => rfl
  | append_singleton history request ih =>
    rw [reached, List.foldl_append, List.foldl_cons, List.foldl_nil, lookups_after, ← reached, ih,
      List.countP_append, List.countP_singleton]

end Queue

/-! ### Formulas in the order of their texts -/

/-- The formulas that a dictionary has for texts, in the order of the texts. -/
def listed (formulas : Dict Formula) (order : List String) : List (String × Formula) :=
  order.filterMap fun text => (formulas.get? text).map fun f => (text, f)

section

variable {formulas formulas' : Dict Formula} {order : List String} {text : String} {f : Formula}

private theorem listed_cons_of_some (h : formulas.get? text = some f) :
    listed formulas (text :: order) = (text, f) :: listed formulas order :=
  List.filterMap_cons_some (by rw [h]; rfl)

private theorem listed_congr (h : ∀ text ∈ order, formulas'.get? text = formulas.get? text) :
    listed formulas' order = listed formulas order :=
  List.filterMap_congr fun text htext => by rw [h text htext]

private theorem map_fst_listed (h : ∀ text ∈ order, ∃ f, formulas.get? text = some f) :
    (listed formulas order).map Prod.fst = order := by
  induction order with
  | nil => rfl
  | cons text order ih =>
    obtain ⟨⟨f, hf⟩, hothers⟩ := List.forall_mem_cons.mp h
    rw [listed_cons_of_some hf, List.map_cons, ih hothers]

private theorem length_listed (h : ∀ text ∈ order, ∃ f, formulas.get? text = some f) :
    (listed formulas order).length = order.length := by
  rw [← List.length_map Prod.fst, map_fst_listed h]

private theorem get?_of_mem_listed {entry : String × Formula} (h : entry ∈ listed formulas order) :
    entry.1 ∈ order ∧ formulas.get? entry.1 = some entry.2 := by
  obtain ⟨text, htext, hentry⟩ := List.mem_filterMap.mp h
  obtain ⟨f, hf, rfl⟩ := Option.map_eq_some_iff.mp hentry
  exact ⟨htext, hf⟩

/-- The formula that is found for a text is the one in the dictionary, if the text is in the order
or has none there. -/
private theorem find?_listed (h : ∀ f, formulas.get? text = some f → text ∈ order) :
    ((listed formulas order).find? fun entry => decide (entry.1 = text)).map Prod.snd =
      formulas.get? text := by
  cases hfind : (listed formulas order).find? fun entry => decide (entry.1 = text) with
  | some entry =>
    obtain ⟨-, hget⟩ := get?_of_mem_listed (List.mem_of_find?_eq_some hfind)
    have hentry : entry.1 = text := by simpa using List.find?_some hfind
    rw [← hentry, hget, Option.map_some]
  | none =>
    rw [Option.map_none, eq_comm, Option.eq_none_iff_forall_ne_some]
    intro f hf
    -- the text would be listed with its formula
    have hmem : (text, f) ∈ listed formulas order :=
      List.mem_filterMap.mpr ⟨text, h f hf, by rw [hf]; rfl⟩
    exact List.find?_eq_none.mp hfind _ hmem (decide_eq_true rfl)

private theorem listed_insert (h : ∃ old, formulas.get? text = some old) :
    listed (formulas.insert text f) order =
      (listed formulas order).map fun entry => if entry.1 = text then (text, f) else entry := by
  obtain ⟨old, hold⟩ := h
  rw [listed, listed, List.map_filterMap]
  refine List.filterMap_congr fun other _ => ?_
  rw [Dict.get?_insert]
  by_cases hother : other = text
  · simp [hother, hold]
  · cases formulas.get? other <;> simp [hother]

/-- A formula for a new text that is put behind all others comes last. -/
private theorem listed_append (h : text ∉ order) :
    listed (formulas.insert text f) (order ++ [text]) = listed formulas order ++ [(text, f)] := by
  have hbefore : listed (formulas.insert text f) order = listed formulas order := by
    refine listed_congr fun other hother => ?_
    rw [Dict.get?_insert, if_neg]
    rintro rfl
    exact h hother
  have hlast : listed (formulas.insert text f) [text] = [(text, f)] := by
    simp [listed, Dict.get?_insert]
  rw [← hbefore, ← hlast]
  exact List.filterMap_append

/-- When the oldest texts leave with their formulas, the front is dropped. -/
private theorem listed_drop (hnodup : order.Nodup)
    (h : ∀ text ∈ order, ∃ f, formulas.get? text = some f) {n : Nat} (hn : n ≤ order.length) :
    listed ((order.take n).foldl Dict.erase formulas) (order.drop n) =
      (listed formulas order).drop n := by
  have hsplit : listed formulas order =
      listed formulas (order.take n) ++ listed formulas (order.drop n) := by
    rw [listed, listed, listed, ← List.filterMap_append, List.take_append_drop]
  have hfront : (listed formulas (order.take n)).length = n := by
    rw [length_listed fun text htext => h text (List.mem_of_mem_take htext), List.length_take,
      Nat.min_eq_left hn]
  rw [hsplit, List.drop_left' hfront]
  -- the texts that are left are not among those that leave
  refine listed_congr fun text htext => ?_
  rw [Dict.get?_foldl_erase, if_neg]
  exact fun hleft => List.disjoint_take_drop hnodup (Nat.le_refl n) hleft htext

end

/-! ### Parts in step -/

private theorem Formula.text_of_compile {scope : Scope} {text : String} {f : Formula}
    (h : compile scope text = .ok f) : f.text = text := by
  obtain ⟨e, -, hof⟩ := compile_ok_iff.mp h
  obtain ⟨vs, -, rfl⟩ := ofExpr_ok_iff.mp hof
  rfl

namespace Cache

/-- The order has the texts of the formulas once each and no more than there is room for, and every
formula is under its text. -/
structure Coherent (c : Cache) : Prop where
  /-- No text is twice in the order. -/
  nodup : c.order.Nodup
  /-- The texts in the order are those that have formulas. -/
  mem_order_iff : ∀ text, text ∈ c.order ↔ ∃ f, c.formulas.get? text = some f
  /-- There is room for all texts. -/
  length_order_le : c.order.length ≤ c.capacity
  /-- A formula is under its text. -/
  text_eq : ∀ text f, c.formulas.get? text = some f → f.text = text

section

variable {c : Cache} {text : String} {f : Formula}

/-- What happened so far does not matter. -/
private theorem Coherent.with_counts (h : c.Coherent) (counts : CacheCounts) :
    Coherent { c with counts } :=
  ⟨h.nodup, h.mem_order_iff, h.length_order_le, h.text_eq⟩

private theorem Coherent.notMem_order (h : c.Coherent) (hnew : c.formulas.contains text = false) :
    text ∉ c.order := by
  intro htext
  obtain ⟨g, hg⟩ := (h.mem_order_iff text).mp htext
  simp [Dict.contains, hg] at hnew

private theorem Coherent.nodup_append (h : c.Coherent) (hnew : c.formulas.contains text = false) :
    (c.order ++ [text]).Nodup := by
  refine List.nodup_append.mpr ⟨h.nodup, by simp, fun other hother last hlast => ?_⟩
  rw [List.mem_singleton.mp hlast]
  rintro rfl
  exact h.notMem_order hnew hother

private theorem Coherent.mem_append_iff (h : c.Coherent) (other : String) :
    other ∈ c.order ++ [text] ↔ ∃ g, (c.formulas.insert text f).get? other = some g := by
  rw [List.mem_append, List.mem_singleton, h.mem_order_iff, Dict.get?_insert]
  by_cases hother : other = text <;> simp [hother]

/-- Storing a formula under its text keeps the parts in step. -/
private theorem Coherent.store (h : c.Coherent) (hf : f.text = text) :
    (c.store text f).Coherent := by
  have htexts : ∀ other g, (c.store text f).formulas.get? other = some g → g.text = other := by
    intro other g hg
    rcases get?_store hg with ⟨rfl, rfl⟩ | hg
    · exact hf
    · exact h.text_eq other g hg
  obtain ⟨-, heq⟩ | ⟨-, ⟨hcontains, heq⟩ | ⟨hcontains, heq⟩⟩ := store_cases c text f
  · rwa [heq]
  · rw [heq] at htexts ⊢
    refine ⟨h.nodup, fun other => ?_, h.length_order_le, htexts⟩
    -- the text had a formula, so that it was in the order before
    have htext : text ∈ c.order :=
      (h.mem_order_iff text).mpr (Option.isSome_iff_exists.mp hcontains)
    refine Iff.trans ?_ (h.mem_append_iff other)
    rw [List.mem_append, List.mem_singleton]
    exact ⟨.inl, fun hor => hor.elim id fun heq => heq ▸ htext⟩
  · rw [heq] at htexts ⊢
    have hnodup := h.nodup_append hcontains
    refine ⟨hnodup.sublist (List.drop_sublist _ _), fun other => ?_, ?_, htexts⟩
    · -- what is left of the order is what does not leave
      simp only [Dict.get?_foldl_erase]
      constructor
      · intro hleft
        rw [if_neg fun hgone => List.disjoint_take_drop hnodup (Nat.le_refl _) hgone hleft]
        exact (h.mem_append_iff other).mp (List.mem_of_mem_drop hleft)
      · rintro ⟨g, hg⟩
        split at hg
        · cases hg
        · rename_i hgone
          have hmem := (h.mem_append_iff other).mpr ⟨g, hg⟩
          rw [← List.take_append_drop _ (c.order ++ [text]), List.mem_append] at hmem
          exact hmem.resolve_left hgone
    · simp only [List.length_drop]
      omega

/-- The two parts of a cache are in step after all requests. -/
theorem coherent_reached (functions : Registry) (capacity : Nat) (history : List Request) :
    (reached functions capacity history).Coherent := by
  have hnone : ∀ text, text ∈ ([] : List String) ↔
      ∃ f, (Dict.empty : Dict Formula).get? text = some f := by simp
  refine reached_induction ⟨List.nodup_nil, hnone, Nat.zero_le _, nofun⟩
    (fun _ counts hc => hc.with_counts counts)
    (fun c text types f hc hcompile => hc.store (Formula.text_of_compile hcompile))
    (fun _ _ => ⟨List.nodup_nil, hnone, Nat.zero_le _, nofun⟩) history

private theorem Coherent.size_eq (h : c.Coherent) : c.size = c.order.length := by
  have hperm : c.formulas.names.Perm c.order := by
    refine (List.perm_ext_iff_of_nodup c.formulas.nodup h.nodup).mpr fun text => ?_
    rw [h.mem_order_iff]
    exact Dict.mem_names_iff
  rw [← hperm.length_eq]
  exact (List.length_map _).symm

/-- A formula that is stored does not leave at once, if there is any room. -/
private theorem Coherent.get?_store_self (h : c.Coherent) (hcapacity : 0 < c.capacity) :
    (c.store text f).formulas.get? text = some f := by
  have hinsert : (c.formulas.insert text f).get? text = some f := by simp [Dict.get?_insert]
  obtain ⟨hzero, -⟩ | ⟨-, ⟨-, heq⟩ | ⟨hcontains, heq⟩⟩ := store_cases c text f
  · omega
  · rw [heq, hinsert]
  · -- it is the last in the order, and not all texts leave
    have hexcess : (c.order ++ [text]).length - c.capacity ≤ c.order.length := by
      rw [List.length_append, List.length_singleton]
      omega
    have hlast : text ∉ (c.order ++ [text]).take ((c.order ++ [text]).length - c.capacity) := by
      rw [List.take_append_of_le_length hexcess]
      exact fun htext => h.notMem_order hcontains (List.mem_of_mem_take htext)
    rw [heq]
    simp only [Dict.get?_foldl_erase, if_neg hlast, hinsert]

end

/-! ### The queue of a cache -/

/-- The order and the dictionary as one list. -/
def queue (c : Cache) : Queue := ⟨listed c.formulas c.order, c.counts⟩

section

variable {c : Cache}

private theorem Coherent.find?_queue (h : c.Coherent) (text : String) :
    c.queue.find? text = c.formulas.get? text :=
  find?_listed fun f hf => (h.mem_order_iff text).mpr ⟨f, hf⟩

private theorem Coherent.map_fst_queue (h : c.Coherent) : c.queue.entries.map Prod.fst = c.order :=
  map_fst_listed fun text htext => (h.mem_order_iff text).mp htext

/-- A formula for a text that has one replaces it, and one for a new text is put at the end. -/
private theorem Coherent.queue_store (h : c.Coherent) (text : String) (f : Formula) :
    (c.store text f).queue =
      if c.formulas.contains text then c.queue.replace text f
      else c.queue.push c.capacity text f := by
  obtain ⟨hcapacity, heq⟩ | ⟨hcapacity, ⟨hcontains, heq⟩ | ⟨hcontains, heq⟩⟩ :=
    store_cases c text f
  · -- without room no text has a formula
    have hempty : c.order = [] :=
      List.eq_nil_of_length_eq_zero (Nat.le_zero.mp (hcapacity ▸ h.length_order_le))
    have hnew : ¬ c.formulas.contains text = true := fun hcontains => by
      have htext := (h.mem_order_iff text).mpr (Option.isSome_iff_exists.mp hcontains)
      rw [hempty] at htext
      cases htext
    rw [heq, if_neg hnew, Queue.push, if_pos hcapacity]
  · rw [heq, if_pos hcontains, queue, queue, Queue.replace,
      listed_insert (Option.isSome_iff_exists.mp hcontains)]
  · -- the new text is listed last, and then the front is dropped from both
    have hlength : c.queue.entries.length = c.order.length :=
      length_listed fun other hother => (h.mem_order_iff other).mp hother
    have hlisted := listed_drop (h.nodup_append hcontains)
      (fun other hother => (h.mem_append_iff (f := f) other).mp hother)
      (Nat.sub_le (c.order ++ [text]).length c.capacity)
    rw [listed_append (h.notMem_order hcontains), List.length_append, List.length_singleton]
      at hlisted
    rw [heq, hcontains, if_neg Bool.false_ne_true, Queue.push, if_neg (Nat.ne_of_gt hcapacity),
      hlength]
    simp only [queue, List.length_append, List.length_singleton, hlisted]

/-- Compiling a text anew does to the queue what its success or failure asks for. -/
private theorem Coherent.queue_compileAnew (h : c.Coherent) (text : String) (types : Declarations) :
    (c.compileAnew text types).2.queue =
      match Formula.compile ⟨types, c.functions⟩ text with
      | .error _ => c.queue
      | .ok f =>
        if c.formulas.contains text then c.queue.replace text f
        else c.queue.push c.capacity text f := by
  unfold compileAnew
  cases Formula.compile ⟨types, c.functions⟩ text with
  | error e => rfl
  | ok f => exact h.queue_store text f

/-- A request for a formula is a lookup in the queue. -/
private theorem Coherent.queue_compile (h : c.Coherent) (text : String) (types : Declarations) :
    (c.compile text types).2.queue = c.queue.lookup c.functions c.capacity text types := by
  unfold compile Queue.lookup
  rw [h.find?_queue]
  cases hget : c.formulas.get? text with
  | none =>
    refine ((h.with_counts _).queue_compileAnew text types).trans ?_
    simp only [Dict.contains, hget, Option.isSome_none, if_neg Bool.false_ne_true]
    rfl
  | some f =>
    dsimp only
    split
    · rfl
    · refine ((h.with_counts _).queue_compileAnew text types).trans ?_
      simp only [Dict.contains, hget, Option.isSome_some, if_true]
      rfl

/-- A request does to a cache what it does to its queue. -/
theorem Coherent.queue_after (h : c.Coherent) (request : Request) :
    (c.after request).queue = c.queue.after c.functions c.capacity request := by
  cases request with
  | compile text types => exact h.queue_compile text types
  | evaluate text types binding =>
    rw [after, evaluate_snd]
    exact h.queue_compile text types
  | clear => rfl

/-- A compiled formula is there afterwards, if there is any room. -/
private theorem Coherent.get?_compile (h : c.Coherent) (hcapacity : 0 < c.capacity) {text : String}
    {types : Declarations} {f : Formula} (hf : (c.compile text types).1 = .ok f) :
    (c.compile text types).2.formulas.get? text = some f := by
  obtain ⟨counts, ⟨g, hget, -, heq⟩ | heq⟩ := compile_cases c text types
  · rw [heq] at hf ⊢
    obtain rfl : g = f := Except.ok.inj hf
    exact hget
  · rw [heq, compileAnew] at hf ⊢
    cases hcompile : Formula.compile ⟨types, c.functions⟩ text with
    | error e =>
      rw [hcompile] at hf
      cases hf
    | ok g =>
      rw [hcompile] at hf
      obtain rfl : g = f := Except.ok.inj hf
      exact (h.with_counts counts).get?_store_self hcapacity

end

private theorem queue_reached (functions : Registry) (capacity : Nat) (history : List Request) :
    (reached functions capacity history).queue = Queue.reached functions capacity history := by
  induction history using List.reverseRecOn with
  | nil => rfl
  | append_singleton history request ih =>
    have hafter := (coherent_reached functions capacity history).queue_after request
    obtain ⟨hfunctions, hcapacity⟩ := settings_reached functions capacity history
    rw [hfunctions, hcapacity, ih] at hafter
    rw [reached, Queue.reached, List.foldl_append, List.foldl_append]
    exact hafter

/-- A cache is the bounded queue of what was asked of it: the order has the texts of the queue, the
dictionary finds what is found in the queue, and the counts are the same. So the order has the texts
that have formulas once each, there are no more than there is room for, every formula is under its
text, a formula that was just compiled is there if there is any room, and all lookups are
counted. -/
theorem reached_refines_queue (functions : Registry) (capacity : Nat) (history : List Request) :
    let c := reached functions capacity history
    let q := Queue.reached functions capacity history
    (c.order = q.entries.map Prod.fst ∧ (∀ text, c.formulas.get? text = q.find? text) ∧
        c.counts = q.counts) ∧
      (c.order.Nodup ∧ ∀ text, text ∈ c.order ↔ text ∈ c.formulas.names) ∧
      c.size ≤ capacity ∧
      (∀ text f, c.formulas.get? text = some f → f.text = text) ∧
      (∀ text types f, 0 < capacity → (c.compile text types).1 = .ok f →
        (c.compile text types).2.formulas.get? text = some f) ∧
      c.counts.hits + c.counts.misses + c.counts.recompilations =
        history.countP Request.isLookup := by
  intro c q
  have hc : c.Coherent := coherent_reached functions capacity history
  have hcapacity : c.capacity = capacity := (settings_reached functions capacity history).2
  have hqueue : c.queue = q := queue_reached functions capacity history
  have hcounts : c.counts = q.counts := by rw [← hqueue]; rfl
  refine ⟨⟨?_, fun text => ?_, hcounts⟩, ⟨hc.nodup, fun text => ?_⟩, ?_, hc.text_eq, ?_, ?_⟩
  · rw [← hqueue, hc.map_fst_queue]
  · rw [← hqueue, hc.find?_queue]
  · rw [hc.mem_order_iff, Dict.mem_names_iff]
  · rw [hc.size_eq, ← hcapacity]
    exact hc.length_order_le
  · intro text types f hroom
    exact hc.get?_compile (hcapacity ▸ hroom)
  · rw [hcounts]
    exact Queue.lookups_reached functions capacity history

/-- With room for one formula, a second one makes the first leave, which has to be compiled again
then and is there afterwards. -/
theorem reached_refines_queue_of_second_formula :
    let c := reached Registry.empty 1 [.compile "=1" Dict.empty, .compile "=2" Dict.empty]
    c.order = ["=2"] ∧ c.counts = ⟨0, 2, 1, 0⟩ ∧
      ∃ f, (c.compile "=1" Dict.empty).1 = .ok f ∧
        (c.compile "=1" Dict.empty).2.formulas.get? "=1" = some f := by
  intro c
  obtain ⟨⟨horder, -, hcounts⟩, -, -, -, hkept, -⟩ := reached_refines_queue Registry.empty 1
    [.compile "=1" Dict.empty, .compile "=2" Dict.empty]
  refine ⟨horder.trans (by decide +kernel), hcounts.trans (by decide +kernel), ?_⟩
  cases hcompile : (c.compile "=1" Dict.empty).1 with
  | ok f => exact ⟨f, rfl, hkept "=1" Dict.empty f Nat.one_pos hcompile⟩
  | error e =>
    have hok : (c.compile "=1" Dict.empty).1.toOption.isSome = true := by decide +kernel
    rw [hcompile] at hok
    cases hok

end Cache

end TypedFormula
