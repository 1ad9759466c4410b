import TypedFormula.Registry

/-!
# Upper case is reached in one step

A text in upper case stays as it is when it is turned to upper case again, so that a name and its
upper-case form find the same function in a registry.

The tables of upper case list runs of characters and single characters that expand. What they map
to is again runs and single characters, and no such run meets a run that is mapped
(`upperImages_apart`). Two runs are seen to be apart by their ends or, where they interleave, by
the parity of their members, so that nothing is evaluated for each character.

Main statements:

* `Text.upper_upper` — upper case is reached in one step;
* `Registry.lookup?_upper` — a name and its upper-case form mean the same function.
-/

namespace TypedFormula

namespace Text

/-! ### Runs that are apart -/

namespace CaseRun

/-- A single code point, as a run that can be told from neighbours by parity. -/
def point (n : Nat) : CaseRun := ⟨n, n, 2, 0⟩

/-- What a run is mapped to. -/
def image (run : CaseRun) : CaseRun :=
  ⟨(run.first + run.shift).toNat, (run.last + run.shift).toNat, run.step, 0⟩

/-- Whether all members have the parity of the first one. -/
def keepsParity (run : CaseRun) : Bool := run.step == 2 || run.first == run.last

/-- Whether two runs are seen to have no member in common, by their ends or by parity. -/
def isApart (run other : CaseRun) : Bool :=
  Nat.blt run.last other.first || Nat.blt other.last run.first ||
    (run.keepsParity && other.keepsParity && (run.first + other.first) % 2 == 1)

private theorem le_and_le_of_holds {run : CaseRun} {n : Nat} (h : run.holds n = true) :
    run.first ≤ n ∧ n ≤ run.last ∧ (n - run.first) % run.step = 0 := by
  simpa [holds, and_assoc] using h

private theorem mod_two_of_holds {run : CaseRun} {n : Nat} (hrun : run.keepsParity = true)
    (h : run.holds n = true) : n % 2 = run.first % 2 := by
  obtain ⟨hfirst, hlast, hstep⟩ := le_and_le_of_holds h
  rcases (by simpa [keepsParity] using hrun : run.step = 2 ∨ run.first = run.last) with h2 | hone
  · rw [h2] at hstep
    omega
  · omega

/-- A member of a run is no member of a run that is apart. -/
private theorem not_holds_of_isApart {run other : CaseRun} (hapart : run.isApart other = true)
    {n : Nat} (h : run.holds n = true) : other.holds n = false := by
  refine Bool.eq_false_iff.mpr fun hother => ?_
  obtain ⟨hfirst, hlast, -⟩ := le_and_le_of_holds h
  obtain ⟨hfirst', hlast', -⟩ := le_and_le_of_holds hother
  rcases (by simpa [isApart, or_assoc] using hapart :
      run.last < other.first ∨ other.last < run.first ∨
        (run.keepsParity = true ∧ other.keepsParity = true) ∧
          (run.first + other.first) % 2 = 1) with hlt | hlt | ⟨⟨hrun, hother'⟩, hparity⟩
  · omega
  · omega
  · have hn := mod_two_of_holds hrun h
    have hn' := mod_two_of_holds hother' hother
    omega

private theorem holds_point (n : Nat) : (point n).holds n = true := by simp [holds, point]

private theorem holds_image {run : CaseRun} (hshift : 0 ≤ run.first + run.shift) {n : Nat}
    (h : run.holds n = true) : run.image.holds (n + run.shift).toNat = true := by
  obtain ⟨hfirst, hlast, hstep⟩ := le_and_le_of_holds h
  have hdistance : (n + run.shift).toNat - (run.first + run.shift).toNat = n - run.first := by
    omega
  have hlower : (run.first + run.shift).toNat ≤ (n + run.shift).toNat := by omega
  have hupper : (n + run.shift).toNat ≤ (run.last + run.shift).toNat := by omega
  simp [holds, image, hdistance, hlower, hupper, hstep]

end CaseRun

/-! ### The tables -/

/-- The characters that have another form in upper case, as runs. -/
def upperKeys : List CaseRun :=
  upperRuns ++ upperExpansions.map fun expansion => .point expansion.1

/-- The characters of forms in upper case, as runs. -/
def upperImages : List CaseRun :=
  upperRuns.map .image ++ upperExpansions.flatMap fun expansion => expansion.2.map .point

/-- Whether a code point has no other form in upper case. -/
def IsUpper (n : Nat) : Prop := ∀ key ∈ upperKeys, key.holds n = false

/-- No form in upper case has another form in upper case. -/
theorem upperImages_apart :
    (upperImages.all fun run => upperKeys.all fun key => run.isApart key) = true := by
  decide +kernel

private theorem upperRuns_shift : ∀ run ∈ upperRuns, 0 ≤ run.first + run.shift := by
  decide +kernel

private theorem isUpper_of_holds {run : CaseRun} (hrun : run ∈ upperImages) {n : Nat}
    (h : run.holds n = true) : IsUpper n := by
  intro key hkey
  have hall := List.all_eq_true.mp (List.all_eq_true.mp upperImages_apart run hrun) key hkey
  exact CaseRun.not_holds_of_isApart hall h

/-- What is no code point is read as one that is in upper case. -/
private theorem isUpper_ofNat {n : Nat} (h : IsUpper n) : IsUpper (Char.ofNat n).toNat := by
  by_cases hn : n.isValidChar
  · have hself : (Char.ofNat n).toNat = n := by
      rw [Char.ofNat, dif_pos hn]
      rfl
    rwa [hself]
  · have hzero : (Char.ofNat n).toNat = 0 := by
      rw [Char.ofNat, dif_neg hn]
      rfl
    rw [hzero]
    unfold IsUpper
    decide +kernel

/-! ### Characters and texts -/

/-- A character in upper case stays. -/
theorem upperChar_of_isUpper {c : Char} (h : IsUpper c.toNat) : upperChar c = [c] := by
  have hruns : (upperRuns.find? fun run => run.holds c.toNat) = none := by
    rw [List.find?_eq_none]
    intro run hrun
    rw [h run (List.mem_append_left _ hrun)]
    exact Bool.false_ne_true
  have hexpansions : (upperExpansions.find? fun expansion => expansion.1 == c.toNat) = none := by
    rw [List.find?_eq_none]
    intro expansion hexpansion heq
    have hpoint := h (.point expansion.1)
      (List.mem_append_right _ (List.mem_map_of_mem hexpansion))
    rw [← eq_of_beq heq, CaseRun.holds_point] at hpoint
    cases hpoint
  simp only [upperChar, changeCase, hruns, hexpansions]

/-- The characters of an upper-case form are in upper case. -/
private theorem isUpper_of_mem_upperChar {c d : Char} (h : d ∈ upperChar c) : IsUpper d.toNat := by
  rw [upperChar, changeCase] at h
  split at h
  · rename_i run hfind
    obtain rfl := List.mem_singleton.mp h
    have hrun := List.mem_of_find?_eq_some hfind
    have hholds := List.find?_some (p := fun r : CaseRun => r.holds c.toNat) hfind
    exact isUpper_ofNat (isUpper_of_holds (List.mem_append_left _ (List.mem_map_of_mem hrun))
      (CaseRun.holds_image (upperRuns_shift run hrun) hholds))
  · rename_i hruns
    split at h
    · rename_i expansion hfind
      obtain ⟨n, hn, rfl⟩ := List.mem_map.mp h
      have himage : CaseRun.point n ∈ upperImages :=
        List.mem_append_right _ (List.mem_flatMap.mpr
          ⟨expansion, List.mem_of_find?_eq_some hfind, List.mem_map_of_mem hn⟩)
      exact isUpper_ofNat (isUpper_of_holds himage (CaseRun.holds_point n))
    · rename_i hexpansions
      obtain rfl := List.mem_singleton.mp h
      intro key hkey
      rcases List.mem_append.mp hkey with hkey | hkey
      · exact Bool.eq_false_iff.mpr (List.find?_eq_none.mp hruns key hkey)
      · obtain ⟨expansion, hexpansion, rfl⟩ := List.mem_map.mp hkey
        refine Bool.eq_false_iff.mpr fun hholds => ?_
        obtain ⟨hfirst, hlast, -⟩ := CaseRun.le_and_le_of_holds hholds
        exact List.find?_eq_none.mp hexpansions expansion hexpansion
          (beq_iff_eq.mpr (Nat.le_antisymm hfirst hlast))

private theorem upperChars_of_isUpper {chars : List Char} (h : ∀ c ∈ chars, IsUpper c.toNat) :
    upperChars chars = chars := by
  induction chars with
  | nil => rfl
  | cons c rest ih =>
    obtain ⟨hc, hrest⟩ := List.forall_mem_cons.mp h
    rw [upperChars, List.flatMap_cons, upperChar_of_isUpper hc]
    exact congrArg (c :: ·) (ih hrest)

/-- What stands before the small letters has no other form in upper case. -/
theorem isUpper_of_lt {n : Nat} (h : n < 0x61) : IsUpper n := by
  have hfirst : ∀ key ∈ upperKeys, 0x61 ≤ key.first := by decide +kernel
  intro key hkey
  refine Bool.eq_false_iff.mpr fun hholds => ?_
  have hle := hfirst key hkey
  have hbetween := (CaseRun.le_and_le_of_holds hholds).1
  omega

/-- Texts without small letters and what stands behind them are in upper case. -/
theorem upper_of_lt {s : String} (h : ∀ c ∈ s.toList, c.toNat < 0x61) : upper s = s := by
  rw [upper, upperChars_of_isUpper fun c hc => isUpper_of_lt (h c hc), String.ofList_toList]

/-- Upper case is reached in one step. -/
theorem upper_upper (s : String) : upper (upper s) = upper s := by
  have hchars : upperChars (upperChars s.toList) = upperChars s.toList := by
    refine upperChars_of_isUpper fun d hd => ?_
    obtain ⟨c, -, hc⟩ := List.mem_flatMap.mp hd
    exact isUpper_of_mem_upperChar hc
  rw [upper, upper, String.toList_ofList, hchars]

end Text

/-- A name and its upper-case form mean the same function. -/
theorem Registry.lookup?_upper (r : Registry) (name : String) :
    r.lookup? (Text.upper name) = r.lookup? name := by
  rw [lookup?, lookup?, Text.upper_upper]

end TypedFormula
