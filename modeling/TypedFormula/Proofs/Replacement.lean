import Mathlib
import TypedFormula.Library.Strings

/-!
# Replaced texts

A text is split at the occurrences of another one, found from left to right: a piece ends where
there first is an occurrence, and the search goes on behind it (`Text.Splits`). There is one split
unless the text that is sought is empty, since a piece that ends later would hold an occurrence.

Replacing all occurrences joins the pieces. Replacing one of them cuts the text instead, at offsets
in bytes that another search finds. The offsets are those of the ends of pieces, so they stand
between characters, and both ways replace the same occurrences.

Main statements:

* `Text.Splits.unique`, `Text.splits_pieces` — the split at occurrences;
* `Text.getElem?_occurrences` — an occurrence begins where a piece ends;
* `Library.substitute_replaces_occurrences` — what is replaced.
-/

namespace TypedFormula

namespace Text

/-! ### The split at occurrences -/

/-- The pieces of a text between the occurrences of another one, found from left to right without
overlap. -/
inductive Splits (old : List Char) : List Char → List (List Char) → Prop where
  /-- A text without an occurrence is the only piece. -/
  | whole {text : List Char} (h : ¬ old <:+: text) : Splits old text [text]
  /-- The first piece ends at the first occurrence: with the occurrence behind it, it holds no
  other one. -/
  | cut {piece rest : List Char} {ps : List (List Char)}
      (hfirst : ∀ before after, piece ++ old = before ++ old ++ after → after = [])
      (h : Splits old rest ps) : Splits old (piece ++ old ++ rest) (piece :: ps)

section

variable {old text : List Char} {ps qs : List (List Char)}

private theorem Splits.ne_nil (h : Splits old text ps) : ps ≠ [] := by
  cases h <;> exact List.cons_ne_nil _ _

/-- Two first pieces of a text with an occurrence behind each are the same, if there is no other
occurrence in either: one begins with the other. -/
private theorem eq_of_first {piece rest piece' rest' : List Char}
    (hfirst : ∀ before after, piece ++ old = before ++ old ++ after → after = [])
    (hfirst' : ∀ before after, piece' ++ old = before ++ old ++ after → after = [])
    (h : piece ++ old ++ rest = piece' ++ old ++ rest') : piece = piece' ∧ rest = rest' := by
  have hsame : piece ++ old = piece' ++ old := by
    rcases List.append_eq_append_iff.mp h with ⟨more, hmore, -⟩ | ⟨more, hmore, -⟩
    · rw [hmore, hfirst' piece more hmore, List.append_nil]
    · rw [hmore, hfirst piece' more hmore, List.append_nil]
  exact ⟨List.append_cancel_right hsame, List.append_cancel_left (hsame ▸ h)⟩

/-- There is only one split. -/
theorem Splits.unique (h : Splits old text ps) (h' : Splits old text qs) : ps = qs := by
  induction h generalizing qs with
  | whole hnone =>
    cases h' with
    | whole => rfl
    | cut => exact absurd ⟨_, _, rfl⟩ hnone
  | @cut piece rest ps hfirst _ ih =>
    generalize htext : piece ++ old ++ rest = text at h'
    cases h' with
    | whole hnone => exact absurd ⟨_, _, htext⟩ hnone
    | cut hfirst' hrest =>
      obtain ⟨rfl, rfl⟩ := eq_of_first hfirst hfirst' htext
      rw [ih hrest]

private theorem Splits.intercalate_eq (h : Splits old text ps) :
    List.intercalate old ps = text := by
  induction h with
  | whole => simp [List.intercalate]
  | cut _ hrest ih => rw [List.intercalate_cons_of_ne_nil hrest.ne_nil, ih]

/-- A character at which there is no occurrence belongs to the first piece. -/
private theorem Splits.consHead {c : Char} (h : Splits old text ps) (hc : ¬ old <+: c :: text) :
    Splits old (c :: text) (consHead c ps) := by
  cases h with
  | whole hnone => exact .whole fun hinfix => (List.infix_cons_iff.mp hinfix).elim hc hnone
  | @cut piece rest ps hfirst hrest =>
    have hfirst' : ∀ before after, (c :: piece) ++ old = before ++ old ++ after → after = [] := by
      intro before after heq
      cases before with
      | nil =>
        have hprefix : old ++ (after ++ rest) = c :: (piece ++ old ++ rest) := by
          rw [← List.append_assoc, ← List.nil_append old, ← heq]
          simp
        exact absurd ⟨_, hprefix⟩ hc
      | cons b before => exact hfirst before after (List.cons.inj heq).2
    exact .cut hfirst' hrest

end

/-- The search from left to right finds the split. -/
theorem splits_pieces (o : Char) (old text : List Char) :
    Splits (o :: old) text (pieces o old text) := by
  fun_induction pieces o old text with
  | case1 => exact .whole (by simp)
  | case2 c rest hmatch ih =>
    obtain ⟨tail, htail⟩ := List.isPrefixOf_iff_prefix.mp hmatch
    obtain ⟨rfl, rfl⟩ := List.cons.inj htail
    rw [List.append_eq, List.drop_left] at ih ⊢
    have hfirst : ∀ before after, [] ++ o :: old = before ++ o :: old ++ after → after = [] := by
      intro before after heq
      have hlength := congrArg List.length heq
      simp only [List.length_append, List.length_nil] at hlength
      exact List.length_eq_zero_iff.mp (by omega)
    have hcut : Splits (o :: old) ([] ++ o :: old ++ tail) ([] :: pieces o old tail) :=
      .cut hfirst ih
    exact hcut
  | case3 c rest hmatch ih =>
    exact ih.consHead fun hprefix => hmatch (List.isPrefixOf_iff_prefix.mpr hprefix)

/-! ### Occurrences and cuts -/

private theorem byteLength_append (a b : List Char) :
    byteLength (a ++ b) = byteLength a + byteLength b := by
  induction a with
  | nil => exact (Nat.zero_add _).symm
  | cons c a ih => rw [List.cons_append, byteLength, byteLength, ih, Nat.add_assoc]

private theorem take_consHead {c : Char} {n : Nat} {ps : List (List Char)} (h : ps ≠ []) :
    (consHead c ps).take (n + 1) = consHead c (ps.take (n + 1)) := by
  cases ps with
  | nil => exact absurd rfl h
  | cons piece ps => rfl

/-- A character in front of the first piece makes no piece. -/
private theorem length_consHead {c : Char} {ps : List (List Char)} (h : ps ≠ []) :
    (consHead c ps).length = ps.length := by
  cases ps with
  | nil => exact absurd rfl h
  | cons piece ps => rfl

/-- An occurrence begins where a piece ends that is not the last one. -/
theorem getElem?_occurrences (o : Char) (old : List Char) (offset : Nat) (text : List Char)
    (n : Nat) : (occurrences o old offset text)[n]? =
      if n + 1 < (pieces o old text).length then
        some (offset + byteLength (List.intercalate (o :: old) ((pieces o old text).take (n + 1))))
      else none := by
  fun_induction occurrences o old offset text generalizing n with
  | case1 => simp [pieces]
  | case2 offset c rest hmatch ih =>
    have hne := pieces_ne_nil o old (rest.drop old.length)
    have hpos := List.length_pos_iff.mpr hne
    rw [pieces, if_pos hmatch]
    cases n with
    | zero =>
      rw [if_pos (by rw [List.length_cons]; omega)]
      simp [List.intercalate, byteLength]
    | succ n =>
      have htake : (pieces o old (rest.drop old.length)).take (n + 1) ≠ [] := by
        simpa using hne
      rw [List.getElem?_cons_succ, ih, List.take_succ_cons,
        List.intercalate_cons_of_ne_nil htake, List.nil_append, byteLength_append, Nat.add_assoc]
      simp only [List.length_cons, Nat.add_lt_add_iff_right]
  | case3 offset c rest hmatch ih =>
    have hne := pieces_ne_nil o old rest
    have htake : (pieces o old rest).take (n + 1) ≠ [] := by simpa using hne
    rw [pieces, if_neg hmatch, ih, length_consHead hne, take_consHead hne,
      intercalate_consHead c htake, byteLength, Nat.add_assoc]

private theorem splitAtByte_append (a b : List Char) :
    splitAtByte (byteLength a) (a ++ b) = (a, b) := by
  induction a with
  | nil =>
    cases b with
    | nil => rfl
    | cons c b => exact if_pos c.utf8Size_pos
  | cons c a ih =>
    rw [byteLength, List.cons_append, splitAtByte, if_neg (by omega), Nat.add_sub_cancel_left, ih]
    rfl

/-- Joined pieces are the first ones joined, the text in between and the other ones joined. -/
private theorem intercalate_take_drop {old : List Char} {ps : List (List Char)} {n : Nat}
    (h : n + 1 < ps.length) : List.intercalate old ps =
      List.intercalate old (ps.take (n + 1)) ++ old ++ List.intercalate old (ps.drop (n + 1)) := by
  induction n generalizing ps with
  | zero =>
    cases ps with
    | nil => cases h
    | cons piece ps =>
      have hne : ps ≠ [] := List.length_pos_iff.mp (Nat.lt_of_succ_lt_succ h)
      rw [List.intercalate_cons_of_ne_nil hne]
      simp [List.intercalate]
  | succ n ih =>
    cases ps with
    | nil => cases h
    | cons piece ps =>
      have hlength : n + 1 < ps.length := Nat.lt_of_succ_lt_succ h
      have hne : ps ≠ [] := List.length_pos_iff.mp (by omega)
      have htake : ps.take (n + 1) ≠ [] := by simpa using hne
      rw [List.intercalate_cons_of_ne_nil hne, List.take_succ_cons, List.drop_succ_cons,
        List.intercalate_cons_of_ne_nil htake, ih hlength]
      simp

/-- Replacing an occurrence replaces what is between two pieces. -/
private theorem replaceNth_of_splits {old new text : List Char} {ps : List (List Char)} {n : Nat}
    (hold : old ≠ []) (h : Splits old text ps) :
    replaceNth old new n text =
      if n + 1 < ps.length then
        List.intercalate old (ps.take (n + 1)) ++ new ++ List.intercalate old (ps.drop (n + 1))
      else text := by
  obtain ⟨o, tail, rfl⟩ := List.exists_cons_of_ne_nil hold
  obtain rfl := h.unique (splits_pieces o tail text)
  rw [replaceNth, getElem?_occurrences, Nat.zero_add]
  split_ifs with hn
  · have htext := h.intercalate_eq.symm.trans (intercalate_take_drop hn)
    set before := List.intercalate (o :: tail) ((pieces o tail text).take (n + 1))
    set after := List.intercalate (o :: tail) ((pieces o tail text).drop (n + 1))
    have hbehind : splitAtByte (byteLength before + byteLength (o :: tail)) text =
        (before ++ (o :: tail), after) := by
      rw [← byteLength_append, htext, splitAtByte_append]
    have hfront : splitAtByte (byteLength before) text = (before, (o :: tail) ++ after) := by
      rw [htext, List.append_assoc, splitAtByte_append]
    simp only [hbehind, hfront]
  · rfl

/-- Replacing all occurrences replaces what is between the pieces. -/
private theorem replaceAll_of_splits {old new text : List Char} {ps : List (List Char)}
    (hold : old ≠ []) (h : Splits old text ps) :
    replaceAll old new text = List.intercalate new ps := by
  obtain ⟨o, tail, rfl⟩ := List.exists_cons_of_ne_nil hold
  rw [replaceAll, h.unique (splits_pieces o tail text)]

end Text

/-! ### Replaced occurrences -/

namespace Library

section

variable {v w u x : Value} {s old new : String} {n : Int64}

private theorem substitute_all (hv : v.toText = .ok s) (hw : w.toText = .ok old)
    (hu : u.toText = .ok new) : substitute [v, w, u] =
      .ok (.string (String.ofList (Text.replaceAll old.toList new.toList s.toList))) := by
  rw [substitute, textArgument_of_toText rfl hv, textArgument_of_toText rfl hw,
    textArgument_of_toText rfl hu]
  rfl

private theorem instanceArgument_of_toInteger (hx : x.toInteger = .ok n) :
    instanceArgument [v, w, u, x] =
      if n.toInt < 1 then .error (.argument 4 .instanceBeforeFirst)
      else .ok (some (n.toInt - 1).toNat) := by
  have hgiven : 3 < [v, w, u, x].length := Nat.lt_succ_self 3
  rw [instanceArgument, if_pos hgiven, integerArgument_of_toInteger rfl hx]
  rfl

private theorem substitute_instance (hv : v.toText = .ok s) (hw : w.toText = .ok old)
    (hu : u.toText = .ok new) (hx : x.toInteger = .ok n) (hn : 1 ≤ n.toInt) :
    substitute [v, w, u, x] = .ok (.string
      (String.ofList (Text.replaceNth old.toList new.toList (n.toInt - 1).toNat s.toList))) := by
  rw [substitute, textArgument_of_toText rfl hv, textArgument_of_toText rfl hw,
    textArgument_of_toText rfl hu, instanceArgument_of_toInteger hx, if_neg (by omega)]
  rfl

private theorem substitute_before_first (hv : v.toText = .ok s) (hw : w.toText = .ok old)
    (hu : u.toText = .ok new) (hx : x.toInteger = .ok n) (hn : n.toInt < 1) :
    substitute [v, w, u, x] = .error (.argument 4 .instanceBeforeFirst) := by
  rw [substitute, textArgument_of_toText rfl hv, textArgument_of_toText rfl hw,
    textArgument_of_toText rfl hu, instanceArgument_of_toInteger hx, if_pos hn]
  rfl

end

/-- The occurrences that are replaced are those of the one split of the text: all of them, or the
one with the number given, counted from one. Nothing is replaced where there is none with this
number or an empty text is sought, and a number before one is refused in any case. -/
theorem substitute_replaces_occurrences {v w u : Value} {s old new : String}
    (hv : v.toText = .ok s) (hw : w.toText = .ok old) (hu : u.toText = .ok new) :
    (∀ x n, x.toInteger = .ok n → n.toInt < 1 →
        substitute [v, w, u, x] = .error (.argument 4 .instanceBeforeFirst)) ∧
      (old = "" → substitute [v, w, u] = .ok (.string s) ∧
        ∀ x n, x.toInteger = .ok n → 1 ≤ n.toInt → substitute [v, w, u, x] = .ok (.string s)) ∧
      (old ≠ "" → ∃ ps, Text.Splits old.toList s.toList ps ∧
        (∀ qs, Text.Splits old.toList s.toList qs → qs = ps) ∧
        List.intercalate old.toList ps = s.toList ∧
        substitute [v, w, u] = .ok (.string (String.ofList (List.intercalate new.toList ps))) ∧
        ∀ x n, x.toInteger = .ok n → 1 ≤ n.toInt → substitute [v, w, u, x] = .ok (.string
          (if n.toInt < (ps.length : ℤ) then
            String.ofList (List.intercalate old.toList (ps.take n.toInt.toNat) ++ new.toList ++
              List.intercalate old.toList (ps.drop n.toInt.toNat))
          else s))) := by
  refine ⟨fun x n hx hn => substitute_before_first hv hw hu hx hn, fun hempty => ?_,
    fun hold => ?_⟩
  · subst hempty
    refine ⟨?_, fun x n hx hn => ?_⟩
    · rw [substitute_all hv hw hu, String.toList_empty, Text.replaceAll, String.ofList_toList]
    · rw [substitute_instance hv hw hu hx hn, String.toList_empty, Text.replaceNth,
        String.ofList_toList]
  · have hne : old.toList ≠ [] := fun hnil => hold (String.toList_eq_nil_iff.mp hnil)
    obtain ⟨o, tail, hcons⟩ := List.exists_cons_of_ne_nil hne
    have hsplits : Text.Splits old.toList s.toList (Text.pieces o tail s.toList) :=
      hcons ▸ Text.splits_pieces o tail s.toList
    refine ⟨_, hsplits, fun qs hqs => hqs.unique hsplits, hsplits.intercalate_eq, ?_,
      fun x n hx hn => ?_⟩
    · rw [substitute_all hv hw hu, Text.replaceAll_of_splits hne hsplits]
    · -- occurrences are searched by numbers from zero
      obtain ⟨k, hk⟩ := Int.exists_add_of_le hn
      have hindex : (n.toInt - 1).toNat = k := by omega
      have hnumber : n.toInt.toNat = k + 1 := by omega
      rw [substitute_instance hv hw hu hx hn, Text.replaceNth_of_splits hne hsplits, hindex,
        hnumber]
      by_cases hlt : k + 1 < (Text.pieces o tail s.toList).length
      · rw [if_pos hlt, if_pos (by omega)]
      · rw [if_neg hlt, if_neg (by omega), String.ofList_toList]

/-- An occurrence that starts inside another one is none, also between characters of several bytes,
and none is found in what was put in. -/
theorem substitute_replaces_occurrences_of_overlap :
    Text.Splits "éaé".toList "éaéaéa".toList [[], "aéa".toList] ∧
      substitute [.string "éaéaéa", .string "éaé", .string "éaéb"] =
        .ok (.string "éaébaéa") := by
  obtain ⟨-, -, h⟩ := substitute_replaces_occurrences (v := .string "éaéaéa")
    (w := .string "éaé") (u := .string "éaéb") rfl rfl rfl
  obtain ⟨ps, hps, hunique, -, hall, -⟩ := h (by decide)
  have hpieces : Text.Splits "éaé".toList "éaéaéa".toList [[], "aéa".toList] := by
    have hfound := Text.splits_pieces 'é' "aé".toList "éaéaéa".toList
    simpa [Text.pieces, Text.consHead] using hfound
  obtain rfl := hunique _ hpieces
  exact ⟨hpieces, hall⟩

end Library

end TypedFormula
