import Mathlib
import TypedFormula.Formula.Listing
import TypedFormula.Proofs.PrintedScalars
import TypedFormula.Proofs.Spelling.Words
import TypedFormula.Proofs.Variables

/-!
# The lines of a listing

A listing is meant to have one line for each instruction. Where a line ends is decided by a reader
of lines that knows nothing about instructions (`Text.readLines?`): every line must end in a line
feed and have no other line break, of whatever sort. What a line shows is decided by a reader of
single lines (`readListed?`), which finds the index, the offset and the instruction in it.

Literals stay on their lines, since texts are quoted and numbers have no blanks, and so do calls,
whose names the scanner takes from a few ASCII characters. But a name between braces may have any
characters, line breaks included, and it is listed as it is. So a listing has its lines exactly when
no variable has a line break in its name.

Main statements:

* `Text.readLines?_eq_some_iff` — which texts have which lines;
* `CodeUnit.readListed?_line` — what the line of an instruction shows;
* `Formula.listing_shows_code` — the listing of a formula, and whether it has a line for each
  instruction.
-/

namespace TypedFormula

/-! ### Reading lines -/

namespace Text

/-- The lines of a text in which every line ends in a line feed and has no other line break. -/
def readLines? : List Char → Option (List (List Char))
  | [] => some []
  | c :: rest =>
    if c = '\n' then (readLines? rest).map ([] :: ·)
    else if c ∈ lineBreaks then none
    else
      match readLines? rest with
      | some (line :: lines) => some ((c :: line) :: lines)
      | _ => none

/-- A line is read up to its line feed, and what follows it are the other lines. -/
private theorem readLines?_append {line : List Char} (h : OneLine line) (rest : List Char) :
    readLines? (line ++ '\n' :: rest) = (readLines? rest).map (line :: ·) := by
  induction line with
  | nil => rw [List.nil_append, readLines?, if_pos rfl]
  | cons c line ih =>
    obtain ⟨hc, hline⟩ := oneLine_cons.mp h
    have hfeed : c ≠ '\n' := fun heq => hc (heq ▸ by decide)
    rw [List.cons_append, readLines?, if_neg hfeed, if_neg hc, ih hline]
    cases readLines? rest <;> rfl

/-- The lines of a text are the ones without line breaks that make it up, each with a line feed
behind it. -/
theorem readLines?_eq_some_iff {text : List Char} {lines : List (List Char)} :
    readLines? text = some lines ↔
      (∀ line ∈ lines, OneLine line) ∧ text = lines.flatMap (· ++ ['\n']) := by
  constructor
  · intro h
    induction text generalizing lines with
    | nil =>
      obtain rfl := Option.some.inj h
      exact ⟨List.forall_mem_nil _, rfl⟩
    | cons c rest ih =>
      rw [readLines?] at h
      split at h
      · rename_i hfeed
        obtain ⟨others, hrest, rfl⟩ := Option.map_eq_some_iff.mp h
        obtain ⟨hlines, rfl⟩ := ih hrest
        exact ⟨List.forall_mem_cons.mpr ⟨oneLine_nil, hlines⟩, by rw [hfeed]; rfl⟩
      · split at h
        · cases h
        · rename_i hc
          split at h
          · rename_i line others hrest
            obtain rfl := Option.some.inj h
            obtain ⟨hlines, rfl⟩ := ih hrest
            obtain ⟨hline, hothers⟩ := List.forall_mem_cons.mp hlines
            exact ⟨List.forall_mem_cons.mpr ⟨oneLine_cons.mpr ⟨hc, hline⟩, hothers⟩, rfl⟩
          · cases h
  · rintro ⟨hlines, rfl⟩
    induction lines with
    | nil => rfl
    | cons line lines ih =>
      obtain ⟨hline, hothers⟩ := List.forall_mem_cons.mp hlines
      rw [List.flatMap_cons, List.append_assoc, List.singleton_append, readLines?_append hline,
        ih hothers]
      rfl

/-! ### What stays on a line -/

/-- What has no blanks stays on a line. -/
private theorem oneLine_of_isBlank {chars : List Char} (h : ∀ c ∈ chars, isBlank c = false) :
    OneLine chars := by
  have hblank : lineBreaks.all isBlank = true := by decide
  intro c hc hmem
  exact Bool.noConfusion ((h c hc).symm.trans (List.all_eq_true.mp hblank c hmem))

private theorem oneLine_toString (n : ℕ) : OneLine (toString n).toList :=
  oneLine_of_isBlank fun c hc => isBlank_of_isDigit ((digits_toString n).all c hc)

private theorem oneLine_replicate (n : ℕ) : OneLine (List.replicate n ' ') := by
  intro c hc
  rw [List.eq_of_mem_replicate hc]
  decide

private theorem oneLine_numberText {x : Float} (h : x.isFinite = true) :
    OneLine (numberText x).toList := by
  obtain ⟨negative, hwrites, -⟩ := exists_writesNumber_numberText h
  generalize (numberText x).toList = chars, unsignedZero x = y at hwrites ⊢
  cases hwrites with
  | mk hbody =>
    have hdigits := oneLine_of_isBlank hbody.isBlank_eq_false
    cases negative with
    | true => exact oneLine_cons.mpr ⟨by decide, hdigits⟩
    | false => exact hdigits

/-- The upper case of a name stays on a line, if the name is of ASCII characters and does. -/
private theorem oneLine_upper {name : String} (hascii : ∀ c ∈ name.toList, c.toNat < 0x80)
    (h : OneLine name.toList) : OneLine (upper name).toList := by
  have hsmall : ((List.range 31).all fun n => (upperChar (Char.ofNat (0x61 + n))).all fun d =>
      decide (d ∉ lineBreaks)) = true := by decide +kernel
  intro d hd
  rw [upper, String.toList_ofList] at hd
  obtain ⟨c, hc, hform⟩ := List.mem_flatMap.mp hd
  rcases Nat.lt_or_ge c.toNat 0x61 with hlt | hge
  · -- what stands before the small letters is its own upper case
    rw [upperChar_of_isUpper (isUpper_of_lt hlt), List.mem_singleton] at hform
    exact hform ▸ h c hc
  · have hself : c = Char.ofNat (0x61 + (c.toNat - 0x61)) := by
      rw [Nat.add_sub_cancel' hge, Char.ofNat_toNat]
    have hindex : c.toNat - 0x61 < 31 := by
      have hlast := hascii c hc
      omega
    rw [hself] at hform
    have hall := List.all_eq_true.mp hsmall _ (List.mem_range.mpr hindex)
    exact of_decide_eq_true (List.all_eq_true.mp hall d hform)

end Text

open Text (OneLine)

/-! ### Names of functions -/

/-- An identifier is scanned as such. -/
private theorem eq_scanIdentifier_of_scan {start : Nat} {c : Char} {rest : List Char}
    {s : Scanned Token} {name : String} (h : scan start c rest = .ok s)
    (hname : s.value = .identifier name) :
    s = scanIdentifier start (c :: rest) := by
  have hkept : ¬ (c = '\x22' ∨ c = '$') := by
    intro hc
    have hcase := ignoresCase_of_kept hc h
    rw [hname] at hcase
    cases hcase
  obtain ⟨hquote, hdollar⟩ := not_or.mp hkept
  unfold scan at h
  split at h
  · obtain rfl := Except.ok.inj h
    cases hname
  · split at h
    · obtain rfl := Except.ok.inj h
      unfold scanAngle at hname
      repeat' split at hname
      all_goals cases hname
    · split at h
      · unfold scanNumber at h
        simp only at h
        split at h
        · obtain rfl := Except.ok.inj h
          cases hname
        · cases h
      · split at h
        · exact (Except.ok.inj h).symm
        · cases h

private theorem isIdentifierChar_of_scan {start : Nat} {c : Char} {rest : List Char}
    {s : Scanned Token} {name : String} (h : scan start c rest = .ok s)
    (hname : s.value = .identifier name) :
    ∀ d ∈ name.toList, isIdentifierChar d = true := by
  rw [eq_scanIdentifier_of_scan h hname] at hname
  simp only [scanIdentifier, identifierToken] at hname
  split at hname
  · cases hname
  · obtain rfl := Token.identifier.inj hname
    rw [String.toList_ofList]
    exact fun d hd => List.all_eq_true.mp List.all_takeWhile d hd

/-- The functions that a tree calls have names that stay on a line. -/
private theorem oneLine_of_parseFormula {scope : Scope} {text : String} {e : Expr}
    (h : parseFormula scope text = .ok e) {offset : Nat} {name : String} {kind : StaticKind}
    {args : List Expr} (hn : .call offset name kind args ∈ e.nodes) : OneLine name.toList := by
  obtain ⟨start, rest, tokens, stop, a, -, htokens, hder, hty, -⟩ := parseFormula_ok_iff.mp h
  obtain ⟨t, ht, hmade⟩ := hder.exists_token hty hn
  have hscanned := exists_scan_of_mem_tokenize (start + 1) rest t (by rw [htokens]; exact ht)
  cases hmade with
  | call offset name kind args =>
    obtain ⟨c, others, s, hscan, hvalue⟩ := hscanned
    have hchars := isIdentifierChar_of_scan hscan hvalue
    have hplain : (Text.lineBreaks.any isIdentifierChar) = false := by decide
    refine Text.oneLine_upper (fun d hd => ?_) fun d hd hmem => ?_
    · have hsize := utf8Size_of_isIdentifierChar (hchars d hd)
      exact Nat.lt_succ_of_le (Char.utf8Size_eq_one_iff.mp hsize)
    · exact List.any_eq_false.mp hplain d hmem (hchars d hd)

/-! ### Instructions -/

private theorem oneLine_symbol (op : BinaryOperator) : OneLine op.symbol.toList := by
  rcases op with op | _ | op
  · cases op <;> decide
  · decide
  · cases op <;> decide

/-- The instructions of code stay on their lines, but for the names of variables. -/
private theorem oneLine_text_iff {scope : Scope} {text : String} {e : Expr}
    (h : parseFormula scope text = .ok e) {u : CodeUnit} (hu : u ∈ e.code) :
    OneLine u.instruction.text.toList ↔ ∀ l, u.load? = some l → OneLine l.name.toList := by
  obtain ⟨n, hn, rfl⟩ := Expr.mem_code.mp hu
  have hpush : OneLine "PUSH ".toList := by decide
  have hnone : ∀ {load? : Option Load}, load? = none →
      ∀ l, load? = some l → OneLine l.name.toList :=
    fun hload l hl => absurd (hload.symm.trans hl).symm (Option.some_ne_none l)
  cases n with
  | number offset x =>
    have hx := Text.oneLine_numberText (isFinite_of_parseFormula h hn)
    refine iff_of_true ?_ (hnone rfl)
    simp only [Expr.unit, Expr.instruction, Instruction.text, Value.text, String.toList_append,
      Text.oneLine_append]
    exact ⟨hpush, hx⟩
  | string offset s =>
    refine iff_of_true ?_ (hnone rfl)
    simp only [Expr.unit, Expr.instruction, Instruction.text, Text.quoted, String.toList_append,
      String.toList_ofList, Text.oneLine_append]
    exact ⟨hpush, Text.oneLine_quotedChars _⟩
  | boolean offset b =>
    have hword : OneLine (booleanText b).toList := by cases b <;> decide
    refine iff_of_true ?_ (hnone rfl)
    simp only [Expr.unit, Expr.instruction, Instruction.text, Value.text, String.toList_append,
      Text.oneLine_append]
    exact ⟨hpush, hword⟩
  | reference offset name kind default =>
    have hmarks : OneLine "LOAD ".toList ∧ OneLine "$\x7b".toList ∧ OneLine "\x7d".toList ∧
        OneLine " : ".toList := by decide
    have hkind : OneLine kind.name.toList := by rcases kind with ⟨⟨⟩⟩ | ⟨⟨⟩⟩ <;> decide
    obtain ⟨hload, hopen, hclose, hcolon⟩ := hmarks
    simp only [Expr.unit, Expr.instruction, Instruction.text, referenceText, CodeUnit.load?,
      String.toList_append, Text.oneLine_append, Option.some.injEq, forall_eq', hload, hopen,
      hclose, hcolon, hkind, true_and, and_true]
  | unary offset op operand =>
    have hsymbol : OneLine op.symbol.toList := by cases op <;> decide
    have hword : OneLine "UNARY ".toList := by decide
    refine iff_of_true ?_ (hnone rfl)
    simp only [Expr.unit, Expr.instruction, Instruction.text, String.toList_append,
      Text.oneLine_append]
    exact ⟨hword, hsymbol⟩
  | binary offset op left right =>
    have hword : OneLine "BINARY ".toList := by decide
    refine iff_of_true ?_ (hnone rfl)
    simp only [Expr.unit, Expr.instruction, Instruction.text, String.toList_append,
      Text.oneLine_append]
    exact ⟨hword, oneLine_symbol op⟩
  | call offset name kind args =>
    have hmarks : OneLine "CALL ".toList ∧ OneLine "/".toList := by decide
    refine iff_of_true ?_ (hnone rfl)
    simp only [Expr.unit, Expr.instruction, Instruction.text, String.toList_append,
      Text.oneLine_append]
    exact ⟨⟨⟨hmarks.1, oneLine_of_parseFormula h hn⟩, hmarks.2⟩, Text.oneLine_toString _⟩

private theorem exists_cons_text (i : Instruction) :
    ∃ c rest, i.text.toList = c :: rest ∧ c ≠ ' ' := by
  cases i with
  | push v => cases v <;> simp [Instruction.text]
  | _ => simp [Instruction.text]

/-! ### Lines of instructions -/

/-- What a line of a listing shows: an index, an offset behind `@`, and an instruction. -/
def readListed? (line : List Char) : Option (Nat × Nat × List Char) :=
  let fromIndex := line.dropWhile (· == ' ')
  match fromIndex.dropWhile Char.isDigit with
  | ' ' :: ' ' :: '@' :: fromOffset =>
    some (denoted (fromIndex.takeWhile Char.isDigit), denoted (fromOffset.takeWhile Char.isDigit),
      (fromOffset.dropWhile Char.isDigit).dropWhile (· == ' '))
  | _ => none

private theorem takeWhile_dropWhile_digits {digits : List Char} (h : Digits digits) {c : Char}
    (hc : c.isDigit = false) (rest : List Char) :
    (digits ++ c :: rest).takeWhile Char.isDigit = digits ∧
      (digits ++ c :: rest).dropWhile Char.isDigit = c :: rest := by
  rw [List.takeWhile_append_of_pos h.all, List.dropWhile_append_of_pos h.all,
    List.takeWhile_cons_of_neg (by simp [hc]), List.dropWhile_cons_of_neg (by simp [hc])]
  exact ⟨List.append_nil _, rfl⟩

private theorem dropWhile_replicate {c : Char} (hc : c ≠ ' ') (n : ℕ) (rest : List Char) :
    (List.replicate n ' ' ++ c :: rest).dropWhile (· == ' ') = c :: rest := by
  have hblanks : ∀ d ∈ List.replicate n ' ', (d == ' ') = true := by
    intro d hd
    rw [List.eq_of_mem_replicate hd]
    rfl
  rw [List.dropWhile_append_of_pos hblanks, List.dropWhile_cons_of_neg (by simpa using hc)]

namespace CodeUnit

private theorem toList_line (index : Nat) (u : CodeUnit) : (u.line index).toList =
    List.replicate (4 - (toString index).toList.length) ' ' ++ ((toString index).toList ++
      ' ' :: ' ' :: '@' :: ((toString u.offset).toList ++
        (List.replicate (4 - (toString u.offset).toList.length + 1) ' ' ++
          u.instruction.text.toList))) := by
  have hsign : "  @".toList = [' ', ' ', '@'] := rfl
  have hblank : " ".toList = [' '] := rfl
  simp only [line, padLeft, padRight, String.toList_append, String.toList_ofList, hsign, hblank,
    List.replicate_succ', List.append_assoc, List.cons_append, List.nil_append]

/-- The line of an instruction shows its index, its offset and the instruction. -/
theorem readListed?_line (index : Nat) (u : CodeUnit) :
    readListed? (u.line index).toList = some (index, u.offset, u.instruction.text.toList) := by
  have hindex := digits_toString index
  obtain ⟨c, more, htext, hc⟩ := exists_cons_text u.instruction
  obtain ⟨d, digits, hd⟩ := List.exists_cons_of_ne_nil hindex.ne_nil
  have hdigit : d ≠ ' ' := by
    rintro rfl
    exact Bool.noConfusion (hindex.all ' ' (hd ▸ List.mem_cons_self))
  -- the blanks on the left end at the first digit of the index
  have hleft : (u.line index).toList.dropWhile (· == ' ') = (toString index).toList ++
      ' ' :: ' ' :: '@' :: ((toString u.offset).toList ++
        (List.replicate (4 - (toString u.offset).toList.length + 1) ' ' ++
          u.instruction.text.toList)) := by
    rw [toList_line, hd]
    exact dropWhile_replicate hdigit _ _
  have hbetween := takeWhile_dropWhile_digits hindex (c := ' ') rfl
  have hbehind := takeWhile_dropWhile_digits (digits_toString u.offset) (c := ' ') rfl
  have hright := dropWhile_replicate hc (4 - (toString u.offset).toList.length) more
  simp only [readListed?, hleft, hbetween, List.replicate_succ, List.cons_append, hbehind,
    List.dropWhile_cons_of_pos, BEq.rfl, htext, hright, denoted_toString]

private theorem oneLine_line_iff (index : Nat) (u : CodeUnit) :
    OneLine (u.line index).toList ↔ OneLine u.instruction.text.toList := by
  have hmarks : ' ' ∉ Text.lineBreaks ∧ '@' ∉ Text.lineBreaks := by decide
  simp only [toList_line, Text.oneLine_append, Text.oneLine_cons, Text.oneLine_replicate,
    Text.oneLine_toString, hmarks, not_false_eq_true, true_and]

end CodeUnit

/-! ### Listings -/

namespace Formula

/-- The lines that the listing of a formula should have: one for each instruction. -/
def lines (f : Formula) : List (List Char) := f.code.mapIdx fun index u => (u.line index).toList

/-- A listing is made of the lines of the instructions. -/
private theorem toList_listing (f : Formula) :
    f.listing.toList = f.lines.flatMap (· ++ ['\n']) := by
  have hfrom : ∀ (us : List CodeUnit) (first : Nat), (listingFrom first us).toList =
      (us.mapIdx fun index u => (u.line (first + index)).toList).flatMap (· ++ ['\n']) := by
    intro us
    induction us with
    | nil => exact fun _ => rfl
    | cons u us ih =>
      intro first
      rw [listingFrom, String.toList_append, String.toList_append, ih, List.mapIdx_cons,
        List.flatMap_cons, Nat.add_zero]
      simp only [Nat.add_assoc, Nat.add_comm 1]
      rfl
  rw [listing, hfrom, lines]
  simp only [Nat.zero_add]

/-- The listing of a formula is made of a line for each instruction, which shows the index of the
instruction, its offset and the instruction itself, and is one line unless it loads a variable with
a line break in its name. So these are the lines that are read from the listing exactly when no
variable of the formula has such a name. -/
theorem listing_shows_code {scope : Scope} {text : String} {f : Formula}
    (hcompile : compile scope text = .ok f) :
    f.lines.length = f.code.length ∧
    (∀ index line, f.lines[index]? = some line → ∃ u, f.code[index]? = some u ∧
      readListed? line = some (index, u.offset, u.instruction.text.toList) ∧
      (OneLine line ↔ ∀ l, u.load? = some l → OneLine l.name.toList)) ∧
    f.listing.toList = f.lines.flatMap (· ++ ['\n']) ∧
    (Text.readLines? f.listing.toList = some f.lines ↔
      ∀ name ∈ f.kinds.names, OneLine name.toList) := by
  obtain ⟨e, hparse, hof⟩ := compile_ok_iff.mp hcompile
  have hcode : f.code = e.code := by
    obtain ⟨vs, -, rfl⟩ := ofExpr_ok_iff.mp hof
    rfl
  have hshown : ∀ index line, f.lines[index]? = some line → ∃ u, f.code[index]? = some u ∧
      readListed? line = some (index, u.offset, u.instruction.text.toList) ∧
      (OneLine line ↔ ∀ l, u.load? = some l → OneLine l.name.toList) := by
    intro index line hline
    rw [lines, List.getElem?_mapIdx, Option.map_eq_some_iff] at hline
    obtain ⟨u, hu, rfl⟩ := hline
    have hmem : u ∈ e.code := hcode ▸ List.mem_of_getElem? hu
    exact ⟨u, hu, u.readListed?_line index,
      (u.oneLine_line_iff index).trans (oneLine_text_iff hparse hmem)⟩
  refine ⟨List.length_mapIdx, hshown, f.toList_listing, ?_⟩
  have hnames : ∀ name, name ∈ f.kinds.names ↔
      ∃ u ∈ f.code, ∃ l, u.load? = some l ∧ l.name = name := by
    intro name
    rw [(lists_of_ofExpr hparse hof).names, List.mem_eraseDups]
    simp only [loads, List.mem_map, List.mem_filterMap]
    constructor
    · rintro ⟨l, ⟨u, hu, hl⟩, rfl⟩
      exact ⟨u, hu, l, hl, rfl⟩
    · rintro ⟨u, hu, l, hl, rfl⟩
      exact ⟨l, ⟨u, hu, hl⟩, rfl⟩
  rw [Text.readLines?_eq_some_iff, toList_listing, and_iff_left rfl]
  constructor
  · intro hlines name hname
    obtain ⟨u, hu, l, hl, rfl⟩ := (hnames name).mp hname
    obtain ⟨index, hindex⟩ := List.mem_iff_getElem?.mp hu
    have hline : f.lines[index]? = some (u.line index).toList := by
      rw [lines, List.getElem?_mapIdx, hindex, Option.map_some]
    obtain ⟨u', hu', -, hone⟩ := hshown index _ hline
    obtain rfl := Option.some.inj (hindex.symm.trans hu')
    exact hone.mp (hlines _ (List.mem_of_getElem? hline)) l hl
  · intro hone line hline
    obtain ⟨index, hindex⟩ := List.mem_iff_getElem?.mp hline
    obtain ⟨u, hu, -, hiff⟩ := hshown index line hindex
    exact hiff.mpr fun l hl => hone _ ((hnames _).mpr ⟨u, List.mem_of_getElem? hu, l, hl, rfl⟩)

/-- A text with a line break in it is pushed on one line, and a name with a blank is loaded on
one. -/
theorem listing_shows_code_of_quoted_break :
    ∃ f, compile ⟨Dict.ofList [("x y", .float)], Registry.empty⟩
        "=\"a\nb\" & $\x7bx y\x7d" = .ok f ∧
      f.code.length = 3 ∧ (∀ name ∈ f.kinds.names, OneLine name.toList) ∧
      Text.readLines? f.listing.toList = some f.lines := by
  have hvalue : (compile ⟨Dict.ofList [("x y", .float)], Registry.empty⟩
      "=\"a\nb\" & $\x7bx y\x7d").toOption.map (fun f => (f.code.length, f.kinds.names)) =
        some (3, ["x y"]) := by
    decide +kernel
  cases hcompile : compile ⟨Dict.ofList [("x y", .float)], Registry.empty⟩
      "=\"a\nb\" & $\x7bx y\x7d" with
  | error err => simp [hcompile, Except.toOption] at hvalue
  | ok f =>
    obtain ⟨hlength, hnames⟩ : f.code.length = 3 ∧ f.kinds.names = ["x y"] := by
      simpa [hcompile, Except.toOption] using hvalue
    have hone : ∀ name ∈ f.kinds.names, OneLine name.toList := by
      rw [hnames]
      exact List.forall_mem_singleton.mpr (by decide)
    exact ⟨f, rfl, hlength, hone, (listing_shows_code hcompile).2.2.2.mpr hone⟩

/-- A variable with a line break in its name is listed on two lines. -/
theorem exists_listing_with_more_lines :
    ∃ scope text f, compile scope text = .ok f ∧ f.code.length = 1 ∧
      (Text.readLines? f.listing.toList).map List.length = some 2 := by
  have hvalue : (compile ⟨Dict.ofList [("a\nb", .float)], Registry.empty⟩
      "=$\x7ba\nb\x7d").toOption.map
        (fun f => (f.code.length, (Text.readLines? f.listing.toList).map List.length)) =
          some (1, some 2) := by
    decide +kernel
  cases hcompile : compile ⟨Dict.ofList [("a\nb", .float)], Registry.empty⟩ "=$\x7ba\nb\x7d" with
  | error err => simp [hcompile, Except.toOption] at hvalue
  | ok f =>
    obtain ⟨hlength, hlines⟩ : f.code.length = 1 ∧
        (Text.readLines? f.listing.toList).map List.length = some 2 := by
      simpa [hcompile, Except.toOption] using hvalue
    exact ⟨_, _, f, hcompile, hlength, hlines⟩

end Formula

end TypedFormula
