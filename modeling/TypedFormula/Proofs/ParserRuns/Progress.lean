import Mathlib
import TypedFormula.Proofs.ParserRuns.Agreement
import TypedFormula.Proofs.Positions.Reports

/-!
# Progress of the parser

Every run of the parser ends, since a step either takes a token or is lighter than what was before
it (`Config.potential`). Between two procedures that are entered a token is taken, or the second one
is tighter: no procedure comes back to itself in place, and no loop goes round, without a token.

The count of open levels is the sum of those that the waiting procedures have open, in every
configuration that is reached. So a procedure returns with the count as it was when it was entered,
closing levels never runs below zero, and the count is zero when the text is accepted. It never
exceeds its bound, also on texts that are refused.

The parser is a token ahead. When it takes a token, the start of the token in view grows, but the
offset behind this token grows only if there is another token: when the last token is taken, nothing
may be left to pass over (`exists_consume_at_end`).

Main statement: `orderly`.
-/

namespace TypedFormula.ParserRun

/-! ### Cursors -/

/-- Where a cursor is that was read from characters at an offset. -/
structure Cursor.ReadFrom (cur : Cursor) (pos : Nat) (chars : List Char) : Prop where
  /-- Characters are passed over from the front. -/
  moves : Moves pos chars cur.pos cur.rest
  /-- A token is not in front of them. -/
  start : pos ≤ cur.start
  /-- A token takes a character. -/
  token : cur.token ≠ none → cur.start < cur.pos ∧ cur.rest.length < chars.length
  /-- At the end no characters are left. -/
  ended : cur.token = none → cur.start = cur.pos ∧ cur.rest = []

/-- Cursors are read from characters. -/
private theorem readFrom_of_read {pos : Nat} {chars : List Char} {cur : Cursor}
    (h : Cursor.read pos chars = .ok cur) : cur.ReadFrom pos chars := by
  rcases hskip : skipBlanks pos chars with ⟨start, _ | ⟨c, rest⟩⟩
  · rw [Cursor.read, hskip] at h
    obtain rfl := Except.ok.inj h
    have hmoves := moves_skipBlanks hskip
    exact ⟨hmoves, hmoves.le, fun htoken => absurd rfl htoken, fun _ => ⟨rfl, rfl⟩⟩
  · cases hscan : scan start c rest with
    | error e => simp [Cursor.read, hskip, hscan] at h
    | ok s =>
      simp only [Cursor.read, hskip, hscan, Except.ok.injEq] at h
      subst h
      have hblanks := moves_skipBlanks hskip
      have hword := moves_of_scan hscan
      have hlen := length_rest_scan hscan
      have hskipped := length_skipBlanks pos chars
      rw [hskip, List.length_cons] at hskipped
      refine ⟨hblanks.trans hword, hblanks.le, fun _ => ⟨?_, ?_⟩,
        fun htoken => absurd htoken (Option.some_ne_none _)⟩
      · exact hword.lt (Nat.lt_succ_of_le hlen)
      · exact Nat.lt_of_le_of_lt hlen hskipped

/-- How much is left from a cursor on. -/
def Cursor.size (cur : Cursor) : Nat := cur.rest.length + if cur.token = none then 0 else 1

/-- A cursor has no more left than the characters from which it was read. -/
private theorem Cursor.ReadFrom.size_le {cur : Cursor} {pos : Nat} {chars : List Char}
    (h : cur.ReadFrom pos chars) : cur.size ≤ chars.length := by
  rw [size]
  split
  · rename_i htoken
    simp [(h.ended htoken).2]
  · exact (h.token ‹_›).2

private theorem Cursor.size_lt_of_consume {cur next : Cursor} (htoken : cur.token ≠ none)
    (h : cur.consume = .ok next) : next.size < cur.size := by
  have hle := (readFrom_of_read h).size_le
  have hsize : cur.size = cur.rest.length + 1 := by rw [size, if_neg htoken]
  omega

/-- A cursor stands in a text: it was read from characters of it. -/
def Cursor.Within (cur : Cursor) (text : String) : Prop :=
  ∃ pos chars, Moves 0 text.toList pos chars ∧ cur.ReadFrom pos chars

section

variable {text : String} {cur next : Cursor}

private theorem Cursor.Within.moves (h : cur.Within text) :
    Moves 0 text.toList cur.pos cur.rest := by
  obtain ⟨pos, chars, hmoves, hread⟩ := h
  exact hmoves.trans hread.moves

private theorem Cursor.Within.consume (h : cur.Within text) (hnext : cur.consume = .ok next) :
    next.Within text :=
  ⟨cur.pos, cur.rest, h.moves, readFrom_of_read hnext⟩

private theorem Cursor.Within.start_lt (h : cur.Within text) (htoken : cur.token ≠ none)
    (hnext : cur.consume = .ok next) : cur.start < next.start := by
  obtain ⟨pos, chars, -, hread⟩ := h
  exact Nat.lt_of_lt_of_le (hread.token htoken).1 (readFrom_of_read hnext).start

end

/-! ### Steps and stops -/

section

variable {scope : Scope} {K K' : Config}

/-- A bound on the steps that are left. -/
def Config.potential (K : Config) : Nat := 21 * K.cursor.size + K.weight

private theorem potential_lt_of_step (h : Step scope K K') : K'.potential < K.potential := by
  rw [Config.potential, Config.potential]
  rcases (effect_of_step h).cursor with ⟨hcursor, hweight, -⟩ | ⟨htoken, hnext, hweight⟩
  · rw [hcursor]
    omega
  · -- the token counts for more than the weight that taking it can add
    have hsize := Cursor.size_lt_of_consume htoken hnext
    omega

/-- Some number of steps. -/
def Runs (scope : Scope) : Nat → Config → Config → Prop
  | 0, K, K' => K = K'
  | n + 1, K, K' => ∃ M, Step scope K M ∧ Runs scope n M K'

/-- There are no more steps than the potential allows. -/
private theorem add_potential_le_of_runs {n : Nat} (h : Runs scope n K K') :
    n + K'.potential ≤ K.potential := by
  induction n generalizing K with
  | zero =>
    obtain rfl : K = K' := h
    omega
  | succ n ih =>
    obtain ⟨M, hstep, hruns⟩ := h
    have hlt := potential_lt_of_step hstep
    have hle := ih hruns
    omega

/-- What a stop says on the configuration. -/
private def Config.StopsWith (K : Config) : Stop → Prop
  | .accepted e => K.control = .done e ∧ K.stack = [] ∧ K.cursor.token = none
  | .refused _ => True
  | .underflow => K.depth < K.levels

end

/-- A result is an error only when the text is refused, or when levels are not open. -/
private def Refuses {α : Type} (closed : Prop) (r : Except Stop α) : Prop :=
  ∀ stop, r = .error stop → (∃ e, stop = .refused e) ∨ stop = .underflow ∧ closed

section

variable {α β : Type} {closed : Prop}

private theorem refuses_pure (a : α) : Refuses closed (pure a) := nofun

private theorem refuses_error (e : CompileError) :
    Refuses closed (.error (.refused e) : Except Stop α) :=
  fun _ h => .inl ⟨e, (Except.error.inj h).symm⟩

private theorem Refuses.bind {x : Except Stop α} {f : α → Except Stop β} (hx : Refuses closed x)
    (hf : ∀ a, Refuses closed (f a)) : Refuses closed (x >>= f) := by
  cases x with
  | error e =>
    intro stop hstop
    obtain rfl : e = stop := Except.error.inj hstop
    exact hx e rfl
  | ok a => exact hf a

private theorem refuses_orRefuse (r : Except CompileError α) : Refuses closed (orRefuse r) := by
  cases r with
  | error e => exact refuses_error e
  | ok a => exact refuses_pure a

/-- A mark that is missing refuses a text. -/
private theorem refuses_expect (m : Mark) (cur : Cursor) : Refuses closed (expect m cur) := by
  rw [expect]
  split
  · exact refuses_orRefuse _
  · exact refuses_error _

private theorem refuses_openOne (offset depth : Nat) : Refuses closed (openOne offset depth) := by
  rw [openOne]
  split
  · exact refuses_pure _
  · exact refuses_error _

private theorem refuses_closeLevels {levels depth : Nat} (h : depth < levels → closed) :
    Refuses closed (closeLevels levels depth) := by
  rw [closeLevels]
  split
  · exact refuses_pure _
  · rename_i hlt
    exact fun stop hstop => .inr ⟨(Except.error.inj hstop).symm, h (Nat.lt_of_not_le hlt)⟩

end

section

variable {scope : Scope} {stack : List Frame} {cur : Cursor} {depth : Nat}

/-- Where a procedure that is entered stops, the text is refused. -/
private theorem refuses_enter {closed : Prop} (c : Category) :
    Refuses closed (enter scope stack cur depth c) := by
  cases c with
  | chain p => exact refuses_pure _
  | power => exact refuses_pure _
  | signed =>
    rw [enter]
    split
    · exact refuses_pure _
    · exact (refuses_orRefuse _).bind fun _ => (refuses_openOne _ _).bind fun _ => refuses_pure _
  | single =>
    rw [enter]
    split
    · exact refuses_error _
    · refine (refuses_orRefuse _).bind fun next => ?_
      split
      · exact refuses_pure _
      · exact refuses_pure _
      · exact refuses_pure _
      · exact (refuses_orRefuse _).bind fun _ => refuses_pure _
      · split
        · exact refuses_pure _
        · exact refuses_error _
      · exact (refuses_openOne _ _).bind fun _ => refuses_pure _
      · exact refuses_error _

private theorem refuses_call {closed : Prop} (offset : Nat) (name : String) :
    Refuses closed (call scope stack cur depth offset name) := by
  rw [call]
  split
  · exact refuses_error _
  · refine (refuses_expect _ _).bind fun _ => (refuses_openOne _ _).bind fun _ => ?_
    split
    · exact refuses_pure _
    · exact refuses_pure _

/-- Where a loop over operators stops, the text is refused, or its levels are not open. -/
private theorem refuses_link (p : Precedence) (left : Expr) (levels : Nat) :
    Refuses (depth < levels) (link stack cur depth p left levels) := by
  rw [link]
  split
  · exact (refuses_closeLevels id).bind fun _ => refuses_pure _
  · exact (refuses_orRefuse _).bind fun _ => (refuses_openOne _ _).bind fun _ => refuses_pure _

/-- Where the steps stop behind arguments, the text is refused, or their level is not open. -/
private theorem refuses_close (offset : Nat) (name : String) (f : Function) (args : List Expr) :
    Refuses (depth < 1) (close stack cur depth offset name f args) :=
  (refuses_closeLevels id).bind fun _ => (refuses_expect _ _).bind fun _ =>
    (refuses_orRefuse _).bind fun _ => refuses_pure _

/-- Where an expression that is returned is refused, the text is, or levels are not open. -/
private theorem refuses_resume (e : Expr) (frame : Frame) :
    Refuses (depth < frame.levels) (resume stack cur depth e frame) := by
  cases frame with
  | operand p => exact refuses_pure _
  | link p op offset left levels => exact (refuses_orRefuse _).bind fun _ => refuses_pure _
  | base =>
    rw [resume]
    split
    · exact (refuses_orRefuse _).bind fun _ => (refuses_openOne _ _).bind fun _ => refuses_pure _
    · exact refuses_pure _
  | exponent offset left =>
    exact (refuses_closeLevels id).bind fun _ => (refuses_orRefuse _).bind fun _ => refuses_pure _
  | sign offset op =>
    exact (refuses_closeLevels id).bind fun _ => (refuses_orRefuse _).bind fun _ => refuses_pure _
  | parens =>
    exact (refuses_closeLevels id).bind fun _ => (refuses_expect _ _).bind fun _ => refuses_pure _
  | argument offset name f args =>
    rw [resume]
    split
    · exact (refuses_orRefuse _).bind fun _ => refuses_pure _
    · exact refuses_pure _

end

section

variable {scope : Scope} {K K' : Config}

/-- Where the parser stops: at the end, where the text is refused, or where levels are missing. -/
private theorem stopsWith_of_step {stop : Stop} (h : step scope K = .error stop) :
    K.StopsWith stop := by
  have hrefuses : ∀ {closed : Prop}, (closed → K.depth < K.levels) →
      Refuses closed (step scope K) → K.StopsWith stop := by
    intro closed hclosed hstep
    rcases hstep stop h with ⟨e, rfl⟩ | ⟨rfl, hlt⟩
    · trivial
    · exact hclosed hlt
  obtain ⟨control, stack, cur, depth⟩ := K
  cases control with
  | enter c => exact hrefuses False.elim (refuses_enter c)
  | call offset name => exact hrefuses False.elim (refuses_call offset name)
  | link p left levels =>
    exact hrefuses (fun hlt => Nat.lt_of_lt_of_le hlt (Nat.le_add_right _ _))
      (refuses_link p left levels)
  | close offset name f args =>
    exact hrefuses (fun hlt => Nat.lt_of_lt_of_le hlt (Nat.le_add_right _ _))
      (refuses_close offset name f args)
  | done e =>
    cases stack with
    | nil =>
      obtain rfl := Except.error.inj h
      rw [finish]
      split
      · exact ⟨rfl, rfl, ‹_›⟩
      · trivial
    | cons frame stack =>
      refine hrefuses (fun hlt => ?_) (refuses_resume e frame)
      simp only [levels_mk, List.map_cons, List.sum_cons]
      omega

end

/-! ### Configurations that are reached -/

/-- What holds of the configurations that are reached. -/
structure Config.Sound (text : String) (K : Config) : Prop where
  /-- The cursor is in the text. -/
  cursor : K.cursor.Within text
  /-- The open levels are those of the procedures. -/
  levels : K.depth = K.levels
  /-- There are not too many. -/
  bound : K.depth ≤ maxNesting

section

variable {scope : Scope} {text : String} {K K' : Config}

/-- The first configuration is about to read an expression, and no level is open. -/
private theorem exists_of_start (h : start text = .ok K) : ∃ cur pos chars,
    K = ⟨.enter (.chain .comparison), [], cur, 0⟩ ∧ Moves 0 text.toList pos chars ∧
      chars.length < text.length ∧ cur.ReadFrom pos chars := by
  rcases hskip : skipBlanks 0 text.toList with ⟨offset, _ | ⟨c, rest⟩⟩
  · rw [start, hskip] at h
    cases h
  · rw [start, hskip] at h
    simp only at h
    split at h
    · rename_i hc
      obtain ⟨cur, hread, h⟩ := bind_ok_iff.mp h
      obtain rfl := pure_ok_iff.mp h
      have hblanks := moves_skipBlanks hskip
      have hlen := length_skipBlanks 0 text.toList
      rw [hskip, List.length_cons, String.length_toList] at hlen
      refine ⟨cur, offset + 1, rest, rfl, ?_, hlen, readFrom_of_read (orRefuse_ok_iff.mp hread)⟩
      have hsize : c.utf8Size = 1 := by rw [hc]; rfl
      exact hsize ▸ hblanks.trans (Moves.head offset c rest)
    · cases h

/-- A step keeps what holds of the configurations that are reached. -/
theorem Config.Sound.step (hK : K.Sound text) (h : Step scope K K') : K'.Sound text := by
  have heffect := effect_of_step h
  refine ⟨?_, ?_, le_trans heffect.bound (max_le hK.bound le_rfl)⟩
  · rcases heffect.cursor with ⟨hcursor, -⟩ | ⟨-, hnext, -⟩
    · exact hcursor ▸ hK.cursor
    · exact hK.cursor.consume hnext
  · have hlevels := heffect.levels
    have hbefore := hK.levels
    omega

private theorem sound_of_reachable (h : Reachable scope text K) : K.Sound text := by
  obtain ⟨first, hstart, hsteps⟩ := h
  induction hsteps with
  | refl =>
    obtain ⟨cur, pos, chars, rfl, hmoves, -, hread⟩ := exists_of_start hstart
    exact ⟨⟨pos, chars, hmoves, hread⟩, rfl, Nat.zero_le _⟩
  | tail _ hstep ih => exact ih.step hstep

/-- What is reached from what is reached. -/
private theorem Reachable.trans (h : Reachable scope text K) (h' : Steps scope K K') :
    Reachable scope text K' := by
  obtain ⟨first, hstart, hsteps⟩ := h
  exact ⟨first, hstart, hsteps.trans h'⟩

/-- The parser takes a token, or stays at its token and enters only tighter procedures. -/
private def Advances (K K' : Config) : Prop :=
  K.cursor.start < K'.cursor.start ∨ K'.cursor = K.cursor ∧
    ∀ r, K.control.rank? = some r → ∃ r', K'.control.rank? = some r' ∧ r < r'

private theorem Advances.trans {L : Config} (h : Advances K L) (h' : Advances L K') :
    Advances K K' := by
  rcases h with hlt | ⟨hcursor, hrank⟩
  · refine .inl (Nat.lt_of_lt_of_le hlt ?_)
    rcases h' with hlt' | ⟨hcursor', -⟩
    · exact Nat.le_of_lt hlt'
    · exact Nat.le_of_eq (congrArg Cursor.start hcursor'.symm)
  · rcases h' with hlt' | ⟨hcursor', hrank'⟩
    · exact .inl (hcursor ▸ hlt')
    · refine .inr ⟨hcursor'.trans hcursor, fun r hr => ?_⟩
      obtain ⟨r', hr', hlt⟩ := hrank r hr
      obtain ⟨r'', hr'', hlt'⟩ := hrank' r' hr'
      exact ⟨r'', hr'', Nat.lt_trans hlt hlt'⟩

private theorem Config.Sound.advances (hK : K.Sound text) (h : Step scope K K') :
    Advances K K' := by
  rcases (effect_of_step h).cursor with ⟨hcursor, -, hrank⟩ | ⟨htoken, hnext, -⟩
  · exact .inr ⟨hcursor, hrank⟩
  · exact .inl (hK.cursor.start_lt htoken hnext)

private theorem Reachable.advances (hK : Reachable scope text K)
    (h : Relation.TransGen (Step scope) K K') : Advances K K' := by
  induction h with
  | single hstep => exact (sound_of_reachable hK).advances hstep
  | tail hsteps hstep ih =>
    have hL := sound_of_reachable (hK.trans hsteps.to_reflTransGen)
    exact ih.trans (hL.advances hstep)

/-- A procedure that is entered has no level open. -/
private theorem levels_of_rank? {control : Control} {r : Nat} (h : control.rank? = some r) :
    control.levels = 0 := by
  cases control with
  | enter c => rfl
  | call offset name => rfl
  | link p left levels => cases h
  | close offset name f args => cases h
  | done e => cases h

end

/-! ### Runs -/

/-- What holds of the parser on a text, from its first step on. -/
structure Orderly (scope : Scope) (text : String) : Prop where
  /-- The parser comes to its result. -/
  result : ∀ stop, Ends scope text stop ↔ stop = .ofResult (parseFormula scope text)
  /-- It takes no more steps than a multiple of the characters. -/
  bounded : ∀ first n K, start text = .ok first → Runs scope n first K → n ≤ 21 * text.length
  /-- A step stays at its token or takes it, and never takes the end of the text. -/
  cursor : ∀ K K', Reachable scope text K → Step scope K K' → K'.cursor = K.cursor ∨
    K.cursor.token ≠ none ∧ K.cursor.consume = .ok K'.cursor
  /-- Behind a token that is taken another one stands further on, or the text ends. Scanning passes
  over characters of the text, and over one at least if there is another token. -/
  consume : ∀ K next, Reachable scope text K → K.cursor.token ≠ none →
    K.cursor.consume = .ok next → K.cursor.start < next.start ∧
      Moves K.cursor.pos K.cursor.rest next.pos next.rest ∧
      (next.token ≠ none → K.cursor.pos < next.pos) ∧ next.pos ≤ text.utf8ByteSize
  /-- Between procedures that are entered a token is taken, or the second one is tighter. -/
  entries : ∀ K K' r r', Reachable scope text K → Relation.TransGen (Step scope) K K' →
    K.control.rank? = some r → K'.control.rank? = some r' →
      K.cursor.start < K'.cursor.start ∨ r < r'
  /-- A procedure returns with the levels that were open when it was entered. -/
  returns : ∀ K K' r e, Reachable scope text K → Steps scope K K' →
    K.control.rank? = some r → K'.control = .done e → K'.stack = K.stack → K'.depth = K.depth
  /-- No levels are closed that are not open. -/
  underflow : ∀ K, Reachable scope text K → step scope K ≠ .error .underflow
  /-- No level is open when the text is accepted. -/
  accepted : ∀ K e, Reachable scope text K → step scope K = .error (.accepted e) → K.depth = 0
  /-- There are never more levels than the parser may open. -/
  nested : ∀ K, Reachable scope text K → K.depth ≤ maxNesting

/-- The parser makes progress and keeps its count of levels on every text. -/
theorem orderly (scope : Scope) (text : String) : Orderly scope text where
  result _ := ends_iff
  bounded first n K hstart hruns := by
    obtain ⟨cur, pos, chars, rfl, -, hlen, hread⟩ := exists_of_start hstart
    have hle := add_potential_le_of_runs hruns
    have hfirst : Config.potential ⟨.enter (.chain .comparison), [], cur, 0⟩ =
      21 * cur.size + 18 := rfl
    have hsize := hread.size_le
    omega
  cursor K K' _ hstep := (effect_of_step hstep).cursor.imp And.left fun h => ⟨h.1, h.2.1⟩
  consume K next hK htoken hnext := by
    have hcursor := (sound_of_reachable hK).cursor
    have hread := readFrom_of_read hnext
    refine ⟨hcursor.start_lt htoken hnext, hread.moves, fun hnext' => ?_,
      (hcursor.consume hnext).moves.between.isValid.1⟩
    exact hread.moves.lt (hread.token hnext').2
  entries K K' r r' hK hsteps hr hr' := by
    refine (hK.advances hsteps).imp id fun ⟨_, hrank⟩ => ?_
    obtain ⟨r'', hr'', hlt⟩ := hrank r hr
    exact Option.some.inj (hr''.symm.trans hr') ▸ hlt
  returns K K' r e hK hsteps hr hdone hstack := by
    -- the same procedures wait, and the one that returns has no level of its own
    have hlevels := (sound_of_reachable hK).levels
    have hlevels' := (sound_of_reachable (hK.trans hsteps)).levels
    rw [hlevels, hlevels', Config.levels, Config.levels, hstack, hdone, levels_of_rank? hr]
    rfl
  underflow K hK hstop := by
    have hlt : K.depth < K.levels := stopsWith_of_step hstop
    rw [(sound_of_reachable hK).levels] at hlt
    exact Nat.lt_irrefl _ hlt
  accepted K e hK hstop := by
    obtain ⟨hcontrol, hstack, -⟩ : K.StopsWith (.accepted e) := stopsWith_of_step hstop
    rw [(sound_of_reachable hK).levels, Config.levels, hcontrol, hstack]
    rfl
  nested K hK := (sound_of_reachable hK).bound

/-- When the only token of a formula is taken, the offset behind the token in view stays. -/
theorem exists_consume_at_end :
    ∃ K K', Reachable ⟨Dict.empty, Registry.empty⟩ "=TRUE" K ∧
      Step ⟨Dict.empty, Registry.empty⟩ K K' ∧ K.cursor.token = some (.boolean true) ∧
      K.cursor.consume = .ok K'.cursor ∧ K'.cursor.pos = K.cursor.pos := by
  have hread : Cursor.read 1 ['T', 'R', 'U', 'E'] = .ok ⟨some (.boolean true), 1, 5, []⟩ := by
    decide +kernel
  have hstart : start "=TRUE" = .ok
      ⟨.enter (.chain .comparison), [], ⟨some (.boolean true), 1, 5, []⟩, 0⟩ := by
    have hskip : skipBlanks 0 "=TRUE".toList = (0, '=' :: ['T', 'R', 'U', 'E']) := by decide
    rw [start, hskip]
    simp only [if_true, Nat.zero_add, hread]
    rfl
  refine ⟨⟨.enter .single, [.base, .operand .product, .operand .sum, .operand .concat,
    .operand .comparison], ⟨some (.boolean true), 1, 5, []⟩, 0⟩, ⟨.done (.boolean 1 true), [.base,
    .operand .product, .operand .sum, .operand .concat, .operand .comparison], ⟨none, 5, 5, []⟩, 0⟩,
    ⟨_, hstart, ?_⟩, rfl, rfl, rfl, rfl⟩
  exact .head rfl (.head rfl (.head rfl (.head rfl (.head rfl (.head rfl .refl)))))

end TypedFormula.ParserRun
