import BrightScript.Proofs.Tandem

/-!
# Blocks in tandem

A block reads statements up to a terminator. An error in one of them is reported and its line passed,
so that a block makes progress even where its statements fail; at the end of the text it fails
itself. For this reason an open `if` at the end of a text is never inside a block that is read
without an error.
-/

namespace BrightScript.Parser

open Grammar (branchEnds)

/-- Two grammars for the phrases nested in rules that run in tandem. -/
structure Nested (w : Seam) (n n' : Nat) (g g' : Grammar) : Prop where
  le : n ≤ n'
  short : g = Grammar.ofBudget n
  expression : ∀ least, Tandem.Exprs w n n' .inside (g.expression least)
    (g'.expression least)
  signed : Tandem.Exprs w n n' .inside g.signed g'.signed
  statement : Tandem.Statements w n n' .inside g.statement g'.statement
  /-- What follows the text does not close a branch of an `if`. -/
  unclosed : ∀ c d, w.Pair c d → c.rest = [w.stop] → d.rest.length < n' →
    ∃ e t, g'.block n' branchEnds d = .exit e t

/-! ## One statement -/

section
variable {g : Grammar} {terminators : List Mark} {found : List Statement} {c t : Cursor}

/-- The error of a statement with something behind it on the line. -/
def unended (location : Location) : SyntaxError :=
  .plain "Expected newline or ':' after statement" location

theorem blockStatement_ended {st : Statement} (h : g.statement c = .done st t)
    (hend : t.peek.kind.isOneOf (statementEnds ++ terminators) = true) :
    g.blockStatement terminators found c = .done (st :: found) t := by
  simp only [Grammar.blockStatement, Routine.bind_apply, Routine.attempt, h, checkAny,
    Routine.view_apply, hend]
  rfl

theorem blockStatement_unended {st : Statement} (h : g.statement c = .done st t)
    (hend : t.peek.kind.isOneOf (statementEnds ++ terminators) = false) :
    g.blockStatement terminators found c =
      .done (st :: found) (t.report (unended t.peek.location)).skipLine := by
  simp only [Grammar.blockStatement, Routine.bind_apply, Routine.attempt, h, checkAny,
    Routine.view_apply, hend]
  rfl

theorem blockStatement_failed {e : SyntaxError} (h : g.statement c = .exit e t) :
    g.blockStatement terminators found c = .done found (t.report e).skipLine := by
  simp only [Grammar.blockStatement, Routine.bind_apply, Routine.attempt, h]
  rfl

theorem blockStatement_exhausted (h : g.statement c = .exhausted) :
    g.blockStatement terminators found c = .exhausted := by
  simp only [Grammar.blockStatement, Routine.bind_apply, Routine.attempt, h]

end

open TokenKind (onLine)

theorem skipLine_cases (c : Cursor) :
    c.skipLine = c.past onLine ∨ c.skipLine = (c.past onLine).advance := by
  rw [Cursor.skipLine_eq]
  split
  · exact .inr rfl
  · exact .inl rfl

theorem skipLine_errors (c : Cursor) : c.skipLine.errors = c.errors := by
  obtain h | h := skipLine_cases c
  · rw [h]
    rfl
  · rw [h, Cursor.advance]
    split <;> rfl

theorem exists_passes_skipLine (c : Cursor) : ∃ passed, c.Passes passed c.skipLine := by
  have hpast := c.passes_past onLine
  obtain h | h := skipLine_cases c
  · rw [h]
    exact ⟨_, hpast⟩
  · rw [h]
    obtain ⟨passed, hpassed⟩ := (c.past onLine).exists_passes_advance
    exact ⟨_, hpast.trans hpassed⟩

/-- Passing the rest of a line passes a token, except at the end of the text. -/
theorem skipLine_length_lt {c : Cursor} (hf : c.final.kind.isEnd = true)
    (hend : c.peek.kind.isEnd = false) : c.skipLine.rest.length < c.rest.length := by
  have hpast := c.passes_past onLine
  have hne := Cursor.rest_ne_nil hf hend
  cases hline : onLine c.peek.kind with
  | true =>
    -- the next token stands on the line
    have hlt : (c.past onLine).rest.length < c.rest.length := by
      apply hpast.length_lt
      obtain ⟨x, more, hx⟩ := List.exists_cons_of_ne_nil hne
      have hpeek : c.peek = x := by rw [Cursor.peek, hx]; rfl
      rw [hpeek] at hline
      rw [hx, List.takeWhile_cons, if_pos hline]
      exact List.cons_ne_nil _ _
    obtain h | h := skipLine_cases c
    · rwa [h]
    · rw [h]
      obtain ⟨passed, hpassed⟩ := (c.past onLine).exists_passes_advance
      exact Nat.lt_of_le_of_lt hpassed.length_le hlt
  | false =>
    -- the next token is the newline itself
    have hnewline : c.peek.kind.is .newline = true := by
      rw [onLine, Bool.not_eq_false', TokenKind.isOneOf_iff] at hline
      obtain ⟨mark, hmark, hkind⟩ := hline
      rw [hkind] at hend ⊢
      rcases List.mem_cons.1 hmark with rfl | hmark
      · rfl
      · rw [List.mem_singleton.1 hmark] at hend
        cases hend
    have hstay : c.past onLine = c := by
      obtain ⟨x, more, hx⟩ := List.exists_cons_of_ne_nil hne
      have hpeek : c.peek = x := by rw [Cursor.peek, hx]; rfl
      rw [hpeek] at hline
      rw [Cursor.past, hx, List.takeWhile_cons, List.dropWhile_cons, hline]
      simp [← hx]
    rw [Cursor.skipLine_eq, hstay, if_pos hnewline]
    exact (Cursor.passes_advance hne).length_lt (List.cons_ne_nil _ _)

section
variable {g : Grammar} {s : Start} {kind : TokenKind}

theorem Moves.blockStatement (h : Moves .inside always g.statement) (hend : kind.isEnd = false)
    (terminators : List Mark) (found : List Statement) :
    Moves (s.before kind) always (g.blockStatement terminators found) where
  done := by
    intro c a u hf hs hp
    cases hst : g.statement c with
    | done st t =>
      obtain ⟨xs, hxs, hk⟩ := h.done hf (Start.at_inside c) hst
      cases hended : t.peek.kind.isOneOf (statementEnds ++ terminators) with
      | true =>
        rw [blockStatement_ended hst hended] at hp
        cases hp
        exact ⟨xs, hxs, fun _ => hk rfl⟩
      | false =>
        rw [blockStatement_unended hst hended] at hp
        cases hp
        obtain ⟨ys, hys⟩ := exists_passes_skipLine (t.report (unended t.peek.location))
        have hpasses := (hxs.toPasses.trans (t.passes_report _)).trans hys
        refine ⟨_, ⟨hpasses, fun herr => ?_⟩, fun _ hnil => ?_⟩
        · rw [skipLine_errors] at herr
          cases herr
        · exact hk rfl (List.append_eq_nil_iff.1 (List.append_eq_nil_iff.1 hnil).1).1
    | exit e t =>
      rw [blockStatement_failed hst] at hp
      cases hp
      obtain ⟨xs, hxs⟩ := h.exit hf (Start.at_inside c) hst
      obtain ⟨ys, hys⟩ := exists_passes_skipLine (t.report e)
      refine ⟨_, ⟨(hxs.trans (t.passes_report e)).trans hys, fun herr => ?_⟩, fun _ hnil => ?_⟩
      · rw [skipLine_errors] at herr
        cases herr
      · -- where the statement has passed nothing the line is not empty
        obtain ⟨hx0, hy0⟩ := List.append_eq_nil_iff.1 hnil
        rw [List.append_nil] at hx0
        have hpeek : t.peek = c.peek := by
          rw [Cursor.peek, Cursor.peek, hxs.rest, hx0, hxs.final]
          rfl
        have hfinal : t.final.kind.isEnd = true := by rw [hxs.final, hf]
        have hpeek' : (t.report e).peek.kind.isEnd = false := by
          show t.peek.kind.isEnd = false
          rw [hpeek, hs.kind, hend]
        have hlt := skipLine_length_lt (c := t.report e) hfinal hpeek'
        rw [hys.rest, hy0] at hlt
        exact Nat.lt_irrefl _ hlt
    | exhausted =>
      rw [blockStatement_exhausted hst] at hp
      cases hp
  exit := by
    intro c e u hf hs hp
    cases hst : g.statement c with
    | done st t =>
      cases hended : t.peek.kind.isOneOf (statementEnds ++ terminators) with
      | true => rw [blockStatement_ended hst hended] at hp; cases hp
      | false => rw [blockStatement_unended hst hended] at hp; cases hp
    | exit e t => rw [blockStatement_failed hst] at hp; cases hp
    | exhausted => rw [blockStatement_exhausted hst] at hp; cases hp

variable {g' : Grammar} {m : Relocation} {n : Nat}

theorem Follows.blockStatement
    (h : Follows m n .inside (Statement.relocated m) g.statement g'.statement)
    (terminators : List Mark) (found : List Statement) :
    Follows m n .inside (List.map (Statement.relocated m)) (g.blockStatement terminators found)
      (g'.blockStatement terminators (found.map (Statement.relocated m))) := by
  intro c hf hs hr
  obtain ⟨hne, heq⟩ := h c hf hs hr
  cases hst : g.statement c with
  | done st t =>
    rw [hst] at heq
    have hkind : (t.relocated m).peek.kind = t.peek.kind := by rw [Cursor.peek_relocated]; rfl
    cases hended : t.peek.kind.isOneOf (statementEnds ++ terminators) with
    | true =>
      rw [blockStatement_ended hst hended, blockStatement_ended heq (by rw [hkind, hended])]
      exact ⟨(by rintro ⟨⟩), rfl⟩
    | false =>
      rw [blockStatement_unended hst hended, blockStatement_unended heq (by rw [hkind, hended])]
      refine ⟨(by rintro ⟨⟩), ?_⟩
      rw [Outcome.relocated, ← Cursor.skipLine_relocated, ← Cursor.report_relocated,
        Cursor.peek_relocated]
      rfl
  | exit e t =>
    rw [hst] at heq
    rw [blockStatement_failed hst, blockStatement_failed heq]
    refine ⟨(by rintro ⟨⟩), ?_⟩
    rw [Outcome.relocated, ← Cursor.skipLine_relocated, ← Cursor.report_relocated]
  | exhausted => exact absurd hst hne

end

/-! ## The loop of a block -/

/-- The error of a block that meets the end of the text. -/
def unclosedBlock (terminators : List Mark) (location : Location) : SyntaxError :=
  ⟨"A block (such as FOR/NEXT or IF/ENDIF) was not terminated correctly.", location,
    some s!"expected {Grammar.markList terminators}"⟩

theorem blockStep_eq (g : Grammar) (terminators : List Mark) (found : List Statement) :
    g.blockStep terminators found = skip [.newline, .colon] >>= fun _ => peek >>= fun t =>
      if t.kind.isOneOf terminators = true then pure (.inr found.reverse)
      else if t.kind.isEnd = true then Routine.leave (unclosedBlock terminators t.location)
      else g.blockStatement terminators found >>= fun found => pure (.inl found) := by
  rw [Grammar.blockStep]
  refine congrArg (skip [.newline, .colon] >>= ·) (funext fun _ => funext fun d => ?_)
  show (if d.peek.kind.isOneOf terminators = true then _ else _ : Parser _) d =
    (if d.peek.kind.isOneOf terminators = true then _ else _ : Parser _) d
  split
  · rfl
  · show (if d.peek.kind.isEnd = true then _ else _ : Parser _) d =
      (if d.peek.kind.isEnd = true then _ else _ : Parser _) d
    split <;> rfl

section
variable {g : Grammar} {terminators : List Mark} {found : List Statement} {c t : Cursor}

theorem blockStatement_clean {r : List Statement}
    (h : g.blockStatement terminators found c = .done r t) (ht : t.errors = []) :
    ∃ st, g.statement c = .done st t ∧ r = st :: found ∧
      t.peek.kind.isOneOf (statementEnds ++ terminators) = true := by
  cases hst : g.statement c with
  | done st u =>
    cases hended : u.peek.kind.isOneOf (statementEnds ++ terminators) with
    | true =>
      rw [blockStatement_ended hst hended] at h
      cases h
      exact ⟨st, rfl, rfl, hended⟩
    | false =>
      rw [blockStatement_unended hst hended] at h
      cases h
      rw [skipLine_errors] at ht
      cases ht
  | exit e u =>
    rw [blockStatement_failed hst] at h
    cases h
    rw [skipLine_errors] at ht
    cases ht
  | exhausted =>
    rw [blockStatement_exhausted hst] at h
    cases h

theorem blockStep_apply (g : Grammar) (terminators : List Mark) (found : List Statement)
    (c : Cursor) :
    g.blockStep terminators found c =
      (if (c.skip [.newline, .colon]).peek.kind.isOneOf terminators = true then
        pure (.inr found.reverse)
      else if (c.skip [.newline, .colon]).peek.kind.isEnd = true then
        Routine.leave (unclosedBlock terminators (c.skip [.newline, .colon]).peek.location)
      else g.blockStatement terminators found >>= fun found => pure (.inl found) :
        Parser (List Statement ⊕ List Statement)) (c.skip [.newline, .colon]) := by
  rw [blockStep_eq]
  rfl

theorem blockStep_stop
    (h : (c.skip [.newline, .colon]).peek.kind.isOneOf terminators = true) :
    g.blockStep terminators found c = .done (.inr found.reverse) (c.skip [.newline, .colon]) := by
  rw [blockStep_apply, if_pos h]
  rfl

theorem blockStep_go {st : Statement}
    (hterm : (c.skip [.newline, .colon]).peek.kind.isOneOf terminators = false)
    (hend : (c.skip [.newline, .colon]).peek.kind.isEnd = false)
    (hst : g.statement (c.skip [.newline, .colon]) = .done st t)
    (hended : t.peek.kind.isOneOf (statementEnds ++ terminators) = true) :
    g.blockStep terminators found c = .done (.inl (st :: found)) t := by
  rw [blockStep_apply, hterm, hend, if_neg Bool.false_ne_true, if_neg Bool.false_ne_true,
    Routine.bind_apply, blockStatement_ended hst hended]
  rfl

/-- What a step without an error has done. -/
theorem blockStep_clean {r : List Statement ⊕ List Statement}
    (h : g.blockStep terminators found c = .done r t) (ht : t.errors = []) :
    ((c.skip [.newline, .colon]).peek.kind.isOneOf terminators = true ∧
        r = .inr found.reverse ∧ t = c.skip [.newline, .colon]) ∨
      ((c.skip [.newline, .colon]).peek.kind.isOneOf terminators = false ∧
        (c.skip [.newline, .colon]).peek.kind.isEnd = false ∧
        ∃ st, g.statement (c.skip [.newline, .colon]) = .done st t ∧ r = .inl (st :: found) ∧
          t.peek.kind.isOneOf (statementEnds ++ terminators) = true) := by
  rw [blockStep_apply] at h
  cases hterm : (c.skip [.newline, .colon]).peek.kind.isOneOf terminators with
  | true =>
    rw [hterm, if_pos rfl] at h
    cases h
    exact .inl ⟨rfl, rfl, rfl⟩
  | false =>
    rw [hterm, if_neg Bool.false_ne_true] at h
    cases hend : (c.skip [.newline, .colon]).peek.kind.isEnd with
    | true =>
      rw [hend, if_pos rfl] at h
      cases h
    | false =>
      rw [hend, if_neg Bool.false_ne_true] at h
      obtain ⟨found', u, hst, hr⟩ := Routine.bind_eq_done.1 h
      cases hr
      obtain ⟨st, hdone, rfl, hended⟩ := blockStatement_clean hst ht
      exact .inr ⟨rfl, rfl, st, hdone, rfl, hended⟩

end

theorem separators_plain :
    [Mark.newline, .colon].all (fun mark => TokenKind.isPlain (.mark mark)) = true :=
  rfl

section
variable {g g' : Grammar} {terminators : List Mark}

theorem Moves.separators : Moves .inside never (Parser.skip [.newline, .colon]) :=
  .skip rfl fun _ h =>
    (TokenKind.isPlain_iff.1 (TokenKind.isPlain_of_isOneOf separators_plain h)).1

theorem Moves.blockStep (h : Moves .inside always g.statement) (found : List Statement) :
    Moves .inside (onward never) (g.blockStep terminators found) := by
  rw [blockStep_eq]
  refine Moves.separators.bind fun _ => .view fun c _ => ?_
  split
  · exact .pure rfl
  · cases hend : c.peek.kind.isEnd with
    | true => exact .leave _
    | false => exact (h.blockStatement hend terminators found).bind fun _ => .pure rfl

variable {m : Relocation} {n : Nat}

theorem Follows.blockStep (hm : Moves .inside always g.statement)
    (h : Follows m n .inside (Statement.relocated m) g.statement g'.statement)
    (found : List Statement) :
    Follows m n .inside
      (Sum.map (List.map (Statement.relocated m)) (List.map (Statement.relocated m)))
      (g.blockStep terminators found)
      (g'.blockStep terminators (found.map (Statement.relocated m))) := by
  rw [blockStep_eq, blockStep_eq]
  refine Follows.bind (.skip _) Moves.separators (fun _ => rfl) fun _ => .view fun c _ => ?_
  rw [Cursor.peek_relocated, Token.relocated_kind]
  split
  · exact .pure (congrArg Sum.inr List.map_reverse)
  · cases hend : c.peek.kind.isEnd with
    | true => exact .leave (unclosedBlock terminators c.peek.location)
    | false =>
      have hst := Follows.blockStatement h terminators found
      refine Follows.bind (hst.weaken (fun _ _ => Start.at_inside _) fun _ => id)
        (hm.blockStatement hend terminators found) (fun _ => rfl) fun _ => .pure rfl

end

/-! ## Blocks before the seam -/

section
variable {w : Seam} {n n' : Nat} {g g' : Grammar} {terminators : List Mark} {c d : Cursor}

theorem pair_separators (h : w.Pair c d)
    (hend : (c.skip [.newline, .colon]).peek.kind.isEnd = false) :
    w.Pair (c.skip [.newline, .colon]) (d.skip [.newline, .colon]) := by
  rw [Cursor.skip_eq, Cursor.skip_eq]
  rw [Cursor.skip_eq] at hend
  exact h.past (fun _ => TokenKind.isPlain_of_isOneOf separators_plain) (.inl hend)

theorem not_isEnd_of_terminator (hterm : terminators.all Mark.isOrdinary = true)
    {kind : TokenKind} (hk : kind.isOneOf terminators = true) : kind.isEnd = false := by
  obtain ⟨mark, hmem, rfl⟩ := TokenKind.isOneOf_iff.1 hk
  have hplain := Mark.isPlain_of_isOrdinary (List.all_eq_true.1 hterm mark hmem)
  exact (TokenKind.isPlain_iff.1 hplain).1

theorem blockLoop_at_end (hterm : terminators.all Mark.isOrdinary = true)
    (hc : c.rest = [w.stop]) (budget : Nat) (found a : List Statement) (t : Cursor) :
    Routine.iterate (g.blockStep terminators) budget found c ≠ .done a t := by
  cases budget with
  | zero => rintro ⟨⟩
  | succ budget =>
    have hstop : w.stop.kind = .mark .endOfText := TokenKind.is_iff.1 w.stop_isEnd
    have hstay : w.stop.kind.isOneOf [.newline, .colon] = false := by rw [hstop]; rfl
    have hrest : (c.skip [.newline, .colon]).rest = [w.stop] := by
      rw [Cursor.skip_eq]
      show c.rest.dropWhile (·.kind.isOneOf [.newline, .colon]) = _
      rw [hc, List.dropWhile_cons, hstay]
      rfl
    have hpeek : (c.skip [.newline, .colon]).peek.kind = .mark .endOfText := by
      rw [Seam.Pair.peek_of_rest hrest, hstop]
    have hgo : TokenKind.isOneOf (.mark .endOfText) terminators = false :=
      Bool.eq_false_iff.2 fun hk => (by cases not_isEnd_of_terminator hterm hk)
    rw [Routine.iterate_succ, blockStep_apply, hpeek, hgo]
    rintro ⟨⟩

/-- Where a statement has ended in the text alone, it has ended in the longer one. -/
theorem Seam.Pair.ended (h : w.Pair c d)
    (hc : c.peek.kind.isOneOf (statementEnds ++ terminators) = true) :
    d.peek.kind.isOneOf (statementEnds ++ terminators) = true := by
  cases hend : c.peek.kind.isEnd with
  | false => rw [h.peek hend]; exact hc
  | true =>
    obtain ⟨-, hd⟩ := h.rest_of_isEnd hend
    rw [Cursor.peek, hd, List.headD_cons, w.newline_kind]
    rfl

/-- One more statement of a block, or its end, is the same in the longer text, unless the statement
takes the text to its end. -/
theorem blockStep_of_pair
    (h : Tandem.Statements w n n' .inside g.statement g'.statement)
    (hterm : terminators.all Mark.isOrdinary = true) (hpair : w.Pair c d)
    (hr : Start.inside.Room n' d) (hprev : c.previous ≠ none) {found : List Statement}
    {r : List Statement ⊕ List Statement} {t : Cursor}
    (hstep : g.blockStep terminators found c = .done r t) (ht : t.errors = []) :
    (∃ u, g'.blockStep terminators (found.map (Statement.relocated w.move)) d =
        .done (r.map (List.map (Statement.relocated w.move))
          (List.map (Statement.relocated w.move))) u ∧ w.Pair t u) ∨
      ((∃ found', r = .inl found') ∧ t.rest = [w.stop]) := by
  obtain ⟨hstop, rfl, rfl⟩ | ⟨hgo, hend, st, hst, rfl, hended⟩ := blockStep_clean hstep ht
  · have hend := not_isEnd_of_terminator hterm hstop
    have hpair₀ := pair_separators hpair hend
    have hstop' : (d.skip [.newline, .colon]).peek.kind.isOneOf terminators = true := by
      rw [hpair₀.peek hend]
      exact hstop
    refine .inl ⟨_, ?_, hpair₀⟩
    rw [blockStep_stop hstop', Sum.map_inr, List.map_reverse]
  · have hpair₀ := pair_separators hpair hend
    have hskip : Parser.skip [.newline, .colon] c = .done () (c.skip [.newline, .colon]) := rfl
    have hr₀ := Moves.separators.room_of_pair hpair hpair₀ (Start.at_inside c) hr hskip rfl
    have hprev₀ :=
      Moves.separators.previous_ne_none hpair.final (Start.at_inside c) hskip (.inr hprev)
    obtain ⟨u, hst', hpair'⟩ | ⟨-, hrest, -⟩ :=
      h.shadows _ _ hpair₀ (Start.at_inside _) hr₀ (fun _ => hprev₀) st t hst ht
    · have hkind : (d.skip [.newline, .colon]).peek.kind =
          (c.skip [.newline, .colon]).peek.kind := by
        rw [hpair₀.peek hend, Token.relocated_kind]
      exact .inl ⟨u, blockStep_go (by rw [hkind, hgo]) (by rw [hkind, hend]) hst'
        (Seam.Pair.ended hpair' hended), hpair'⟩
    · exact .inr ⟨⟨_, rfl⟩, hrest⟩

/-- A block that is read without an error does not take the text to its end. -/
theorem Shadows.blockLoop
    (h : Tandem.Statements w n n' .inside g.statement g'.statement)
    (hterm : terminators.all Mark.isOrdinary = true) (j j' : Nat) (hj : j ≤ j')
    (found : List Statement) :
    Shadows w n' .inside (List.map (Statement.relocated w.move))
      (Routine.iterate (g.blockStep terminators) j found)
      (Routine.iterate (g'.blockStep terminators) j' (found.map (Statement.relocated w.move))) := by
  have hmoves : ∀ found, Moves .inside (onward never) (g.blockStep terminators found) :=
    fun found => h.moves.blockStep found
  intro c d hpair hs hr hprev a t hp ht
  induction j generalizing j' found c d with
  | zero => cases hp
  | succ j ih =>
    obtain ⟨i, rfl⟩ : ∃ i, j' = i + 1 := ⟨j' - 1, by omega⟩
    rw [Routine.iterate_succ] at hp
    rw [Routine.iterate_succ]
    cases hstep : g.blockStep terminators found c with
    | done r t₀ =>
      rw [hstep] at hp
      have hfinal := (hmoves found).final hpair.final hs hstep
      cases r with
      | inl found' =>
        have ht₀ := (Moves.iterate hmoves j found').errors_of_done hfinal (Start.at_inside t₀) hp ht
        obtain ⟨u, hstep', hpair'⟩ | ⟨-, hrest⟩ :=
          blockStep_of_pair h hterm hpair hr (hprev rfl) hstep ht₀
        · rw [hstep']
          refine ih i (by omega) found' t₀ u hpair' (Start.at_inside t₀) ?_ (fun _ => ?_) hp
          · exact (hmoves found).room_of_pair hpair hpair' hs hr hstep rfl
          · exact (hmoves found).previous_ne_none hpair.final hs hstep (.inl rfl)
        · exact absurd hp (blockLoop_at_end hterm hrest j _ _ _)
      | inr a' =>
        cases hp
        obtain ⟨u, hstep', hpair'⟩ | ⟨⟨found', hr'⟩, -⟩ :=
          blockStep_of_pair h hterm hpair hr (hprev rfl) hstep ht
        · rw [hstep']
          exact .inl ⟨u, rfl, hpair'⟩
        · cases hr'
    | exit | exhausted => rw [hstep] at hp; cases hp

end

/-! ## Blocks with their location -/

theorem spanned_apply (p : Parser (List Statement)) (c : Cursor) :
    Grammar.spanned p c =
      (p >>= fun found => locationFrom c.peek.location >>= fun l => pure (Block.mk found l)) c :=
  rfl

namespace Tandem

variable {w : Seam} {n n' : Nat} {p p' : Parser (List Statement)}

theorem spanned (h : Tandem w n n' .inside never (List.map (Statement.relocated w.move)) p p') :
    Tandem w n n' .inside never (Block.relocated w.move) (Grammar.spanned p)
      (Grammar.spanned p') := by
  have hbody (start : Location) : Tandem w n n' .inside never (Block.relocated w.move)
      (p >>= fun found => Parser.locationFrom start >>= fun l => Pure.pure ⟨found, l⟩)
      (p' >>= fun found => Parser.locationFrom (w.move.place start) >>= fun l =>
        Pure.pure ⟨found, l⟩) :=
    seq h fun found => seq (locationFrom start fun _ => rfl) fun l =>
      pure (by rw [Block.relocated, Statement.relocatedAll_eq]) rfl
  refine ⟨.view fun c _ => (of_inside (hbody c.peek.location)).moves, .view fun c _ => ?_, .inside,
    ?_⟩
  · rw [Cursor.peek_relocated]
    exact (of_inside (hbody c.peek.location)).follows
  · intro c d hpair hs hr hprev a t hp ht
    rw [spanned_apply] at hp
    obtain ⟨found, t₀, hfound, hlocation⟩ := Routine.bind_eq_done.1 hp
    cases hlocation
    obtain ⟨u, hp', hpair'⟩ | ⟨hopen, hrest, e, u, hp'⟩ :=
      h.shadows c d hpair hs hr hprev found t hfound ht
    · refine .inl ⟨u, ?_, hpair'⟩
      -- both blocks run up to the token passed last
      obtain ⟨x, hx⟩ := Option.ne_none_iff_exists'.1
        (h.moves.previous_ne_none hpair.final hs hfound (.inr (hprev rfl)))
      have hx' : u.previous = some (x.relocated w.move) := by rw [hpair'.previous, hx]; rfl
      have hlocation : u.locationFrom d.peek.location =
          w.move.place (t.locationFrom c.peek.location) := by
        rw [Cursor.locationFrom, Cursor.locationFrom, hx, hx']
        exact hpair.upTo_peek x.location
      rw [spanned_apply, Routine.bind_apply, hp', Block.relocated, Statement.relocatedAll_eq,
        ← hlocation]
      rfl
    · refine .inr ⟨hopen, hrest, e, u, ?_⟩
      rw [spanned_apply, Routine.bind_apply, hp']

end Tandem

namespace Nested

variable {w : Seam} {n n' : Nat} {g g' : Grammar} (h : Nested w n n' g g')
include h

theorem block {terminators : List Mark} (hterm : terminators.all Mark.isOrdinary = true) :
    Tandem w n n' .inside never (Block.relocated w.move) (g.block n terminators)
      (g'.block n' terminators) :=
  .spanned {
    moves := .iterate (fun found => h.statement.moves.blockStep found) n []
    follows := .iterate h.le
      (fun found => Follows.blockStep h.statement.moves h.statement.follows found)
      (fun found => h.statement.moves.blockStep found) []
    forgets := .inside
    shadows := .blockLoop h.statement hterm n n' h.le [] }

end Nested

end BrightScript.Parser
