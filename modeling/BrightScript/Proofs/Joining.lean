import BrightScript.Proofs.Termination

/-!
# One script behind another

A script that is read without an error is a `Reading`: separators and statements in turn, up to the
end of the text. Where the script stands does not matter, nor does the token before it. So when a
newline and a second script follow, the statements of both are read, one after the other.

There is one exception. An `if` may be the last thing in a script, with nothing behind its `then`. It
stands for an `if` without a branch there, but with more text behind it, it opens a block. The second
script cannot close that block, since none of its statements starts with a mark that would.
-/

namespace BrightScript

open Grammar (branchEnds)

namespace Cursor

variable {c : Cursor} {q : TokenKind → Bool}

/-- Some of the tokens to be passed may be passed before. -/
theorem past_append {xs ys : List Token} (hc : c.rest = xs ++ ys) (hq : ∀ t ∈ xs, q t.kind = true) :
    c.past q = past q { c with rest := ys, previous := xs.getLast?.or c.previous } := by
  simp only [past, hc, List.dropWhile_append_of_pos hq, List.takeWhile_append_of_pos hq,
    List.getLast?_append, Option.or_assoc]

theorem errors_skip (c : Cursor) (marks : List Mark) : (c.skip marks).errors = c.errors := by
  rw [skip_eq]
  rfl

theorem unnamed_skip (c : Cursor) (marks : List Mark) : (c.skip marks).unnamed = c.unnamed := by
  rw [skip_eq]
  rfl

theorem isEnd_skip (marks : List Mark) (h : c.final.kind.isEnd = true) :
    (c.skip marks).final.kind.isEnd = true := by
  rw [skip_eq]
  exact h

theorem length_skip_le (c : Cursor) (marks : List Mark) :
    (c.skip marks).rest.length ≤ c.rest.length := by
  rw [skip_eq]
  exact (c.passes_past _).length_le

end Cursor

namespace Parser

/-- The statements that are read from a cursor up to the end of the text without an error. -/
inductive Reading (g : Grammar) : Cursor → List Statement → Cursor → Prop
  | stop {c : Cursor} (hend : (c.skip [.newline, .colon]).peek.kind.isEnd = true)
    (herrors : c.errors = []) : Reading g c [] (c.skip [.newline, .colon])
  | go {c t u : Cursor} {st : Statement} {sts : List Statement}
    (hend : (c.skip [.newline, .colon]).peek.kind.isEnd = false)
    (hst : g.statement (c.skip [.newline, .colon]) = .done st t)
    (hended : t.peek.kind.isOneOf statementEnds = true) (more : Reading g t sts u) :
    Reading g c (st :: sts) u

section
variable {g : Grammar} {found : List Statement} {c t : Cursor}

theorem programStep_apply (g : Grammar) (found : List Statement) (c : Cursor) :
    g.programStep found c =
      (if (c.skip [.newline, .colon]).peek.kind.isEnd = true then pure (.inr found.reverse)
      else g.blockStatement [] found >>= fun found => pure (.inl found) :
        Parser (List Statement ⊕ List Statement)) (c.skip [.newline, .colon]) :=
  rfl

theorem programStep_stop (hend : (c.skip [.newline, .colon]).peek.kind.isEnd = true) :
    g.programStep found c = .done (.inr found.reverse) (c.skip [.newline, .colon]) := by
  rw [programStep_apply, if_pos hend]
  rfl

theorem programStep_go {st : Statement}
    (hend : (c.skip [.newline, .colon]).peek.kind.isEnd = false)
    (hst : g.statement (c.skip [.newline, .colon]) = .done st t)
    (hended : t.peek.kind.isOneOf statementEnds = true) :
    g.programStep found c = .done (.inl (st :: found)) t := by
  rw [programStep_apply, hend, if_neg Bool.false_ne_true, Routine.bind_apply,
    blockStatement_ended hst (by rwa [List.append_nil])]
  rfl

theorem programStep_clean {r : List Statement ⊕ List Statement}
    (h : g.programStep found c = .done r t) (ht : t.errors = []) :
    ((c.skip [.newline, .colon]).peek.kind.isEnd = true ∧ r = .inr found.reverse ∧
        t = c.skip [.newline, .colon]) ∨
      ((c.skip [.newline, .colon]).peek.kind.isEnd = false ∧
        ∃ st, g.statement (c.skip [.newline, .colon]) = .done st t ∧ r = .inl (st :: found) ∧
          t.peek.kind.isOneOf statementEnds = true) := by
  rw [programStep_apply] at h
  cases hend : (c.skip [.newline, .colon]).peek.kind.isEnd with
  | true =>
    rw [hend, if_pos rfl] at h
    cases h
    exact .inl ⟨rfl, rfl, rfl⟩
  | false =>
    rw [hend, if_neg Bool.false_ne_true] at h
    obtain ⟨found', u, hst, hr⟩ := Routine.bind_eq_done.1 h
    cases hr
    obtain ⟨st, hdone, rfl, hended⟩ := blockStatement_clean hst ht
    rw [List.append_nil] at hended
    exact .inr ⟨rfl, st, hdone, rfl, hended⟩

end

namespace Reading

variable {n : Nat} {c t u : Cursor} {sts : List Statement}

/-! ## Readings and the loop over a script -/

theorem of_iterate (j : Nat) {found a : List Statement}
    (h : Routine.iterate (Grammar.ofBudget n).programStep j found c = .done a u)
    (hf : c.final.kind.isEnd = true) (hu : u.errors = []) :
    ∃ sts, a = found.reverse ++ sts ∧ Reading (.ofBudget n) c sts u := by
  induction j generalizing found c with
  | zero => cases h
  | succ j ih =>
    rw [Routine.iterate_succ] at h
    cases hstep : (Grammar.ofBudget n).programStep found c with
    | done r t =>
      rw [hstep] at h
      have hfinal := ((Moves.statement n).programStep found).final hf (Start.at_inside c) hstep
      have ht : t.errors = [] := by
        cases r with
        | inl found' =>
          exact (Moves.program n found' j).errors_of_done hfinal (Start.at_inside t) h hu
        | inr a' => cases h; exact hu
      obtain ⟨hend, rfl, rfl⟩ | ⟨hend, st, hst, rfl, hended⟩ := programStep_clean hstep ht
      · cases h
        rw [Cursor.errors_skip] at ht
        exact ⟨[], (List.append_nil _).symm, .stop hend ht⟩
      · obtain ⟨sts, rfl, hsts⟩ := ih h hfinal
        exact ⟨st :: sts, by simp, .go hend hst hended hsts⟩
    | exit | exhausted => rw [hstep] at h; cases h

theorem after_statement {st : Statement} (hf : c.final.kind.isEnd = true)
    (hst : (Grammar.ofBudget n).statement (c.skip [.newline, .colon]) = .done st t) :
    t.final.kind.isEnd = true ∧ t.rest.length < c.rest.length := by
  have hf' := Cursor.isEnd_skip [.newline, .colon] hf
  have hlt := (Moves.statement n).length_lt hf' (Start.at_inside _) hst rfl
  exact ⟨(Moves.statement n).final hf' (Start.at_inside _) hst,
    Nat.lt_of_lt_of_le hlt (c.length_skip_le _)⟩

theorem iterate (h : Reading (.ofBudget n) c sts u) (hf : c.final.kind.isEnd = true) (j : Nat)
    (hj : c.rest.length < j) (found : List Statement) :
    Routine.iterate (Grammar.ofBudget n).programStep j found c =
      .done (found.reverse ++ sts) u := by
  induction h generalizing j found with
  | @stop c hend _ =>
    obtain ⟨i, rfl⟩ : ∃ i, j = i + 1 := ⟨j - 1, by omega⟩
    rw [Routine.iterate_succ, programStep_stop hend, List.append_nil]
  | @go c t u st sts hend hst hended _ ih =>
    obtain ⟨i, rfl⟩ : ∃ i, j = i + 1 := ⟨j - 1, by omega⟩
    obtain ⟨hft, hlt⟩ := after_statement hf hst
    rw [Routine.iterate_succ, programStep_go hend hst hended]
    show Routine.iterate _ i (st :: found) t = _
    rw [ih hft i (by omega) (st :: found), List.reverse_cons, List.append_assoc]
    rfl

theorem errors_end (h : Reading (.ofBudget n) c sts u) : u.errors = [] := by
  induction h with
  | stop _ herrors => rw [Cursor.errors_skip, herrors]
  | go _ _ _ _ ih => exact ih

theorem errors_start (h : Reading (.ofBudget n) c sts u) (hf : c.final.kind.isEnd = true) :
    c.errors = [] := by
  induction h with
  | stop _ herrors => exact herrors
  | @go c t u st sts _ hst _ _ ih =>
    have hf' := Cursor.isEnd_skip [.newline, .colon] hf
    have ht := ih (after_statement hf hst).1
    rw [← c.errors_skip [.newline, .colon]]
    exact (Moves.statement n).errors_of_done hf' (Start.at_inside _) hst ht

/-! ## Readings elsewhere -/

theorem relocated (m : Relocation) {n' : Nat} (hn : n ≤ n') (h : Reading (.ofBudget n) c sts u)
    (hf : c.final.kind.isEnd = true) (hlt : c.rest.length < n) :
    Reading (.ofBudget n') (c.relocated m) (sts.map (Statement.relocated m)) (u.relocated m) := by
  induction h with
  | @stop c hend herrors =>
    rw [← Cursor.skip_relocated]
    refine .stop ?_ ?_
    · rw [Cursor.skip_relocated, Cursor.peek_relocated]
      exact hend
    · show c.errors.map _ = []
      rw [herrors]
      rfl
  | @go c t u st sts hend hst hended _ ih =>
    have hf' := Cursor.isEnd_skip [.newline, .colon] hf
    have hroom := Nat.lt_of_le_of_lt (c.length_skip_le [.newline, .colon]) hlt
    have hfollows := Follows.statement m hn _ hf' (Start.at_inside _) (Start.room_inside hroom)
    obtain ⟨hft, hlt'⟩ := after_statement hf hst
    refine .go (t := t.relocated m) ?_ ?_ ?_ (ih hft (by omega))
    · rw [Cursor.skip_relocated, Cursor.peek_relocated]
      exact hend
    · rw [Cursor.skip_relocated, hfollows.2, hst]
      rfl
    · rw [Cursor.peek_relocated]
      exact hended

/-- A script may be read from where its separators are passed. -/
theorem of_skip_eq {d : Cursor} {g : Grammar} (h : Reading g c sts u)
    (hskip : c.skip [.newline, .colon] = d.skip [.newline, .colon]) : Reading g d sts u := by
  cases h with
  | stop hend herrors =>
    rw [hskip] at hend ⊢
    refine .stop hend ?_
    rw [← d.errors_skip [.newline, .colon], ← hskip, Cursor.errors_skip, herrors]
  | go hend hst hended more =>
    rw [hskip] at hend hst
    exact .go hend hst hended more

/-- The token before a script does not matter. -/
theorem forget (h : Reading (.ofBudget (n + 1)) c sts u) (hf : c.final.kind.isEnd = true)
    (previous : Option Token) :
    ∃ v, Reading (.ofBudget (n + 1)) { c with previous := previous } sts v := by
  have hskip : Cursor.skip [.newline, .colon] { c with previous := previous } =
      { c.skip [.newline, .colon] with
        previous :=
          (c.rest.takeWhile (·.kind.isOneOf [.newline, .colon])).getLast?.or previous } := by
    rw [Cursor.skip_eq, Cursor.skip_eq]
    rfl
  cases h with
  | stop hend herrors => exact ⟨_, .stop (by rw [hskip]; exact hend) herrors⟩
  | @go _ t _ st sts hend hst hended more =>
    refine ⟨u, .go (by rw [hskip]; exact hend) ?_ hended more⟩
    have hf' := Cursor.isEnd_skip [.newline, .colon] hf
    have hstatement := Tandem.statement (Seam.unclosed_nowhere .inPlace) (Nat.le_refl n)
    rw [hskip]
    exact hstatement.forgets rfl _ _ st t hf' (by rintro _ ⟨⟩) rfl hst

/-- A script that follows a newline is read as it is alone. -/
theorem behind {tokens : List Token}
    (h : Reading (.ofBudget (tokens.length + 1)) (.ofTokens tokens) sts u)
    (hf : (Cursor.ofTokens tokens).final.kind.isEnd = true) (m : Relocation) {newline : Token}
    (hnewline : newline.kind = .mark .newline) {d : Cursor}
    (hrest : d.rest = newline :: tokens.map (Token.relocated m))
    (hfinal : d.final = (Cursor.ofTokens tokens).final.relocated m) (herrors : d.errors = [])
    (hunnamed : d.unnamed = m.number 0) {budget : Nat} (hb : tokens.length < budget) :
    ∃ v, Reading (.ofBudget budget) d (sts.map (Statement.relocated m)) v := by
  obtain ⟨i, rfl⟩ : ∃ i, budget = i + 1 := ⟨budget - 1, by omega⟩
  obtain ⟨v, hv⟩ := (h.relocated m hb hf (Nat.lt_succ_self _)).forget hf (some newline)
  refine ⟨v, hv.of_skip_eq ?_⟩
  have hskip : ∀ t ∈ [newline], t.kind.isOneOf [.newline, .colon] = true := by
    simp only [List.mem_singleton, forall_eq, hnewline]
    rfl
  have hd : d.rest = [newline] ++ tokens.map (Token.relocated m) := hrest
  rw [Cursor.skip_eq, Cursor.skip_eq, Cursor.past_append hd hskip, hfinal, herrors, hunnamed]
  rfl

end Reading

/-! ## Open branches -/

theorem statement_at_branchEnd {c : Cursor} (h : c.peek.kind.isOneOf branchEnds = true)
    (budget : Nat) (st : Statement) (t : Cursor) : parseStatement budget c ≠ .done st t := by
  obtain ⟨mark, hmem, hkind⟩ := TokenKind.isOneOf_iff.1 h
  cases budget with
  | zero => rintro ⟨⟩
  | succ budget =>
    simp only [branchEnds, List.mem_cons, List.not_mem_nil, or_false] at hmem
    rcases hmem with rfl | rfl | rfl <;>
    · simp only [parseStatement, Grammar.statementRule, Grammar.simpleStatement, Grammar.chain,
        Grammar.primary, Routine.bind_apply, peekKind, peek, here, Routine.view_apply, hkind]
      rintro ⟨⟩

/-- A script does not close a branch of an `if`. -/
theorem Reading.unclosed {n : Nat} {c u : Cursor} {sts : List Statement}
    (h : Reading (.ofBudget n) c sts u) (hf : c.final.kind.isEnd = true) (j : Nat)
    (hj : c.rest.length < j) (found : List Statement) :
    ∃ e t, Routine.iterate ((Grammar.ofBudget n).blockStep branchEnds) j found c = .exit e t := by
  induction h generalizing j found with
  | @stop c hend _ =>
    obtain ⟨i, rfl⟩ : ∃ i, j = i + 1 := ⟨j - 1, by omega⟩
    have hterm : (c.skip [.newline, .colon]).peek.kind.isOneOf branchEnds = false := by
      rw [TokenKind.is_iff.1 hend]
      rfl
    rw [Routine.iterate_succ, blockStep_apply, hterm, hend]
    exact ⟨_, _, rfl⟩
  | @go c t u st sts hend hst hended _ ih =>
    obtain ⟨i, rfl⟩ : ∃ i, j = i + 1 := ⟨j - 1, by omega⟩
    obtain ⟨hft, hlt⟩ := after_statement hf hst
    have hterm : (c.skip [.newline, .colon]).peek.kind.isOneOf branchEnds = false := by
      cases hterm : (c.skip [.newline, .colon]).peek.kind.isOneOf branchEnds with
      | false => rfl
      | true => exact absurd hst (statement_at_branchEnd hterm n st t)
    have hended' : t.peek.kind.isOneOf (statementEnds ++ branchEnds) = true := by
      obtain ⟨mark, hmem, hmark⟩ := TokenKind.isOneOf_iff.1 hended
      exact TokenKind.isOneOf_iff.2 ⟨mark, List.mem_append_left _ hmem, hmark⟩
    rw [Routine.iterate_succ, blockStep_go hterm hend hst hended']
    exact ih hft i (by omega) (st :: found)

theorem Reading.block_exits {n : Nat} {c u : Cursor} {sts : List Statement}
    (h : Reading (.ofBudget n) c sts u) (hf : c.final.kind.isEnd = true) (hn : c.rest.length < n) :
    ∃ e t, (Grammar.ofBudget n).block n branchEnds c = .exit e t := by
  obtain ⟨e, t, hloop⟩ := h.unclosed hf n hn []
  refine ⟨e, t, ?_⟩
  rw [Grammar.block, spanned_apply, Routine.bind_apply, hloop]

/-! ## Across the seam -/

/-- Behind the separators at the end of a text the longer text goes on. -/
theorem Seam.Pair.separators_end {w : Seam} {c d : Cursor} (h : w.Pair c d)
    (hend : (c.skip [.newline, .colon]).peek.kind.isEnd = true) :
    ∃ u : Cursor, u.rest = w.newline :: w.more ∧ u.final = w.last ∧ u.errors = [] ∧
      u.unnamed = w.move.number c.unnamed ∧
      u.skip [.newline, .colon] = d.skip [.newline, .colon] := by
  obtain ⟨ts, hc, hd, hts⟩ := h.rest
  have hall : ∀ t ∈ ts, t.kind.isOneOf [.newline, .colon] = true := by
    cases hdrop : ts.dropWhile (·.kind.isOneOf [.newline, .colon]) with
    | nil =>
      have htake : ts.takeWhile (·.kind.isOneOf [.newline, .colon]) ++ _ = ts :=
        List.takeWhile_append_dropWhile
      rw [hdrop, List.append_nil] at htake
      rw [← htake]
      exact List.all_eq_true.1 List.all_takeWhile
    | cons x xs =>
      -- a token of the text would come next, and not the end
      have hx : x ∈ ts := (List.dropWhile_suffix _).mem (hdrop ▸ List.mem_cons_self)
      rw [Cursor.skip_eq, Cursor.peek, Cursor.past, hc, List.dropWhile_append, hdrop] at hend
      rw [List.isEmpty_cons, if_neg Bool.false_ne_true, List.cons_append, List.headD_cons,
        hts x hx] at hend
      cases hend
  refine ⟨{ d with
    rest := w.newline :: w.more
    previous := (ts.map (Token.relocated w.move)).getLast?.or d.previous }, rfl, h.last, h.errors',
    h.unnamed, ?_⟩
  rw [Cursor.skip_eq, Cursor.skip_eq, Cursor.past_append hd]
  intro t ht
  obtain ⟨t₀, ht₀, rfl⟩ := List.mem_map.1 ht
  exact hall t₀ ht₀

/-- What is read of a script alone is read of it in the longer text, and then what follows; or the
script ends in an open `if`, and the longer text cannot be read. -/
theorem Reading.joined {w : Seam} (hw : w.Unclosed) {n n' : Nat} (hn : n ≤ n') {c t : Cursor}
    {sts others : List Statement} (h : Reading (.ofBudget (n + 1)) c sts t)
    (hmore : ∀ u : Cursor, u.rest = w.newline :: w.more → u.final = w.last → u.errors = [] →
      u.unnamed = w.move.number t.unnamed → ∃ v, Reading (.ofBudget (n' + 1)) u others v)
    {d : Cursor} (hpair : w.Pair c d) (hd : d.rest.length ≤ n') :
    (∃ v, Reading (.ofBudget (n' + 1)) d (sts.map (Statement.relocated w.move) ++ others) v) ∨
      (EndsInOpenIf w.tokens ∧ ∀ sts v, ¬Reading (.ofBudget (n' + 1)) d sts v) := by
  induction h generalizing d with
  | @stop c hend _ =>
    obtain ⟨u, hrest, hlast, herrors, hunnamed, hskip⟩ := Seam.Pair.separators_end hpair hend
    obtain ⟨v, hv⟩ := hmore u hrest hlast herrors (by rw [hunnamed, Cursor.unnamed_skip])
    exact .inl ⟨v, hv.of_skip_eq hskip⟩
  | @go c t u st sts hend hst hended more ih =>
    have hpair₀ := pair_separators hpair hend
    have hend' : (d.skip [.newline, .colon]).peek.kind.isEnd = false := by
      rw [hpair₀.peek hend]
      exact hend
    have ht := more.errors_start (after_statement hpair.final hst).1
    have hroom := Nat.le_trans (d.length_skip_le [.newline, .colon]) hd
    obtain ⟨u', hst', hpair'⟩ | ⟨hopen, -, e, u', hst'⟩ :=
      (Tandem.statement hw hn).shadows _ _ hpair₀ (by rintro _ ⟨⟩) hroom (by rintro ⟨⟩) st t hst ht
    · have hended' : u'.peek.kind.isOneOf (statementEnds ++ []) = true :=
        Seam.Pair.ended hpair' (by rwa [List.append_nil])
      rw [List.append_nil] at hended'
      have hlt := (after_statement hpair.final hst).2
      have hlen := hpair.length
      have hlen' := hpair'.length
      obtain ⟨v, hv⟩ | ⟨hopen, hnone⟩ := ih hmore hpair' (by omega)
      · exact .inl ⟨v, .go hend' hst' hended' hv⟩
      · refine .inr ⟨hopen, fun sts v hreading => ?_⟩
        cases hreading with
        | stop hend₀ _ => rw [hend'] at hend₀; cases hend₀
        | go _ hst₀ _ hrest =>
          rw [hst'] at hst₀
          cases hst₀
          exact hnone _ _ hrest
    · refine .inr ⟨hopen, fun sts v hreading => ?_⟩
      cases hreading with
      | stop hend₀ _ => rw [hend'] at hend₀; cases hend₀
      | go _ hst₀ _ _ => rw [hst'] at hst₀; cases hst₀

/-! ## Lists of tokens -/

/-- How many names the functions without one take in a script. -/
def unnamedIn (tokens : List Token) : Nat :=
  match parseProgram (tokens.length + 1) (.ofTokens tokens) with
  | .done _ c => c.unnamed
  | _ => 0

section
variable {tokens : List Token} {sts : List Statement} {u : Cursor} {last : Token}

theorem reading_of_parseTokens (hf : (Cursor.ofTokens tokens).final.kind.isEnd = true)
    (h : parseTokens tokens = .ok sts) :
    ∃ u, Reading (.ofBudget (tokens.length + 1)) (.ofTokens tokens) sts u ∧
      u.unnamed = unnamedIn tokens := by
  rw [parseTokens] at h
  cases hp : parseProgram (tokens.length + 1) (.ofTokens tokens) with
  | done a u =>
    simp only [hp] at h
    by_cases herrors : u.errors.isEmpty = true
    · rw [if_pos herrors] at h
      cases h
      obtain ⟨sts, hsts, hreading⟩ := Reading.of_iterate _ hp hf (List.isEmpty_iff.1 herrors)
      rw [List.reverse_nil, List.nil_append] at hsts
      subst hsts
      exact ⟨u, hreading, by simp only [unnamedIn, hp]⟩
    · rw [if_neg herrors] at h
      cases h
  | exit | exhausted => simp only [hp] at h; cases h

theorem parseTokens_of_reading (hf : (Cursor.ofTokens tokens).final.kind.isEnd = true)
    (h : Reading (.ofBudget (tokens.length + 1)) (.ofTokens tokens) sts u) :
    parseTokens tokens = .ok sts := by
  have hp : parseProgram (tokens.length + 1) (.ofTokens tokens) = .done sts u :=
    h.iterate hf _ (Nat.lt_succ_self _) []
  simp only [parseTokens, hp, h.errors_end]
  rfl

theorem parseTokens_fails (hlast : tokens.getLast? = some last)
    (hend : last.kind = .mark .endOfText)
    (h : ∀ sts u, ¬Reading (.ofBudget (tokens.length + 1)) (.ofTokens tokens) sts u) :
    ∃ errors, errors ≠ [] ∧ parseTokens tokens = .error errors := by
  have hstands := Cursor.standsAt_ofTokens hlast hend
  obtain ⟨outcome, hne, houtcome⟩ := terminates_program 0 _ hstands
  have hp := houtcome (tokens.length + 1) (Nat.lt_succ_self _)
  cases outcome with
  | done a u =>
    simp only [parseTokens, hp]
    by_cases herrors : u.errors.isEmpty = true
    · obtain ⟨sts, -, hreading⟩ :=
        Reading.of_iterate _ hp hstands.final_isEnd (List.isEmpty_iff.1 herrors)
      exact absurd hreading (h sts u)
    · refine ⟨u.errors.reverse, fun hnil => ?_, if_neg herrors⟩
      rw [List.reverse_eq_nil_iff.1 hnil] at herrors
      exact herrors rfl
  | exit e u =>
    simp only [parseTokens, hp]
    exact ⟨_, by simp, rfl⟩
  | exhausted => exact absurd rfl hne

end

/-- The tokens of two scripts, one some lines and bytes behind the other. -/
structure Scripts where
  first : List Token
  stop : Token
  newline : Token
  second : List Token
  lines : Nat
  bytes : Nat
  endless : Endless first
  stop_kind : stop.kind = .mark .endOfText
  newline_kind : newline.kind = .mark .newline
  newline_upTo : ∀ b, newline.location.upTo b = stop.location.upTo b
  second_ends : ∃ last, second.getLast? = some last ∧ last.kind = .mark .endOfText

namespace Scripts

variable (s : Scripts)

/-- Where the second script stands, behind so many functions without a name. The tokens do not depend
on the number. -/
def move (count : Nat) : Relocation :=
  .after s.lines s.bytes count

def alone : List Token :=
  s.first ++ [s.stop]

def both : List Token :=
  s.first ++ s.newline :: s.second.map (Token.relocated (s.move 0))

/-- Where the first script ends and the second one follows. -/
def seam : Seam where
  move := .inPlace
  tokens := s.alone
  stop := s.stop
  newline := s.newline
  more := s.second.map (Token.relocated (s.move 0))
  last := (Cursor.ofTokens s.second).final.relocated (s.move 0)
  stop_isEnd := by rw [s.stop_kind]; rfl
  newline_kind := s.newline_kind
  newline_upTo := s.newline_upTo

theorem alone_final : (Cursor.ofTokens s.alone).final = s.stop := by
  simp [Cursor.ofTokens, alone, List.getLastD_eq_getLast?]

theorem alone_isEnd : (Cursor.ofTokens s.alone).final.kind.isEnd = true := by
  rw [s.alone_final, s.stop_kind]
  rfl

theorem second_isEnd : (Cursor.ofTokens s.second).final.kind.isEnd = true := by
  obtain ⟨last, hlast, hend⟩ := s.second_ends
  exact (Cursor.standsAt_ofTokens hlast hend).final_isEnd

theorem both_last : s.both.getLast? = some s.seam.last := by
  obtain ⟨last, hlast, -⟩ := s.second_ends
  have hfinal : (Cursor.ofTokens s.second).final = last := by
    simp [Cursor.ofTokens, List.getLastD_eq_getLast?, hlast]
  rw [both, List.getLast?_append, List.getLast?_cons, List.getLast?_map, hlast, seam, hfinal]
  rfl

theorem both_final : (Cursor.ofTokens s.both).final = s.seam.last := by
  show s.both.getLastD _ = _
  rw [List.getLastD_eq_getLast?, s.both_last]
  rfl

/-- At their first tokens the first script alone and both scripts look the same. -/
theorem pair : s.seam.Pair (.ofTokens s.alone) (.ofTokens s.both) where
  rest := by
    have hmap : s.first.map (Token.relocated .inPlace) = s.first := List.map_id _
    refine ⟨s.first, rfl, ?_, s.endless⟩
    show s.both = s.first.map (Token.relocated .inPlace) ++ _
    rw [hmap]
    rfl
  previous := rfl
  settled := by rintro t ⟨⟩
  final := s.alone_isEnd
  last := s.both_final
  errors := rfl
  errors' := rfl
  unnamed := rfl
  reached := ⟨[], .refl _⟩

variable {as bs : List Statement}

/-- The second script is read behind the newline, whatever numbers its functions get. -/
theorem reading_second (hb : parseTokens s.second = .ok bs) {d : Cursor}
    (hrest : d.rest = s.seam.newline :: s.seam.more) (hfinal : d.final = s.seam.last)
    (herrors : d.errors = []) {budget : Nat} (hbudget : d.rest.length ≤ budget) :
    ∃ v, Reading (.ofBudget budget) d (bs.map (Statement.relocated (s.move d.unnamed))) v := by
  obtain ⟨u, hreading, -⟩ := reading_of_parseTokens s.second_isEnd hb
  refine hreading.behind s.second_isEnd (s.move d.unnamed) s.newline_kind hrest hfinal herrors
    (Nat.zero_add _).symm ?_
  rw [hrest, seam, List.length_cons, List.length_map] at hbudget
  exact hbudget

theorem unclosed (hb : parseTokens s.second = .ok bs) : s.seam.Unclosed := by
  intro budget c d hpair hc hlt
  have hend : c.peek.kind.isEnd = true := by
    rw [Seam.Pair.peek_of_rest hc]
    exact s.seam.stop_isEnd
  obtain ⟨-, hd⟩ := hpair.rest_of_isEnd hend
  obtain ⟨v, hv⟩ := s.reading_second hb hd hpair.last hpair.errors' (Nat.le_of_lt hlt)
  refine hv.block_exits ?_ hlt
  rw [hpair.last]
  exact s.second_isEnd

/-- The scripts are read one after the other, unless the first ends in an open `if`. -/
theorem parse_both (ha : parseTokens s.alone = .ok as) (hb : parseTokens s.second = .ok bs) :
    parseTokens s.both = .ok (as ++ bs.map (Statement.relocated (s.move (unnamedIn s.alone)))) ∨
      (EndsInOpenIf s.alone ∧ ∃ errors, errors ≠ [] ∧ parseTokens s.both = .error errors) := by
  obtain ⟨u, hreading, hcount⟩ := reading_of_parseTokens s.alone_isEnd ha
  have hlength : s.alone.length ≤ s.both.length := by
    simp [alone, both]
  have hfinal : s.seam.last.kind = .mark .endOfText := TokenKind.is_iff.1 s.second_isEnd
  have hmore : ∀ d : Cursor, d.rest = s.seam.newline :: s.seam.more → d.final = s.seam.last →
      d.errors = [] → d.unnamed = u.unnamed → ∃ v, Reading (.ofBudget (s.both.length + 1)) d
        (bs.map (Statement.relocated (s.move (unnamedIn s.alone)))) v := by
    intro d hrest hlast herrors hunnamed
    have hd : d.rest.length ≤ s.both.length + 1 := by
      have hboth : s.both.length = s.first.length + (s.seam.newline :: s.seam.more).length :=
        List.length_append
      rw [hrest]
      omega
    have hsecond := s.reading_second hb hrest hlast herrors hd
    rwa [hunnamed, hcount] at hsecond
  obtain ⟨v, hv⟩ | ⟨hopen, hnone⟩ :=
    hreading.joined (s.unclosed hb) hlength hmore s.pair (Nat.le_refl _)
  · have hmap : as.map (Statement.relocated s.seam.move) = as := by
      rw [seam, Statement.relocated_inPlace_eq, List.map_id]
    rw [hmap] at hv
    exact .inl (parseTokens_of_reading (by rw [s.both_final]; exact s.second_isEnd) hv)
  · exact .inr ⟨hopen, parseTokens_fails s.both_last hfinal hnone⟩

end Scripts

end Parser

end BrightScript
