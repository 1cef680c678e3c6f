import BrightScript.Proofs.Tandem.Statement

/-!
# Scripts in tandem

The rules are tied together by induction on the budget: grammars of any two budgets run in tandem.
For a seam that no cursor meets this says what parsers do on a single text. They move forward, the
budget does not matter as long as it exceeds the number of tokens left, and neither does the place of
the text.
-/

namespace BrightScript

open Grammar (branchEnds)

/-- What follows the text never closes a branch of an `if` that the text leaves open. -/
def Seam.Unclosed (w : Seam) : Prop :=
  ∀ (budget : Nat) (c d : Cursor), w.Pair c d → c.rest = [w.stop] → d.rest.length < budget →
    ∃ e t, (Grammar.ofBudget budget).block budget branchEnds d = .exit e t

/-- A seam behind a text without tokens, where nothing is read. -/
def Seam.nowhere (m : Relocation) : Seam where
  move := m
  tokens := []
  stop := ⟨.mark .endOfText, .builtin⟩
  newline := ⟨.mark .newline, m.place .builtin⟩
  more := []
  last := ⟨.mark .endOfText, .builtin⟩
  stop_isEnd := rfl
  newline_kind := rfl
  newline_upTo _ := rfl

theorem Seam.not_pair_nowhere (m : Relocation) (c d : Cursor) : ¬(Seam.nowhere m).Pair c d := by
  intro h
  obtain ⟨passed, hpassed⟩ := h.reached
  obtain ⟨ts, hc, -, -⟩ := h.rest
  have hnil : [] = passed ++ c.rest := hpassed.rest
  rw [hc] at hnil
  simp at hnil

theorem Seam.unclosed_nowhere (m : Relocation) : (Seam.nowhere m).Unclosed :=
  fun _ c d h => absurd h (Seam.not_pair_nowhere m c d)

namespace Parser

theorem Tandem.giveUp {α : Type} {w : Seam} {n' : Nat} {k : α → Bool} {φ : α → α} (q : Parser α) :
    Tandem w 0 n' .inside k φ Routine.giveUp q :=
  ⟨.giveUp, fun _ _ _ hr => absurd hr.lt (Nat.not_lt_zero _), .inside, .giveUp q⟩

theorem Nested.ofBudget {w : Seam} (hw : w.Unclosed) (n n' : Nat) (hn : n ≤ n') :
    Nested w n n' (Grammar.ofBudget n) (Grammar.ofBudget n') := by
  induction n generalizing n' with
  | zero => exact ⟨hn, rfl, fun _ => .giveUp _, .giveUp _, .giveUp _, hw n'⟩
  | succ n ih =>
    obtain ⟨i, rfl⟩ : ∃ i, n' = i + 1 := ⟨n' - 1, by omega⟩
    have h := ih i (by omega)
    refine ⟨hn, rfl, fun least => ?_, ?_, ?_, hw (i + 1)⟩
    · show Tandem w _ _ _ _ _ (parseExpression (n + 1) least) (parseExpression (i + 1) least)
      rw [parseExpression, parseExpression]
      exact .of_rule (h.expressionRule least)
    · show Tandem w _ _ _ _ _ (parseSigned (n + 1)) (parseSigned (i + 1))
      rw [parseSigned, parseSigned]
      exact .of_rule h.signedRule
    · show Tandem w _ _ _ _ _ (parseStatement (n + 1)) (parseStatement (i + 1))
      rw [parseStatement, parseStatement]
      exact .of_rule h.statementRule

/-- The same of statements that need not have a token before them. -/
theorem Tandem.statement {w : Seam} (hw : w.Unclosed) {n n' : Nat} (hn : n ≤ n') :
    Tandem.Statements w n n' .anywhere
      (Grammar.ofBudget (n + 1)).statement (Grammar.ofBudget (n' + 1)).statement := by
  show Tandem w _ _ _ _ _ (parseStatement (n + 1)) (parseStatement (n' + 1))
  rw [parseStatement, parseStatement]
  exact (Nested.ofBudget hw n n' hn).statementRule

/-- Grammars of any two budgets run in tandem wherever the text stands. -/
theorem Nested.anywhere (m : Relocation) {n n' : Nat} (hn : n ≤ n') :
    Nested (Seam.nowhere m) n n' (Grammar.ofBudget n) (Grammar.ofBudget n') :=
  .ofBudget (Seam.unclosed_nowhere m) n n' hn

/-! ## The loop over a script -/

theorem programStep_eq (g : Grammar) (found : List Statement) :
    g.programStep found = skip [.newline, .colon] >>= fun _ => peek >>= fun t =>
      if t.kind.isEnd = true then pure (.inr found.reverse)
      else g.blockStatement [] found >>= fun found => pure (.inl found) :=
  rfl

section
variable {g g' : Grammar} {m : Relocation} {n : Nat}

theorem Moves.programStep (h : Moves .inside always g.statement) (found : List Statement) :
    Moves .inside (onward never) (g.programStep found) := by
  rw [programStep_eq]
  refine Moves.separators.bind fun _ => .view fun c _ => ?_
  cases hend : c.peek.kind.isEnd with
  | true => exact .pure rfl
  | false => exact (h.blockStatement hend [] found).bind fun _ => .pure rfl

theorem Follows.programStep (hm : Moves .inside always g.statement)
    (h : Follows m n .inside (Statement.relocated m) g.statement g'.statement)
    (found : List Statement) :
    Follows m n .inside
      (Sum.map (List.map (Statement.relocated m)) (List.map (Statement.relocated m)))
      (g.programStep found) (g'.programStep (found.map (Statement.relocated m))) := by
  rw [programStep_eq, programStep_eq]
  refine Follows.bind (.skip _) Moves.separators (fun _ => rfl) fun _ => .view fun c _ => ?_
  rw [Cursor.peek_relocated, Token.relocated_kind]
  cases hend : c.peek.kind.isEnd with
  | true => exact .pure (congrArg Sum.inr List.map_reverse)
  | false =>
    have hst := Follows.blockStatement h [] found
    refine Follows.bind (hst.weaken (fun _ _ => Start.at_inside _) fun _ => id)
      (hm.blockStatement hend [] found) (fun _ => rfl) fun _ => .pure rfl

end

theorem Moves.statement (n : Nat) : Moves .inside always (Grammar.ofBudget n).statement :=
  (Nested.anywhere .inPlace (Nat.le_refl n)).statement.moves

theorem Follows.statement (m : Relocation) {n n' : Nat} (hn : n ≤ n') :
    Follows m n .inside (Statement.relocated m) (Grammar.ofBudget n).statement
      (Grammar.ofBudget n').statement :=
  (Nested.anywhere m hn).statement.follows

theorem Moves.program (n : Nat) (found : List Statement) (budget : Nat) :
    Moves .inside never (Routine.iterate (Grammar.ofBudget n).programStep budget found) :=
  .iterate (fun found => (Moves.statement n).programStep found) budget found

theorem Follows.program (m : Relocation) {n n' : Nat} (hn : n ≤ n') :
    Follows m n .inside (List.map (Statement.relocated m)) (parseProgram n) (parseProgram n') :=
  .iterate hn (fun found => Follows.programStep (Moves.statement n) (Follows.statement m hn) found)
    (fun found => (Moves.statement n).programStep found) []

end Parser

end BrightScript
