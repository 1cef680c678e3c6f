import BrightScript.Proofs.Tandem.Program

/-!
# The parser always ends

Positions are counted from the first token. Parsers only move forward on the tokens, whether they
succeed or fail. An expression or a statement that is read takes a token, and so does every pass of a
loop after which the loop goes on. So a budget above the number of tokens left is never used up, and
what is read does not depend on it.
-/

namespace BrightScript

/-- A cursor has passed `i` of some tokens, and the text ends behind them. -/
structure Cursor.StandsAt (tokens : List Token) (i : Nat) (c : Cursor) : Prop where
  le : i ≤ tokens.length
  rest : c.rest = tokens.drop i
  final : c.final.kind = .mark .endOfText

namespace Cursor.StandsAt

variable {tokens : List Token} {i : Nat} {c t : Cursor} {passed : List Token}

theorem final_isEnd (h : c.StandsAt tokens i) : c.final.kind.isEnd = true := by
  rw [h.final]
  rfl

theorem length_rest (h : c.StandsAt tokens i) : c.rest.length = tokens.length - i := by
  rw [h.rest, List.length_drop]

theorem passes (h : c.StandsAt tokens i) (hp : c.Passes passed t) :
    t.StandsAt tokens (i + passed.length) where
  le := by
    have hlen := h.length_rest
    rw [hp.rest, List.length_append] at hlen
    have := h.le
    omega
  rest := by
    have hrest := congrArg (List.drop passed.length) hp.rest
    rw [List.drop_left, h.rest, List.drop_drop] at hrest
    exact hrest.symm
  final := by rw [hp.final, h.final]

end Cursor.StandsAt

theorem Cursor.standsAt_ofTokens {tokens : List Token} {last : Token}
    (h : tokens.getLast? = some last) (hlast : last.kind = .mark .endOfText) :
    (Cursor.ofTokens tokens).StandsAt tokens 0 where
  le := Nat.zero_le _
  rest := rfl
  final := by
    show (tokens.getLastD _).kind = _
    rw [List.getLastD_eq_getLast?, h]
    exact hlast

namespace Parser

/-- Wherever a parser starts on the tokens, it stops there or further on. The results that `k` marks
are further on. -/
def Advances (tokens : List Token) (k : α → Bool) (p : Parser α) : Prop :=
  ∀ (i : Nat) (c : Cursor), c.StandsAt tokens i →
    (∀ a t, p c = .done a t → ∃ j, t.StandsAt tokens j ∧ i ≤ j ∧ (k a = true → i < j)) ∧
      ∀ e t, p c = .exit e t → ∃ j, t.StandsAt tokens j ∧ i ≤ j

/-- Wherever a parser starts on the tokens, it has one outcome with every budget above the number of
tokens left. -/
def Terminates (tokens : List Token) (p : Nat → Parser α) : Prop :=
  ∀ (i : Nat) (c : Cursor), c.StandsAt tokens i →
    ∃ outcome, outcome ≠ .exhausted ∧ ∀ budget, tokens.length - i < budget → p budget c = outcome

variable {tokens : List Token} {α β : Type}

theorem Moves.advances {k : α → Bool} {p : Parser α} (h : Moves .inside k p) :
    Advances tokens k p := by
  intro i c hc
  refine ⟨fun a t hp => ?_, fun e t hp => ?_⟩
  · obtain ⟨passed, hpassed, hk⟩ := h.done hc.final_isEnd (Start.at_inside c) hp
    refine ⟨_, hc.passes hpassed.toPasses, Nat.le_add_right .., fun ha => ?_⟩
    exact Nat.lt_add_of_pos_right (List.length_pos_iff.2 (hk ha))
  · obtain ⟨passed, hpassed⟩ := h.exit hc.final_isEnd (Start.at_inside c) hp
    exact ⟨_, hc.passes hpassed, Nat.le_add_right ..⟩

theorem Moves.step_advances {k : α → Bool} {p : Parser (β ⊕ α)} (h : Moves .inside (onward k) p) :
    Advances tokens Sum.isLeft p := by
  refine (h.weaken (fun r hr => ?_) fun _ => id).advances
  cases r with
  | inl _ => rfl
  | inr _ => cases hr

theorem terminates_of_follows {p : Nat → Parser α}
    (h : ∀ n n', n ≤ n' → Follows .inPlace n .inside id (p n) (p n')) : Terminates tokens p := by
  intro i c hc
  have hroom : Start.inside.Room (tokens.length - i + 1) c :=
    Start.room_inside (by rw [hc.length_rest]; exact Nat.lt_succ_self _)
  have hp := fun budget hb => h _ budget hb c hc.final_isEnd (Start.at_inside c) hroom
  refine ⟨_, (hp _ (Nat.le_refl _)).1, fun budget hb => ?_⟩
  have heq := (hp budget hb).2
  rwa [Cursor.relocated_inPlace, Outcome.relocated_inPlace] at heq

theorem terminates_expression (least : Nat) : Terminates tokens (parseExpression · least) := by
  refine terminates_of_follows fun n n' hn => ?_
  have h := ((Nested.anywhere .inPlace hn).expression least).follows
  rwa [Seam.nowhere, Expr.relocated_inPlace_eq] at h

theorem terminates_statement : Terminates tokens parseStatement := by
  refine terminates_of_follows fun n n' hn => ?_
  have h := Follows.statement .inPlace hn
  rwa [Statement.relocated_inPlace_eq] at h

theorem terminates_program : Terminates tokens parseProgram := by
  refine terminates_of_follows fun n n' hn => ?_
  have h := Follows.program .inPlace hn
  rwa [Statement.relocated_inPlace_eq, List.map_id_fun] at h

/-- On tokens that end with the end of the text parsing comes to an end. The position never goes back
nor beyond the tokens, expressions and statements take a token, and so does every pass of a loop
unless the loop is left with it. -/
theorem parser_ends_and_advances (tokens : List Token)
    (h : ∃ last, tokens.getLast? = some last ∧ last.kind = .mark .endOfText) :
    ((Cursor.ofTokens tokens).StandsAt tokens 0 ∧
      Terminates tokens parseProgram ∧ Terminates tokens parseStatement ∧
      ∀ least, Terminates tokens (parseExpression · least)) ∧
    ∀ budget,
      Advances tokens never (parseProgram budget) ∧
      Advances tokens always (parseStatement budget) ∧
      (∀ least, Advances tokens always (parseExpression budget least)) ∧
      (∀ found, Advances tokens Sum.isLeft ((Grammar.ofBudget budget).programStep found)) ∧
      (∀ terminators found,
        Advances tokens Sum.isLeft ((Grammar.ofBudget budget).blockStep terminators found)) ∧
      (∀ found, Advances tokens Sum.isLeft ((Grammar.ofBudget budget).inlineStep found)) ∧
      (∀ found, Advances tokens Sum.isLeft ((Grammar.ofBudget budget).printStep found)) ∧
      (∀ found, Advances tokens Sum.isLeft ((Grammar.ofBudget budget).arrayStep found)) ∧
      (∀ found, Advances tokens Sum.isLeft ((Grammar.ofBudget budget).assocStep found)) ∧
      ∀ closing ∈ [Mark.rightParen, .rightBracket], ∀ found,
        Advances tokens Sum.isLeft ((Grammar.ofBudget budget).expressionStep closing found) := by
  obtain ⟨last, hlast, hend⟩ := h
  refine ⟨⟨Cursor.standsAt_ofTokens hlast hend, terminates_program, terminates_statement,
    terminates_expression⟩, fun budget => ?_⟩
  have g := Nested.anywhere .inPlace (Nat.le_refl budget)
  have hst := Moves.statement budget
  refine ⟨(Moves.program budget [] budget).advances, hst.advances,
    fun least => (g.expression least).moves.advances,
    fun found => (hst.programStep found).step_advances,
    fun _ found => (hst.blockStep found).step_advances,
    fun found => (g.inlineStep found).moves.step_advances,
    fun found => (g.printStep found).moves.step_advances,
    fun found => (g.arrayStep found).moves.step_advances,
    fun found => (g.assocStep found).moves.step_advances, fun closing hc found => ?_⟩
  have hordinary : ∀ closing ∈ [Mark.rightParen, .rightBracket], closing.isOrdinary = true := by
    decide
  have hstep := (g.expressionStep (hordinary closing hc) found).moves
  exact Moves.step_advances (k := never) (hstep.weaken (fun _ _ => rfl) fun _ => id)

/-- A line that breaks off, and a whole one. -/
def unfinishedLine : List Token :=
  [⟨.identifier "x", .builtin⟩, ⟨.mark .equal, .builtin⟩, ⟨.mark .newline, .builtin⟩,
    ⟨.mark .endWord, .builtin⟩, ⟨.mark .endOfText, .builtin⟩]

/-- After the error the script is read on and to its end. -/
theorem unfinished_line_ends_and_advances :
    (∃ last, unfinishedLine.getLast? = some last ∧ last.kind = .mark .endOfText) ∧
    Terminates unfinishedLine parseProgram ∧
    (∀ found, Advances unfinishedLine Sum.isLeft ((Grammar.ofBudget 6).programStep found)) ∧
    Mark.rightParen ∈ [Mark.rightParen, .rightBracket] ∧
    ∀ found,
      Advances unfinishedLine Sum.isLeft ((Grammar.ofBudget 6).expressionStep .rightParen found) := by
  have hlast : ∃ last, unfinishedLine.getLast? = some last ∧ last.kind = .mark .endOfText :=
    ⟨_, rfl, rfl⟩
  have hparen : Mark.rightParen ∈ [Mark.rightParen, .rightBracket] := .head _
  obtain ⟨⟨-, hends, -, -⟩, hadvances⟩ := parser_ends_and_advances unfinishedLine hlast
  obtain ⟨-, -, -, hprogram, -, -, -, -, -, hlist⟩ := hadvances 6
  exact ⟨hlast, hends, hprogram, hparen, hlist .rightParen hparen⟩

end Parser

end BrightScript
