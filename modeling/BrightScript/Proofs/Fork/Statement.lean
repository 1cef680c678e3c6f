import BrightScript.Proofs.Fork.Expression
import BrightScript.Syntax.Program

/-!
# Statements before a fork

A simple statement comes up to a fork of two marks that end statements, a statement that holds
others leaves a token before it. The rules are tied together by induction on the budget.

Two rules look further ahead than the next token. A label is told from an assignment or a call by
the two tokens behind its name; where the fork is among these, there is no assignment and no call,
since neither goes on with a mark that may stand at a fork.
-/

namespace BrightScript

variable {c t : Cursor} {name : String} {a : Statement}

namespace Grammar.Unaware

open BrightScript.Parser

variable {w : Fork} {n : Nat} {g : Grammar}

/-! ## Assignments and calls -/

theorem incrementOf (start : Location) (target : Expr) (op : IncrementOp) :
    Parser.Unaware w 1 w.behind (Grammar.incrementOf start target op) := by
  refine .bind (j := 0) .advance fun _ => ?_
  split
  · exact .bind (.locationFrom start fun _ => Nat.le_refl 0) fun _ => .pure (Nat.zero_le _)
  · exact .leave _

section
variable (h : Grammar.Unaware w g)
include h

theorem assignmentTo (start : Location) (target : Expr) (op : Option BinaryOp) :
    Parser.Unaware w 1 w.behind (g.assignmentTo start target op) := by
  refine .bind .advance fun _ => .bind h.any fun right =>
    .bind (.locationFrom start fun _ => Nat.le_refl 0) fun l => ?_
  split
  · exact .pure (Nat.zero_le _)
  · exact .leave _

theorem simpleStatement : Parser.Unaware w 1 w.behind (g.simpleStatement n) := by
  rw [Grammar.simpleStatement, here_bind]
  refine .look fun t => .bind (j := 0) h.chain fun target => .glance (fun kind => ?_)
    fun kind hkind => ?_
  · cases Grammar.assignment? kind with
    | some op => exact (h.assignmentTo _ _ _).anywhere
    | none =>
      dsimp only
      split
      · exact (incrementOf _ _ _).anywhere
      split
      · exact (incrementOf _ _ _).anywhere
      split
      · exact .pure (Nat.zero_le _)
      · exact .leave _
  · rcases TokenKind.closes_iff.1 hkind with rfl | rfl | rfl | rfl | rfl | rfl | rfl <;> rfl

theorem declaration : Parser.Unaware w 1 w.behind (g.declaration n) :=
  .bind .advance fun _ => .bind (.expectIdentifier _) fun _ =>
    .bind (h.procedureRest _ _ _) fun _ => .pure (Nat.le_refl 1)

/-! ## Conditionals -/

theorem inlineStep (found : List Statement) :
    Parser.Unaware w 1 (Sum.elim (fun _ => 1) fun _ => 1) (g.inlineStep found) := by
  refine .bind (.skip _ (Nat.le_refl 1)) fun _ => ?_
  rw [checkAny_bind]
  refine .lookKind fun kind => ?_
  split
  · exact .pure (Nat.le_refl 1)
  · exact .bind (h.statement.mono (Nat.le_refl 1) w.behind_le) fun _ => .pure (Nat.le_refl 1)

theorem inlineBlock : Parser.Unaware w 1 (fun _ => 1) (g.inlineBlock n) :=
  spanned (.iterate h.inlineStep _ _)

theorem alternatives {body lastBody : Parser Block} (hbody : Parser.Unaware w 1 (fun _ => 1) body)
    (hlast : Parser.Unaware w 1 (fun _ => 1) lastBody) :
    Parser.Unaware w 1 (fun _ => 1) (g.alternatives n body lastBody) := by
  refine .iterate (fun found => ?_) _ _
  exact .lookAccept
    (.bind h.any fun _ => .bind (.accept fun _ => Nat.le_refl 1) fun _ => .bind hbody fun _ =>
      .pure (Nat.le_refl 1))
    (.lookAccept (.bind hlast fun _ => .pure (Nat.le_refl 1)) (.pure (Nat.le_refl 1)))

theorem ifHead : Parser.Unaware w 1 (fun _ => 1) g.ifHead :=
  .bind .advance fun _ => .bind h.any fun _ => .bind (.accept fun _ => Nat.le_refl 1) fun _ =>
    .pure (Nat.le_refl 1)

theorem blockForm (head : Location × Expr) : Parser.Unaware w 1 w.behind (g.blockForm n head) :=
  .bind (h.block _) fun _ => .bind (h.alternatives (h.block _) (h.block _)) fun _ =>
    .bind .expect fun _ => .bind (.locationFrom _ fun _ => Nat.le_refl 1) fun _ =>
    .pure (Nat.le_refl 1)

theorem inlineForm (head : Location × Expr) : Parser.Unaware w 1 w.behind (g.inlineForm n head) :=
  .bind h.inlineBlock fun _ => .bind (h.alternatives h.inlineBlock h.inlineBlock) fun _ =>
    .bind (.accept fun _ => Nat.le_refl 1) fun _ =>
    .bind (.locationFrom _ fun _ => Nat.le_refl 1) fun _ => .pure (Nat.le_refl 1)

theorem conditional : Parser.Unaware w 1 w.behind (g.conditional n) := by
  refine .bind h.ifHead fun head => ?_
  rw [checkAny_bind]
  refine .lookKind fun kind => ?_
  split
  · exact h.blockForm head
  · exact h.inlineForm head

/-! ## Loops and errors -/

omit h in
theorem loopEnd : Parser.Unaware w 1 (fun _ => 1) Grammar.loopEnd := by
  refine .lookAccept (.pure (Nat.le_refl 1))
    (.bind (j := 1) .expect fun _ => .lookKind fun kind => ?_)
  cases kind with
  | identifier name => exact .bind .advance fun _ => .pure (Nat.le_refl 1)
  | _ => exact .pure (Nat.le_refl 1)

theorem forLoop : Parser.Unaware w 1 w.behind (g.forLoop n) := by
  refine .bind .advance fun t => .bind (.expectIdentifier _) fun counter => .bind .expect fun _ =>
    .bind h.any fun first => .bind .expect fun _ => .bind (j := 1) h.any fun final => ?_
  have hbody (step : Option Expr) : Parser.Unaware w 1 w.behind
      (g.block n [.nextWord, .endFor] >>= fun body => Grammar.loopEnd >>= fun _ =>
        Parser.locationFrom t.location >>= fun l =>
          pure (.forLoop counter first final step body l)) :=
    .bind (h.block _) fun _ => .bind loopEnd fun _ =>
      .bind (.locationFrom _ fun _ => Nat.le_refl 1) fun _ => .pure (Nat.le_refl 1)
  exact .lookAccept (.bind (.map h.any fun _ => Nat.le_refl 1) hbody) (hbody none)

theorem forEach : Parser.Unaware w 1 w.behind (g.forEach n) :=
  .bind .advance fun _ => .bind (.expectIdentifier _) fun _ => .bind .expect fun _ =>
    .bind h.any fun _ => .bind (h.block _) fun _ => .bind loopEnd fun _ =>
    .bind (.locationFrom _ fun _ => Nat.le_refl 1) fun _ => .pure (Nat.le_refl 1)

theorem whileLoop : Parser.Unaware w 1 w.behind (g.whileLoop n) :=
  .bind .advance fun _ => .bind h.any fun _ => .bind (h.block _) fun _ => .bind .expect fun _ =>
    .bind (.locationFrom _ fun _ => Nat.le_refl 1) fun _ => .pure (Nat.le_refl 1)

theorem tryCatch : Parser.Unaware w 1 w.behind (g.tryCatch n) :=
  .bind .advance fun _ => .bind (h.block _) fun _ => .bind .expect fun _ =>
    .bind (.expectIdentifier _) fun _ => .bind (h.block _) fun _ => .bind .expect fun _ =>
    .bind (.locationFrom _ fun _ => Nat.le_refl 1) fun _ => .pure (Nat.le_refl 1)

/-! ## Simple statements with a keyword -/

theorem printStep (found : List PrintItem) :
    Parser.Unaware w w.reach (Sum.elim (fun _ => w.reach) fun _ => w.reach)
      (g.printStep found) := by
  refine .atStatementEnd fun ended => ?_
  split
  · exact .pure (Nat.le_refl _)
  · exact .ifAccept rfl w.reach_le (.pure (Nat.le_refl _))
      (.ifAccept rfl w.reach_le (.pure (Nat.le_refl _))
        (.mono (.bind h.any fun _ => .pure (Nat.le_refl _)) w.reach_le fun _ => Nat.le_refl _))

theorem print : Parser.Unaware w 1 w.behind (g.print n) :=
  .bind .advance fun _ => .bind (.iterate h.printStep _ _) fun _ =>
    .bind (.locationFrom _ fun _ => Nat.le_refl _) fun _ => .pure (Nat.le_refl w.reach)

theorem dim : Parser.Unaware w 1 w.behind (g.dim n) :=
  .bind .advance fun _ => .bind (.expectIdentifier _) fun _ => .bind .expect fun _ =>
    .bind (h.expressionList _) fun _ => .bind (.locationFrom _ fun _ => Nat.le_refl 0) fun _ =>
    .pure (Nat.zero_le _)

theorem returning : Parser.Unaware w 1 w.behind g.returning := by
  have hvalue (start : Location) (value : Option Expr) : Parser.Unaware w w.reach w.behind
      (Parser.locationFrom start >>= fun l => pure (.returning value l)) :=
    .bind (.locationFrom _ fun _ => Nat.le_refl _) fun _ => .pure (Nat.le_refl w.reach)
  refine .bind .advance fun t => .atStatementEnd fun ended => ?_
  split
  · exact hvalue _ none
  · exact .mono (.bind (.map h.any fun _ => Nat.le_refl _) (hvalue _)) w.reach_le
      fun _ => Nat.le_refl _

theorem throwing : Parser.Unaware w 1 w.behind g.throwing :=
  .bind .advance fun _ => .bind h.any fun _ =>
    .bind (.locationFrom _ fun _ => Nat.le_refl 0) fun _ => .pure (Nat.zero_le _)

end

theorem goto : Parser.Unaware w 1 w.behind Grammar.goto :=
  .bind .advance fun _ => .bind (.expectIdentifier _) fun _ =>
    .bind (.locationFrom _ fun _ => Nat.le_refl 0) fun _ => .pure (Nat.zero_le _)

theorem library : Parser.Unaware w 1 w.behind Grammar.library :=
  .bind .advance fun _ => .bind (.expectString _) fun _ =>
    .bind (.locationFrom _ fun _ => Nat.le_refl 0) fun _ => .pure (Nat.zero_le _)

theorem bare (make : Location → Statement) : Parser.Unaware w 1 w.behind (Grammar.bare make) :=
  .bind .advance fun _ => .pure (Nat.zero_le _)

/-! ## Looking further ahead -/

theorem closes_ahead (h : c.rest.length = 1) :
    ((c.followedBy w.left).ahead 1).closes = true ∧
      ((c.followedBy w.right).ahead 1).closes = true := by
  obtain ⟨x, hx⟩ := List.length_eq_one_iff.1 h
  obtain ⟨l, ls, hl, hlk⟩ := w.left_closes
  obtain ⟨r, rs, hr, hrk⟩ := w.right_closes
  rw [Cursor.ahead, Cursor.ahead, Cursor.followedBy, Cursor.followedBy, hx, hl, hr]
  exact ⟨hlk, hrk⟩

theorem nameFollows_of_closes (h : (c.ahead 1).closes = true) : Grammar.nameFollows c = false := by
  rcases TokenKind.closes_iff.1 h with h | h | h | h | h | h | h <;> rw [Grammar.nameFollows, h]

theorem nameFollows_followedBy (hc : c.rest ≠ []) :
    Grammar.nameFollows (c.followedBy w.left) = Grammar.nameFollows (c.followedBy w.right) := by
  have hpos := List.length_pos_iff.2 hc
  by_cases hone : c.rest.length = 1
  · obtain ⟨hl, hr⟩ := closes_ahead (w := w) hone
    rw [nameFollows_of_closes hl, nameFollows_of_closes hr]
  · rw [Grammar.nameFollows, Grammar.nameFollows, Cursor.ahead_followedBy w.left w.right (by omega)]

/-- A chain ends before a mark that may stand at a fork. -/
theorem link_of_closes (h : c.peek.kind.closes = true) (e : Expr) :
    g.link n e c = .done (.inr e) c := by
  rw [Grammar.link, Routine.bind_apply, peekKind, Routine.view_apply]
  rcases TokenKind.closes_iff.1 h with h | h | h | h | h | h | h <;> rw [h] <;> rfl

/-- A name before a mark that may stand at a fork is no assignment and no call. -/
theorem simpleStatement_ne_done (hname : c.peek.kind = .identifier name)
    (hnext : c.advance.peek.kind.closes = true) : g.simpleStatement n c ≠ .done a t := by
  intro hdone
  have hprimary : g.primary n c = .done (.reference ⟨name, c.peek.location⟩) c.advance := by
    rw [Grammar.primary, Routine.bind_apply, Parser.peek, Routine.view_apply]
    dsimp only
    rw [hname]
    rfl
  obtain ⟨start, c₀, hhere, hdone⟩ := Routine.bind_eq_done.1 hdone
  cases hhere
  obtain ⟨target, t₀, hchain, hdone⟩ := Routine.bind_eq_done.1 hdone
  -- the chain is the name alone
  rw [Grammar.chain, Routine.bind_apply, hprimary] at hchain
  cases n with
  | zero => cases hchain
  | succ n =>
    dsimp only at hchain
    rw [Routine.iterate_succ, link_of_closes hnext] at hchain
    cases hchain
    rw [Routine.bind_apply, peekKind, Routine.view_apply] at hdone
    rcases TokenKind.closes_iff.1 hnext with h | h | h | h | h | h | h <;>
      (rw [h] at hdone; cases hdone)

theorem label_eq (hname : c.peek.kind = .identifier name) :
    Grammar.label c = .done (.label ⟨name, c.peek.location⟩) c.advance.advance := by
  rw [Grammar.label, Routine.bind_apply, Parser.expectIdentifier, Routine.bind_apply, peekKind,
    Routine.view_apply, hname]
  rfl

/-- Where there is a label before the fork, there is one however the text goes on. -/
theorem label_alike (hname : (c.followedBy w.left).peek.kind = .identifier name)
    (hp : Grammar.label (c.followedBy w.left) = .done a t)
    (hlen : w.left.length + w.behind a ≤ t.rest.length) :
    3 ≤ c.rest.length ∧ ∃ u : Cursor, t = u.followedBy w.left ∧
      Grammar.label (c.followedBy w.right) = .done a (u.followedBy w.right) := by
  rw [label_eq hname] at hp
  cases hp
  have hthree : 3 ≤ c.rest.length := by
    have hlen : w.left.length + 1 ≤ (c.followedBy w.left).advance.advance.rest.length := hlen
    rw [Cursor.rest_advance, Cursor.rest_advance, Cursor.followedBy, List.length_tail,
      List.length_tail, List.length_append] at hlen
    omega
  have hne : c.rest ≠ [] := List.length_pos_iff.1 (by omega)
  have hne' : c.advance.rest ≠ [] := by
    apply List.length_pos_iff.1
    rw [Cursor.rest_advance, List.length_tail]
    omega
  refine ⟨hthree, c.advance.advance, ?_, ?_⟩
  · rw [Cursor.advance_followedBy hne, Cursor.advance_followedBy hne']
  · have hpeek : (c.followedBy w.right).peek = (c.followedBy w.left).peek :=
      Cursor.peek_followedBy hne
    rw [label_eq (hpeek ▸ hname), hpeek, Cursor.advance_followedBy hne,
      Cursor.advance_followedBy hne']

theorem peek_advance (h : 2 ≤ c.rest.length) : c.advance.peek.kind = c.ahead 1 := by
  obtain ⟨rest, previous, final, errors, unnamed⟩ := c
  match rest, h with
  | x :: y :: more, _ => rfl

/-- A label, an assignment, a step of one or a call, where a name comes next. -/
def namedStatement (g : Grammar) (n : Nat) : Parser Statement := do
  match ← peekKind with
  | .identifier _ =>
    if ← Routine.view Grammar.labelFollows then Grammar.label else g.simpleStatement n
  | _ => Routine.giveUp

theorem namedStatement_apply (h : c.peek.kind = .identifier name) :
    namedStatement g n c =
      (if Grammar.labelFollows c = true then Grammar.label else g.simpleStatement n) c := by
  rw [namedStatement, Routine.bind_apply, peekKind, Routine.view_apply, h]
  rfl

theorem named_of_done (h : namedStatement g n c = .done a t) :
    ∃ name, c.peek.kind = .identifier name := by
  rw [namedStatement, Routine.bind_apply, peekKind, Routine.view_apply] at h
  cases hkind : c.peek.kind with
  | identifier name => exact ⟨name, rfl⟩
  | _ => rw [hkind] at h; cases h

/-- Where the two ways differ in what they take for a label, there is neither a label nor an
assignment nor a call. -/
theorem unaware_namedStatement (h : Grammar.Unaware w g) :
    Parser.Unaware w 1 w.behind (namedStatement g n) where
  passes {c a t} hp ht := by
    obtain ⟨name, hname⟩ := named_of_done hp
    rw [namedStatement_apply hname] at hp
    split at hp
    · rw [label_eq hname] at hp
      cases hp
      obtain ⟨xs, hxs⟩ := c.exists_passes_advance
      obtain ⟨ys, hys⟩ := c.advance.exists_passes_advance
      exact ⟨xs ++ ys, hxs.trans hys⟩
    · exact h.simpleStatement.passes hp ht
  alike {c a t} hp ht hlen := by
    obtain ⟨name, hname⟩ := named_of_done hp
    rw [namedStatement_apply hname] at hp
    have hname' (hc : c.rest ≠ []) : (c.followedBy w.right).peek.kind = .identifier name := by
      rw [← hname, Cursor.peek_followedBy hc]
    split at hp
    · rename_i hlabel
      obtain ⟨hthree, u, hu, hright⟩ := label_alike hname hp hlen
      have hne : c.rest ≠ [] := List.length_pos_iff.1 (by omega)
      refine ⟨u, hu, by omega, ?_⟩
      rw [Grammar.labelFollows, Cursor.ahead_followedBy w.left w.right (i := 1) (by omega),
        Cursor.ahead_followedBy w.left w.right (i := 2) (by omega)] at hlabel
      rw [namedStatement_apply (hname' hne), Grammar.labelFollows, if_pos hlabel, hright]
    · obtain ⟨u, hu, hone, hright⟩ := h.simpleStatement.alike hp ht hlen
      refine ⟨u, hu, hone, ?_⟩
      have hne : c.rest ≠ [] := List.length_pos_iff.1 (by omega)
      have hlabel : Grammar.labelFollows (c.followedBy w.right) ≠ true := by
        intro hlabel
        have hcolon : (c.followedBy w.right).ahead 1 = .mark .colon :=
          TokenKind.is_iff.1 (Bool.and_eq_true _ _ ▸ hlabel).1
        have hcloses : ((c.followedBy w.left).ahead 1).closes = true := by
          by_cases hlast : c.rest.length = 1
          · exact (closes_ahead hlast).1
          · rw [Cursor.ahead_followedBy w.left w.right (by omega), hcolon]
            rfl
        have htwo : 2 ≤ (c.followedBy w.left).rest.length := by
          have := w.left_pos
          rw [Cursor.followedBy, List.length_append]
          omega
        exact simpleStatement_ne_done hname (by rw [peek_advance htwo, hcloses]) hp
      rw [namedStatement_apply (hname' hne), if_neg hlabel, hright]

/-! ## All statements -/

theorem nameChoice {p q : Parser Statement} (hp : Parser.Unaware w 1 w.behind p)
    (hq : Parser.Unaware w 1 w.behind q) :
    Parser.Unaware w 1 w.behind
      (Routine.view Grammar.nameFollows >>= fun b => if b = true then p else q) := by
  refine .view (fun b => ?_) fun c => nameFollows_followedBy
  split
  · exact hp
  · exact hq

theorem statementRule (h : Grammar.Unaware w g) :
    Parser.Unaware w 1 w.behind (g.statementRule n) := by
  refine .lookKindAs fun kind => ?_
  cases kind with
  | mark m =>
    cases m with
    | functionWord | subWord =>
      exact ⟨_, nameChoice h.declaration h.simpleStatement, fun _ _ => rfl⟩
    | ifWord => exact ⟨_, h.conditional, fun _ _ => rfl⟩
    | forWord => exact ⟨_, h.forLoop, fun _ _ => rfl⟩
    | forEach => exact ⟨_, h.forEach, fun _ _ => rfl⟩
    | whileWord => exact ⟨_, h.whileLoop, fun _ _ => rfl⟩
    | tryWord => exact ⟨_, h.tryCatch, fun _ _ => rfl⟩
    | printWord | question => exact ⟨_, h.print, fun _ _ => rfl⟩
    | returnWord => exact ⟨_, h.returning, fun _ _ => rfl⟩
    | exitFor | exitWhile | continueFor | continueWhile | endWord | stopWord =>
      exact ⟨_, bare _, fun _ _ => rfl⟩
    | gotoWord => exact ⟨_, goto, fun _ _ => rfl⟩
    | dimWord => exact ⟨_, h.dim, fun _ _ => rfl⟩
    | throwWord => exact ⟨_, h.throwing, fun _ _ => rfl⟩
    | libraryWord => exact ⟨_, library, fun _ _ => rfl⟩
    | _ => exact ⟨_, h.simpleStatement, fun _ _ => rfl⟩
  | identifier name =>
    exact ⟨_, h.unaware_namedStatement, fun _ hc => (namedStatement_apply hc).symm⟩
  | _ => exact ⟨_, h.simpleStatement, fun _ _ => rfl⟩

/-- Grammars of any budget do not tell the two ways of a fork apart. -/
theorem ofBudget (w : Fork) (n : Nat) : Grammar.Unaware w (Grammar.ofBudget n) := by
  induction n with
  | zero => exact ⟨fun _ => .giveUp, .giveUp, .giveUp⟩
  | succ n ih =>
    refine ⟨fun least => ?_, ?_, ?_⟩
    · show Parser.Unaware w 1 _ (parseExpression (n + 1) least)
      rw [parseExpression]
      exact ih.expressionRule least
    · show Parser.Unaware w 1 _ (parseSigned (n + 1))
      rw [parseSigned]
      exact ih.signedRule
    · show Parser.Unaware w 1 _ (parseStatement (n + 1))
      rw [parseStatement]
      exact ih.statementRule

end Grammar.Unaware

end BrightScript
