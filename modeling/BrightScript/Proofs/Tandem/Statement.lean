import BrightScript.Proofs.Tandem.Expression

/-!
# Statements in tandem

Every rule for statements, over nested grammars that run in tandem. All of them go alike through a
text alone and through a longer one, except for an `if` whose condition is followed by the end of the
text: before a newline it is a block, which does not get closed.
-/

namespace BrightScript.Parser

variable {kind : TokenKind}

open Grammar (branchEnds)

variable {w : Seam} {n n' : Nat} {s : Start} {g g' : Grammar}

/-! ## Assignments and calls -/

theorem store?_relocated (m : Relocation) (target value : Expr) (location : Location) :
    Grammar.store? (target.relocated m) (value.relocated m) (m.place location) =
      (Grammar.store? target value location).map (Statement.relocated m) := by
  cases target with
  | procedure p => rw [Expr.relocated_procedure]; rfl
  | _ => rfl

theorem isTarget_relocated (m : Relocation) (target : Expr) :
    Grammar.isTarget (target.relocated m) = Grammar.isTarget target := by
  cases target with
  | procedure p => rw [Expr.relocated_procedure]; rfl
  | _ => rfl

theorem isPlain_of_assignment {op : Option BinaryOp} (h : Grammar.assignment? kind = some op) :
    kind.isPlain = true := by
  cases kind with
  | mark m => cases m <;> first | rfl | cases h
  | _ => rfl

theorem Tandem.incrementOf (hk : kind.isPlain = true) (start : Location) (target : Expr)
    (op : IncrementOp) {k : Statement → Bool} :
    Tandem w n n' (s.before kind) k (Statement.relocated w.move)
      (Grammar.incrementOf start target op)
      (Grammar.incrementOf (w.move.place start) (target.relocated w.move) op) := by
  refine .bind (.advance hk) fun _ => ?_
  rw [isTarget_relocated]
  cases Grammar.isTarget target with
  | true => exact .seq (.locationFrom start fun _ => rfl) fun _ => .pure rfl rfl
  | false => exact .failAt start _

namespace Nested

variable (h : Nested w n n' g g')
include h

theorem assignmentTo (hk : kind.isPlain = true) (start : Location) (target : Expr)
    (op : Option BinaryOp) {k : Statement → Bool} :
    Tandem w n n' (s.before kind) k (Statement.relocated w.move) (g.assignmentTo start target op)
      (g'.assignmentTo (w.move.place start) (target.relocated w.move) op) := by
  cases op with
  | some op =>
    refine .bind (.advance hk) fun _ => .bind h.any fun right =>
      .seq (.locationFrom start fun _ => rfl) fun l => ?_
    have hvalue : (Expr.binary target op right (target.location.union right.location)).relocated
        w.move = .binary (target.relocated w.move) op (right.relocated w.move)
          ((target.relocated w.move).location.union (right.relocated w.move).location) := by
      simp [Expr.relocated, w.move.place_union]
    dsimp only
    rw [← hvalue, store?_relocated]
    cases Grammar.store? target (.binary target op right (target.location.union right.location)) l with
    | some statement => exact .pure rfl rfl
    | none => exact .failAt start _
  | none =>
    refine .bind (.advance hk) fun _ => .bind h.any fun right =>
      .seq (.locationFrom start fun _ => rfl) fun l => ?_
    dsimp only
    rw [store?_relocated]
    cases Grammar.store? target right l with
    | some statement => exact .pure rfl rfl
    | none => exact .failAt start _

theorem simpleStatement :
    Tandem.Statements w n n' s (g.simpleStatement n) (g'.simpleStatement n') := by
  rw [Grammar.simpleStatement, Grammar.simpleStatement, here_bind, here_bind]
  refine .look fun t => .bind h.chain fun target => .glance (fun kind => ?_) rfl
  cases hop : Grammar.assignment? kind with
  | some op => exact h.assignmentTo (isPlain_of_assignment hop) _ _ _
  | none =>
  cases hup : kind.is .increment with
  | true =>
    rw [TokenKind.is_iff.1 hup]
    exact .incrementOf rfl _ _ _
  | false =>
  cases hdown : kind.is .decrement with
  | true =>
    rw [TokenKind.is_iff.1 hdown]
    exact .incrementOf rfl _ _ _
  | false =>
    cases target with
    | call callee args optional closing location => exact .pure rfl rfl
    | procedure p =>
      rw [Expr.relocated_procedure]
      exact .failAt _ _
    | _ => exact .failAt _ _

theorem declaration (hk : kind.isPlain = true) :
    Tandem.Statements w n n' (s.before kind) (g.declaration n) (g'.declaration n') := by
  refine .bind (.advance hk) fun t => .bind (.expectIdentifier _) fun name => ?_
  refine .bind (h.procedureRest (rfl : id name.name = name.name) _ _) fun p => .pure ?_ rfl
  exact Statement.relocated_declaration w.move name p

/-! ## Conditionals -/

theorem inlineStep (found : List Statement) :
    Tandem w n n' .inside (onward never)
      (Sum.map (List.map (Statement.relocated w.move)) (List.map (Statement.relocated w.move)))
      (g.inlineStep found) (g'.inlineStep (found.map (Statement.relocated w.move))) := by
  refine .seq (.skip rfl rfl rfl) fun _ => ?_
  simp only [checkAny_bind]
  refine .glance (fun kind => ?_) rfl
  cases kind.isOneOf [.newline, .endOfText, .elseWord, .elseIf, .endIf] with
  | true => exact .pure (congrArg Sum.inr List.map_reverse) rfl
  | false => exact .of_inside (.bind h.statement fun _ => .pure rfl rfl)

theorem inlineBlock :
    Tandem w n n' .inside never (Block.relocated w.move) (g.inlineBlock n) (g'.inlineBlock n') :=
  .spanned (.iterate h.le h.inlineStep [])

theorem alternatives {body body' lastBody lastBody' : Parser Block}
    (hbody : Tandem w n n' .inside never (Block.relocated w.move) body body')
    (hlast : Tandem w n n' .inside never (Block.relocated w.move) lastBody lastBody') :
    Tandem w n n' .inside never
      (Prod.map (List.map (Clause.relocated w.move)) (Option.map (Block.relocated w.move)))
      (g.alternatives n body lastBody) (g'.alternatives n' body' lastBody') := by
  refine .iterate (ψ := Prod.map (List.map (Clause.relocated w.move))
    (Option.map (Block.relocated w.move))) h.le (fun found => ?_) ([], none)
  refine .ifAccept rfl ?_ (.ifAccept rfl ?_ (.pure ?_ rfl))
  · refine .bind h.any fun condition => .seq (.accept rfl rfl) fun _ => .seq hbody fun block => ?_
    exact .pure rfl rfl
  · exact .seq hlast fun block => .pure rfl rfl
  · simp

theorem ifHead :
    Tandem w n n' (s.before (.mark .ifWord)) always (Prod.map w.move.place (Expr.relocated w.move))
      g.ifHead g'.ifHead :=
  .bind (.advance rfl) fun _ => .bind h.any fun _ => .seq (.accept rfl rfl) fun _ => .pure rfl rfl

theorem blockForm (head : Location × Expr) :
    Tandem w n n' .inside never (Statement.relocated w.move) (g.blockForm n head)
      (g'.blockForm n' (Prod.map w.move.place (Expr.relocated w.move) head)) := by
  refine .seq (h.block rfl) fun thenBranch =>
    .seq (h.alternatives (h.block rfl) (h.block rfl)) fun ⟨elseIfs, elseBranch⟩ => ?_
  refine .bind (.expect rfl) fun _ => .seq (.locationFrom head.1 fun _ => rfl) fun l => .pure ?_ rfl
  simp [Statement.relocated]

theorem inlineForm (head : Location × Expr) :
    Tandem w n n' .inside never (Statement.relocated w.move) (g.inlineForm n head)
      (g'.inlineForm n' (Prod.map w.move.place (Expr.relocated w.move) head)) := by
  refine .seq h.inlineBlock fun thenBranch =>
    .seq (h.alternatives h.inlineBlock h.inlineBlock) fun ⟨elseIfs, elseBranch⟩ => ?_
  refine .seq (.accept rfl rfl) fun _ => .seq (.locationFrom head.1 fun _ => rfl) fun l =>
    .pure ?_ rfl
  simp [Statement.relocated]

theorem form (head : Location × Expr) (kind : TokenKind) :
    Tandem w n n' .inside never (Statement.relocated w.move)
      (if kind.isOneOf [.newline, .colon] = true then g.blockForm n head else g.inlineForm n head)
      (if kind.isOneOf [.newline, .colon] = true then
        g'.blockForm n' (Prod.map w.move.place (Expr.relocated w.move) head)
      else g'.inlineForm n' (Prod.map w.move.place (Expr.relocated w.move) head)) := by
  split
  · exact h.blockForm head
  · exact h.inlineForm head

/-- The two forms of an `if` part where its condition is followed by the end of the text. -/
theorem shadows_conditional :
    Shadows w n' (s.before (.mark .ifWord)) (Statement.relocated w.move) (g.conditional n)
      (g'.conditional n') := by
  intro c d hpair hs hr hprev a t hp ht
  obtain ⟨head, t₀, hhead, hform⟩ := Routine.bind_eq_done.1 hp
  have hform : (if t₀.peek.kind.isOneOf [.newline, .colon] = true then g.blockForm n head
    else g.inlineForm n head) t₀ = .done a t := hform
  have hmoves := (h.ifHead : Tandem w n n' (s.before _) _ _ _ _).moves
  have hfinal := hmoves.final hpair.final hs hhead
  have hforms := h.form head t₀.peek.kind
  have ht₀ := hforms.moves.errors_of_done hfinal (Start.at_inside t₀) hform ht
  obtain ⟨u₀, hhead', hpair₀⟩ | ⟨hopen, hend, e, u₀, hhead'⟩ :=
    h.ifHead.shadows c d hpair hs hr hprev head t₀ hhead ht₀
  · have hr₀ := hmoves.room_of_pair hpair hpair₀ hs hr hhead (Bool.or_true _)
    have hprev₀ := hmoves.previous_ne_none hpair.final hs hhead (.inl rfl)
    have hd : g'.conditional n' d = (if u₀.peek.kind.isOneOf [.newline, .colon] = true then
          g'.blockForm n' (Prod.map w.move.place (Expr.relocated w.move) head)
        else g'.inlineForm n' (Prod.map w.move.place (Expr.relocated w.move) head)) u₀ := by
      rw [Grammar.conditional, Routine.bind_apply, hhead']
      rfl
    rw [hd]
    cases hend : t₀.peek.kind.isEnd with
    | false =>
      rw [hpair₀.peek hend, Token.relocated_kind]
      exact hforms.shadows t₀ u₀ hpair₀ (Start.at_inside t₀) hr₀ (fun _ => hprev₀) a t hform ht
    | true =>
      -- the text alone has the form on one line, the longer one a block
      obtain ⟨hc, hu⟩ := hpair₀.rest_of_isEnd hend
      have hnewline : u₀.peek.kind.isOneOf [.newline, .colon] = true := by
        rw [Cursor.peek, hu, List.headD_cons, w.newline_kind]
        rfl
      obtain ⟨e, u, hblock⟩ := h.unclosed t₀ u₀ hpair₀ hc hr₀.lt
      obtain ⟨passed, hpassed⟩ := hpair.reached
      have hopen : EndsInOpenIf w.tokens :=
        ⟨passed, c, hpassed, hpair.settled, hs.kind, n, head, t₀, h.short ▸ hhead, ht₀, hend⟩
      refine .inr ⟨hopen, hforms.moves.rest_of_stop hfinal (Start.at_inside t₀) hform ht hc, e, u, ?_⟩
      rw [if_pos hnewline, Grammar.blockForm, Routine.bind_apply, hblock]
  · refine .inr ⟨hopen, hforms.moves.rest_of_stop hfinal (Start.at_inside t₀) hform ht hend, e, u₀, ?_⟩
    rw [Grammar.conditional, Routine.bind_apply, hhead']

theorem conditional :
    Tandem.Statements w n n' (s.before (.mark .ifWord)) (g.conditional n) (g'.conditional n') := by
  have hhead : Tandem w n n' (s.before (.mark .ifWord)) always _ g.ifHead g'.ifHead := h.ifHead
  refine ⟨hhead.moves.bind fun head => .view fun c _ => ?_,
    hhead.follows.bind hhead.moves (fun _ => Bool.or_true _) fun head => .view fun c _ => ?_,
    hhead.forgets.bind fun _ => Bool.or_true _, h.shadows_conditional⟩
  · exact (h.form head c.peek.kind).moves.weaken (fun _ hb => by cases hb)
      fun _ _ => Start.at_inside _
  · rw [Cursor.peek_relocated, Token.relocated_kind]
    exact (Tandem.of_inside (h.form head c.peek.kind)).follows

end Nested

/-! ## Loops and errors -/

theorem Tandem.loopEnd {k : Unit → Bool} :
    Tandem w n n' .inside k id Grammar.loopEnd Grammar.loopEnd := by
  refine .ifAccept rfl (.pure rfl rfl) (.bind (.expect rfl) fun _ => .glance (fun kind => ?_) rfl)
  cases kind with
  | identifier name => exact .bind (.advance rfl) fun _ => .pure rfl rfl
  | _ => exact .pure rfl rfl

namespace Nested

variable (h : Nested w n n' g g')
include h

theorem forLoop :
    Tandem.Statements w n n' (s.before (.mark .forWord)) (g.forLoop n) (g'.forLoop n') := by
  refine .bind (.advance rfl) fun t => .bind (.expectIdentifier _) fun counter =>
    .bind (.expect rfl) fun _ => .bind h.any fun first => .bind (.expect rfl) fun _ =>
    .bind h.any fun final => ?_
  have hbody (step : Option Expr) : Tandem w n n' .inside never (Statement.relocated w.move)
      (g.block n [.nextWord, .endFor] >>= fun body => Grammar.loopEnd >>= fun _ =>
        Parser.locationFrom t.location >>= fun l => pure (.forLoop counter first final step body l))
      (g'.block n' [.nextWord, .endFor] >>= fun body => Grammar.loopEnd >>= fun _ =>
        Parser.locationFrom (w.move.place t.location) >>= fun l =>
          pure (.forLoop (counter.relocated w.move) (first.relocated w.move)
            (final.relocated w.move) (step.map (Expr.relocated w.move)) body l)) := by
    refine .seq (h.block rfl) fun body => .seq .loopEnd fun _ =>
      .seq (.locationFrom t.location fun _ => rfl) fun l => .pure ?_ rfl
    rw [Statement.relocated, Expr.relocatedOption_eq]
  exact .ifAccept rfl (.bind (.map h.any fun _ => rfl) hbody) (hbody none)

theorem forEach :
    Tandem.Statements w n n' (s.before (.mark .forEach)) (g.forEach n) (g'.forEach n') :=
  .bind (.advance rfl) fun t => .bind (.expectIdentifier _) fun _ => .bind (.expect rfl) fun _ =>
    .bind h.any fun _ => .seq (h.block rfl) fun _ => .seq .loopEnd fun _ =>
    .seq (.locationFrom t.location fun _ => rfl) fun _ => .pure rfl rfl

theorem whileLoop :
    Tandem.Statements w n n' (s.before (.mark .whileWord)) (g.whileLoop n) (g'.whileLoop n') :=
  .bind (.advance rfl) fun t => .bind h.any fun _ => .seq (h.block rfl) fun _ =>
    .bind (.expect rfl) fun _ => .seq (.locationFrom t.location fun _ => rfl) fun _ => .pure rfl rfl

theorem tryCatch :
    Tandem.Statements w n n' (s.before (.mark .tryWord)) (g.tryCatch n) (g'.tryCatch n') :=
  .bind (.advance rfl) fun t => .seq (h.block rfl) fun _ => .bind (.expect rfl) fun _ =>
    .bind (.expectIdentifier _) fun _ => .seq (h.block rfl) fun _ =>
    .bind (.expect rfl) fun _ => .seq (.locationFrom t.location fun _ => rfl) fun _ => .pure rfl rfl

/-! ## Simple statements with a keyword -/

theorem printStep (found : List PrintItem) :
    Tandem w n n' .inside (onward never)
      (Sum.map (List.map (PrintItem.relocated w.move)) (List.map (PrintItem.relocated w.move)))
      (g.printStep found) (g'.printStep (found.map (PrintItem.relocated w.move))) := by
  rw [Grammar.printStep, Grammar.printStep, atStatementEnd, checkAny_bind, checkAny_bind]
  refine .glance (fun kind => ?_) rfl
  cases kind.isOneOf statementEnds with
  | true => exact .pure (congrArg Sum.inr List.map_reverse) rfl
  | false =>
    exact .of_inside (.ifAccept rfl (.pure rfl rfl)
      (.ifAccept rfl (.pure rfl rfl) (.bind h.any fun _ => .pure rfl rfl)))

theorem print (hk : kind.isPlain = true) :
    Tandem.Statements w n n' (s.before kind) (g.print n) (g'.print n') := by
  refine .bind (.advance hk) fun t => .seq (.iterate h.le h.printStep []) fun items =>
    .seq (.locationFrom t.location fun _ => rfl) fun l => .pure ?_ rfl
  rw [Statement.relocated, PrintItem.relocatedAll_eq]

theorem dim : Tandem.Statements w n n' (s.before (.mark .dimWord)) (g.dim n) (g'.dim n') := by
  refine .bind (.advance rfl) fun t => .bind (.expectIdentifier _) fun name =>
    .bind (.expect rfl) fun _ => .seq (h.expressionList rfl) fun ⟨dimensions, _⟩ =>
    .seq (.locationFrom t.location fun _ => rfl) fun l => .pure ?_ rfl
  rw [Statement.relocated, Expr.relocatedAll_eq]

theorem returning :
    Tandem.Statements w n n' (s.before (.mark .returnWord)) g.returning g'.returning := by
  refine .bind (.advance rfl) fun t => ?_
  have hvalue (value : Option Expr) : Tandem w n n' .inside never (Statement.relocated w.move)
      (Parser.locationFrom t.location >>= fun l => pure (.returning value l))
      (Parser.locationFrom (w.move.place t.location) >>= fun l =>
        pure (.returning (value.map (Expr.relocated w.move)) l)) := by
    refine .seq (.locationFrom t.location fun _ => rfl) fun l => .pure ?_ rfl
    rw [Statement.relocated, Expr.relocatedOption_eq]
  simp only [atStatementEnd, checkAny_bind]
  refine .glance (fun kind => ?_) rfl
  cases kind.isOneOf statementEnds with
  | true => exact .of_inside (hvalue none)
  | false => exact .of_inside (.bind (.map h.any fun _ => rfl) hvalue)

theorem throwing : Tandem.Statements w n n' (s.before (.mark .throwWord)) g.throwing g'.throwing :=
  .bind (.advance rfl) fun t => .bind h.any fun _ =>
    .seq (.locationFrom t.location fun _ => rfl) fun _ => .pure rfl rfl

end Nested

namespace Tandem

theorem goto : Tandem.Statements w n n' (s.before (.mark .gotoWord)) Grammar.goto Grammar.goto :=
  .bind (.advance rfl) fun t => .bind (.expectIdentifier _) fun _ =>
    .seq (.locationFrom t.location fun _ => rfl) fun _ => .pure rfl rfl

theorem library :
    Tandem.Statements w n n' (s.before (.mark .libraryWord)) Grammar.library Grammar.library :=
  .bind (.advance rfl) fun t => .bind (.expectString _) fun _ =>
    .seq (.locationFrom t.location fun _ => rfl) fun _ => .pure rfl rfl

theorem bare (hk : kind.isPlain = true) {make : Location → Statement}
    (hmake : ∀ l, (make l).relocated w.move = make (w.move.place l)) :
    Tandem.Statements w n n' (s.before kind) (Grammar.bare make) (Grammar.bare make) :=
  .bind (.advance hk) fun _ => .pure (hmake _) rfl

end Tandem

/-! ## Looking further ahead -/

section
variable {c d : Cursor}

theorem ahead_zero (h : w.Pair c d) : c.ahead 0 = c.peek.kind := by
  obtain ⟨ts, hc, -, -⟩ := h.rest
  cases ts <;> rw [Cursor.ahead, Cursor.peek, hc] <;> rfl

/-- Up to the end the tokens ahead are the same in a text and in a longer one. -/
theorem ahead_of_pair {i : Nat} (h : w.Pair c d) (hbefore : ∀ j < i, (c.ahead j).isEnd = false) :
    d.ahead i = c.ahead i ∨ c.ahead i = .mark .endOfText ∧ d.ahead i = .mark .newline := by
  obtain ⟨ts, hc, hd, hts⟩ := h.rest
  have hlen : i ≤ ts.length := by
    refine Nat.le_of_not_lt fun hlt => ?_
    have := hbefore ts.length hlt
    rw [Cursor.ahead, hc, List.getElem?_concat_length, w.stop_isEnd] at this
    cases this
  rcases Nat.lt_or_eq_of_le hlen with hlt | rfl
  · left
    rw [Cursor.ahead, Cursor.ahead, hc, hd, List.getElem?_append_left hlt,
      List.getElem?_append_left (by simpa using hlt), List.getElem?_map, List.getElem?_eq_getElem hlt]
    rfl
  · right
    constructor
    · rw [Cursor.ahead, hc, List.getElem?_concat_length]
      exact TokenKind.is_iff.1 w.stop_isEnd
    · rw [Cursor.ahead, hd, List.getElem?_append_right (by simp), List.length_map, Nat.sub_self]
      exact w.newline_kind

theorem nameFollows_of_pair (h : w.Pair c d) (hend : c.peek.kind.isEnd = false) :
    Grammar.nameFollows d = Grammar.nameFollows c := by
  have hbefore : ∀ j < 1, (c.ahead j).isEnd = false := by
    intro j hj
    rw [Nat.lt_one_iff.1 hj, ahead_zero h, hend]
  rw [Grammar.nameFollows, Grammar.nameFollows]
  rcases ahead_of_pair h hbefore with h1 | ⟨hc, hd⟩
  · rw [h1]
  · rw [hc, hd]

theorem labelFollows_of_pair (h : w.Pair c d) (hend : c.peek.kind.isEnd = false) :
    Grammar.labelFollows d = Grammar.labelFollows c := by
  have hbefore : ∀ j < 1, (c.ahead j).isEnd = false := by
    intro j hj
    rw [Nat.lt_one_iff.1 hj, ahead_zero h, hend]
  rw [Grammar.labelFollows, Grammar.labelFollows]
  rcases ahead_of_pair h hbefore with h1 | ⟨hc, hd⟩
  · rw [h1]
    cases hcolon : (c.ahead 1).is .colon with
    | false => rfl
    | true =>
      have hbefore' : ∀ j < 2, (c.ahead j).isEnd = false := by
        intro j hj
        rcases Nat.lt_or_eq_of_le (Nat.le_of_lt_succ hj) with hj | rfl
        · exact hbefore j hj
        · rw [TokenKind.is_iff.1 hcolon]
          rfl
      rcases ahead_of_pair h hbefore' with h2 | ⟨hc, hd⟩
      · rw [h2]
      · rw [hc, hd]
        rfl
  · rw [hc, hd]
    rfl

theorem expectIdentifier_state {message : String} {name : Identifier} {t : Cursor}
    (h : expectIdentifier message c = .done name t) : t = c.advance := by
  cases hk : c.peek.kind <;>
    simp only [expectIdentifier, Routine.bind_apply, peekKind, Routine.view_apply, hk] at h <;>
    cases h
  rfl

theorem colon_of_labelFollows (hc : Grammar.labelFollows c = true) :
    c.advance.peek.kind.is .colon = true := by
  rw [Grammar.labelFollows, Bool.and_eq_true] at hc
  obtain ⟨rest, previous, final, errors, unnamed⟩ := c
  rcases rest with _ | ⟨x, _ | ⟨y, ys⟩⟩
  · cases hc.1
  · cases hc.1
  · exact hc.1

theorem expect_of_is {m : Mark} (h : c.peek.kind.is m = true) : expect m c = advance c := by
  simp only [expect, Routine.bind_apply, check, Routine.view_apply, h, if_true]

/-- A label that has been foreseen may as well look for its colon. -/
theorem label_eq (hc : Grammar.labelFollows c = true) :
    Grammar.label c = (expectIdentifier "Expected label" >>= fun name => expect .colon >>= fun _ =>
      pure (Statement.label name) : Parser Statement) c := by
  rw [Grammar.label, Routine.bind_apply, Routine.bind_apply]
  cases h : expectIdentifier "Expected label" c with
  | done name t =>
    have hcolon : t.peek.kind.is .colon = true := by
      rw [expectIdentifier_state h]
      exact colon_of_labelFollows hc
    show Outcome.done (Statement.label name) t.advance = (expect .colon >>= fun _ => _) t
    rw [Routine.bind_apply, expect_of_is hcolon]
    rfl
  | exit | exhausted => rfl

end

namespace Tandem

/-- A choice by a view of the tokens ahead that is the same wherever they stand. -/
theorem foresee {v : Cursor → Bool} {p p' q q' : Parser Statement}
    (hmove : ∀ c, v (c.relocated w.move) = v c)
    (hprevious : ∀ c previous, v { c with previous := previous } = v c)
    (hpair : ∀ c d, w.Pair c d → c.peek.kind.isEnd = false → v d = v c) (hk : kind.isEnd = false)
    (hp : Tandem.Statements w n n' (s.before kind) p p')
    (hq : Tandem.Statements w n n' (s.before kind) q q') :
    Tandem.Statements w n n' (s.before kind) (Routine.view v >>= fun b => if b = true then p else q)
      (Routine.view v >>= fun b => if b = true then p' else q') := by
  have hboth (b : Bool) : Tandem.Statements w n n' (s.before kind)
      (if b = true then p else q) (if b = true then p' else q') := by
    cases b with
    | true => exact hp
    | false => exact hq
  refine ⟨⟨(hboth _).moves.done, (hboth _).moves.exit⟩, fun c hf hs hr => ?_,
    fun hs c previous a t hf hc ha h => ?_, fun c d hcd hs hr hprev a t h ht => ?_⟩
  · show (if v c = true then p else q) c ≠ _ ∧ (if v (c.relocated w.move) = true then p' else q')
      (c.relocated w.move) = ((if v c = true then p else q) c).relocated _ _
    rw [hmove]
    exact (hboth (v c)).follows c hf hs hr
  · show (if v { c with previous := previous } = true then p else q) _ = _
    rw [hprevious]
    exact (hboth (v c)).forgets hs c previous a t hf hc ha h
  · show (∃ u, (if v d = true then p' else q') d = _ ∧ _) ∨
      (_ ∧ _ ∧ ∃ e u, (if v d = true then p' else q') d = _)
    rw [hpair c d hcd (by rw [hs.kind, hk])]
    exact (hboth (v c)).shadows c d hcd hs hr hprev a t h ht

theorem label :
    Tandem.Statements w n n' s
      (Parser.expectIdentifier "Expected label" >>= fun name => Parser.expect .colon >>= fun _ =>
        Pure.pure (Statement.label name))
      (Parser.expectIdentifier "Expected label" >>= fun name => Parser.expect .colon >>= fun _ =>
        Pure.pure (Statement.label name)) :=
  .bind (.expectIdentifier _) fun _ => .bind (.expect rfl) fun _ => .pure rfl rfl

end Tandem

theorem foreseen_label (q : Parser Statement) :
    (Routine.view Grammar.labelFollows >>= fun b => if b = true then Grammar.label else q) =
      Routine.view Grammar.labelFollows >>= fun b => if b = true then
        expectIdentifier "Expected label" >>= fun name => expect .colon >>= fun _ =>
          pure (Statement.label name)
      else q := by
  funext c
  show (if Grammar.labelFollows c = true then _ else _ : Parser Statement) c =
    (if Grammar.labelFollows c = true then _ else _ : Parser Statement) c
  cases hc : Grammar.labelFollows c with
  | true => exact label_eq hc
  | false => rfl

namespace Nested

variable (h : Nested w n n' g g')
include h

/-- A procedure with a name, or a phrase that starts with one without. -/
theorem procedureOrPhrase (hk : kind.isPlain = true) :
    Tandem.Statements w n n' (s.before kind) (Routine.view Grammar.nameFollows >>= fun b =>
        if b = true then g.declaration n else g.simpleStatement n)
      (Routine.view Grammar.nameFollows >>= fun b =>
        if b = true then g'.declaration n' else g'.simpleStatement n') := by
  refine .foresee (fun c => ?_) (fun _ _ => rfl) (fun _ _ => nameFollows_of_pair)
    (TokenKind.isPlain_iff.1 hk).1 (h.declaration hk) h.simpleStatement
  rw [Grammar.nameFollows, Grammar.nameFollows, Cursor.ahead_relocated]

theorem labelOrPhrase {name : String} :
    Tandem.Statements w n n' (s.before (.identifier name))
      (Routine.view Grammar.labelFollows >>= fun b =>
        if b = true then Grammar.label else g.simpleStatement n)
      (Routine.view Grammar.labelFollows >>= fun b =>
        if b = true then Grammar.label else g'.simpleStatement n') := by
  rw [foreseen_label, foreseen_label]
  refine .foresee (fun c => ?_) (fun _ _ => rfl) (fun _ _ => labelFollows_of_pair) rfl .label
    h.simpleStatement
  rw [Grammar.labelFollows, Grammar.labelFollows, Cursor.ahead_relocated, Cursor.ahead_relocated]

theorem statementRule : Tandem.Statements w n n' s (g.statementRule n) (g'.statementRule n') := by
  refine .lookKind fun kind => ?_
  cases kind with
  | mark m =>
    cases m with
    | functionWord | subWord => exact h.procedureOrPhrase rfl
    | ifWord => exact h.conditional
    | forWord => exact h.forLoop
    | forEach => exact h.forEach
    | whileWord => exact h.whileLoop
    | tryWord => exact h.tryCatch
    | printWord | question => exact h.print rfl
    | returnWord => exact h.returning
    | exitFor | exitWhile | continueFor | continueWhile | endWord | stopWord =>
      exact .bare rfl fun _ => rfl
    | gotoWord => exact .goto
    | dimWord => exact h.dim
    | throwWord => exact h.throwing
    | libraryWord => exact .library
    | _ => exact h.simpleStatement
  | identifier name => exact h.labelOrPhrase
  | _ => exact h.simpleStatement

end Nested

end BrightScript.Parser
