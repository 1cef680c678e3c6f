import BrightScript.Proofs.Placement.Expression

/-!
# Placement in statements and scripts

Every rule for statements gathers the expressions it reads. With the rules for expressions this ties
the knot over the budget, so that it holds of all expressions of a script: each one stands from the
first token read for it to the last one, and covers its sub-expressions.
-/

namespace BrightScript

namespace Grammar.Places

open BrightScript.Parser

variable {g : Grammar} (h : g.Places) (c : Cursor) (budget : Nat)
include h

/-! ## Assignments -/

omit h in
theorem store? {target value : Expr} {l : Location} {statement : Statement} {xs : List Token}
    (hstore : Grammar.store? target value l = some statement) (hvalue : value.ReadIn xs)
    (hchildren : Expr.AllIn xs target.children) : Expr.AllIn xs statement.expressions := by
  unfold Grammar.store? at hstore
  split at hstore
  · cases hstore
    exact Expr.allIn_cons.2 ⟨hvalue, Expr.allIn_nil⟩
  · cases hstore
    exact Expr.allIn_cons.2 ⟨(Expr.allIn_cons.1 hchildren).1,
      Expr.allIn_cons.2 ⟨hvalue, Expr.allIn_nil⟩⟩
  · cases hstore
    obtain ⟨hobject, hindexes⟩ := Expr.allIn_cons.1 hchildren
    exact Expr.allIn_cons.2 ⟨hobject, Expr.allIn_cons.2 ⟨hvalue, hindexes⟩⟩
  · cases hstore

theorem assignmentTo (start : Location) {before : List Token} {target : Expr}
    (htarget : target.ReadFrom before) (op : Option BinaryOp) :
    Yields c (fun xs s => Expr.AllIn (before ++ xs) s.expressions)
      (g.assignmentTo start target op) := by
  refine .past .advance fun t xs _ => .bind (h.any t) fun u ys right hright => .view ?_
  split
  · next statement hstore =>
    refine .pure ?_
    rw [List.append_nil]
    refine store? hstore ?_ htarget.children.left
    cases op with
    | some op => exact (binary htarget hright).readIn
    | none => exact hright.readIn.right.right
  · exact .leave _

omit h in
theorem incrementOf (start : Location) {before : List Token} {target : Expr}
    (htarget : target.ReadFrom before) (op : IncrementOp) :
    Yields c (fun xs s => Expr.AllIn (before ++ xs) s.expressions)
      (Grammar.incrementOf start target op) := by
  refine .past .advance fun _ xs _ => .ite (fun _ => .view (.pure ?_)) fun _ => .leave _
  exact Expr.allIn_cons.2 ⟨htarget.readIn.left, Expr.allIn_nil⟩

theorem simpleStatement : Holds c Statement.expressions (g.simpleStatement budget) := by
  refine .of_yields (.view (.bind (h.chain c budget) fun t xs target htarget => .view ?_))
  split
  · exact h.assignmentTo t _ htarget _
  · refine .ite (fun _ => incrementOf t _ htarget _) fun _ =>
      .ite (fun _ => incrementOf t _ htarget _) fun _ => ?_
    split
    · exact .pure (Expr.allIn_cons.2 ⟨htarget.readIn.left, Expr.allIn_nil⟩)
    · exact .leave _

/-! ## Declarations and conditionals -/

theorem declaration : Holds c Statement.expressions (g.declaration budget) := by
  refine .past .advance fun _ _ => .past (.expectIdentifier _) fun t name => ?_
  refine .of_yields (.bind (h.procedureRest_parts t budget _ _ _) fun _ xs p hp => .pure ?_)
  rw [List.append_nil, Statement.expressions_declaration]
  exact hp.2

theorem inlineStep (found : List Statement) :
    HoldsOn c (List.flatMap Statement.expressions) found (g.inlineStep found) := by
  refine .past (.skip _) fun t _ => .view (.ite (.pure fun _ => by simp) ?_)
  exact .bind (h.statement t) fun _ s => .pure fun tokens hs hfound => by simp [hs, hfound]

theorem inlineBlock : Holds c Block.expressions (g.inlineBlock budget) :=
  spanned c fun _ => .loopFrom (fun _ => by simp) h.inlineStep budget

/-- The alternatives of an `if` within some tokens. -/
def AlternativesIn (tokens : List Token) (found : List Clause × Option Block) : Prop :=
  Expr.AllIn tokens (found.1.flatMap Clause.expressions) ∧
    Expr.AllIn tokens (Block.optionExpressions found.2)

theorem alternativeStep {body lastBody : Parser Block}
    (hbody : ∀ t, Holds t Block.expressions body)
    (hlast : ∀ t, Holds t Block.expressions lastBody)
    (found : List Clause × Option Block) :
    Gathers c (fun tokens r => AlternativesIn tokens found →
        r.elim (AlternativesIn tokens) (AlternativesIn tokens))
      (g.alternativeStep body lastBody found) := by
  refine .past (.accept _) fun t _ => .ite ?_ (.past (.accept _) fun u _ => .ite ?_ ?_)
  · refine .bind (h.anyIn t) fun _ condition => .past (.accept _) fun v _ =>
      .bind (hbody v) fun _ block => .pure fun tokens hblock hcondition hfound => ?_
    exact ⟨by simp [Clause.expressions, hcondition, hblock, hfound.1], hfound.2⟩
  · exact .bind (hlast u) fun _ block => .pure fun tokens hblock hfound => ⟨hfound.1, hblock⟩
  · refine .pure fun tokens hfound => ⟨?_, hfound.2⟩
    simpa using hfound.1

theorem alternatives {body lastBody : Parser Block}
    (hbody : ∀ t, Holds t Block.expressions body)
    (hlast : ∀ t, Holds t Block.expressions lastBody) :
    Gathers c AlternativesIn (g.alternatives budget body lastBody) :=
  .loopFrom (fun _ => ⟨by simp, by simp [Block.optionExpressions]⟩)
    (fun t found => h.alternativeStep t hbody hlast found) budget

theorem ifHead : Gathers c (fun tokens head => head.2.ReadIn tokens) g.ifHead := by
  refine .past .advance fun t _ => .bind (h.anyIn t) fun _ condition => .past (.accept _) fun _ _ => ?_
  exact .pure fun tokens hcondition => hcondition

omit h in
theorem conditionalIn {tokens : List Token} {condition : Expr} {thenBranch : Block}
    {found : List Clause × Option Block} {l : Location} (hcondition : condition.ReadIn tokens)
    (hthen : Expr.AllIn tokens thenBranch.expressions) (hfound : AlternativesIn tokens found) :
    Expr.AllIn tokens
      (Statement.conditional condition thenBranch found.1 found.2 l).expressions := by
  rw [Statement.expressions, Clause.allExpressions_eq]
  simp only [List.cons_append, Expr.allIn_cons, Expr.allIn_append]
  exact ⟨hcondition, ⟨hthen, hfound.1⟩, hfound.2⟩

theorem blockForm (head : Location × Expr) :
    Gathers c (fun tokens s => head.2.ReadIn tokens → Expr.AllIn tokens s.expressions)
      (g.blockForm budget head) := by
  refine .bind (h.block c budget _) fun t thenBranch => .bind (h.alternatives t budget
    (fun u => h.block u budget _) fun u => h.block u budget _) fun u found => ?_
  exact .past (.expect _) fun _ _ => .view
    (.pure fun tokens hfound hthen hhead => conditionalIn hhead hthen hfound)

theorem inlineForm (head : Location × Expr) :
    Gathers c (fun tokens s => head.2.ReadIn tokens → Expr.AllIn tokens s.expressions)
      (g.inlineForm budget head) := by
  refine .bind (h.inlineBlock c budget) fun t thenBranch => .bind (h.alternatives t budget
    (fun u => h.inlineBlock u budget) fun u => h.inlineBlock u budget) fun u found => ?_
  exact .past (.accept _) fun _ _ => .view
    (.pure fun tokens hfound hthen hhead => conditionalIn hhead hthen hfound)

theorem conditional : Holds c Statement.expressions (g.conditional budget) :=
  .bind (h.ifHead c) fun t head =>
    .view (.ite (h.blockForm t budget head) (h.inlineForm t budget head))

/-! ## Loops and handlers -/

omit h in
theorem loopEnd : Skips c Grammar.loopEnd := by
  refine .past (.accept _) fun _ _ => .ite (.pure fun _ => trivial) ?_
  refine .past (.expect _) fun _ _ => .view ?_
  split
  · exact .past .advance fun _ _ => .pure fun _ => trivial
  · exact .pure fun _ => trivial

theorem forLoop : Holds c Statement.expressions (g.forLoop budget) := by
  have hbody (t : Cursor) (start : Location) (counter : Identifier) (first final : Expr)
      (step : Option Expr) : Gathers t (fun tokens (s : Statement) =>
          Expr.AllIn tokens (first :: final :: step.toList) → Expr.AllIn tokens s.expressions)
        (g.block budget [.nextWord, .endFor] >>= fun body => Grammar.loopEnd >>= fun _ =>
          Parser.locationFrom start >>= fun l =>
            pure (.forLoop counter first final step body l)) := by
    refine .bind (h.block t budget _) fun _ body => .past (loopEnd _) fun _ _ => .view ?_
    refine .pure fun tokens hbody hhead => ?_
    exact Expr.allIn_append.2 ⟨hhead, hbody⟩
  refine .past .advance fun _ _ => .past (.expectIdentifier _) fun _ counter =>
    .past (.expect _) fun t _ => .bind (h.anyIn t) fun _ first => .past (.expect _) fun u _ =>
    .bind (h.anyIn u) fun _ final => .past (.accept _) fun v _ => .ite ?_ ?_
  · refine .bind (h.optionIn v) fun w step => (hbody w _ counter first final step).mono ?_
    intro _ _ hs tokens hx hstep hfinal hfirst
    exact hs tokens hx (Expr.allIn_cons.2 ⟨hfirst, Expr.allIn_cons.2 ⟨hfinal, hstep⟩⟩)
  · refine (hbody v _ counter first final none).mono ?_
    intro _ _ hs tokens hx hfinal hfirst
    exact hs tokens hx (Expr.allIn_cons.2 ⟨hfirst, Expr.allIn_cons.2 ⟨hfinal, Expr.allIn_nil⟩⟩)

theorem forEach : Holds c Statement.expressions (g.forEach budget) := by
  refine .past .advance fun _ _ => .past (.expectIdentifier _) fun _ item =>
    .past (.expect _) fun t _ => .bind (h.anyIn t) fun u target =>
    .bind (h.block u budget _) fun _ body => .past (loopEnd _) fun _ _ => .view ?_
  exact .pure fun tokens hbody htarget => Expr.allIn_cons.2 ⟨htarget, hbody⟩

theorem whileLoop : Holds c Statement.expressions (g.whileLoop budget) := by
  refine .past .advance fun t _ => .bind (h.anyIn t) fun u condition =>
    .bind (h.block u budget _) fun _ body => .past (.expect _) fun _ _ => .view ?_
  exact .pure fun tokens hbody hcondition => Expr.allIn_cons.2 ⟨hcondition, hbody⟩

theorem tryCatch : Holds c Statement.expressions (g.tryCatch budget) := by
  refine .past .advance fun t _ => .bind (h.block t budget _) fun _ tryBlock =>
    .past (.expect _) fun _ _ => .past (.expectIdentifier _) fun u binding =>
    .bind (h.block u budget _) fun _ catchBlock => .past (.expect _) fun _ _ => .view ?_
  exact .pure fun tokens hcatch htry => Expr.allIn_append.2 ⟨htry, hcatch⟩

/-! ## Statements of one line -/

theorem printStep (found : List PrintItem) :
    HoldsOn c (List.flatMap PrintItem.expressions) found (g.printStep found) := by
  refine .view (.ite (.pure fun _ => by simp) ?_)
  refine .past (.accept _) fun _ _ => .ite (.pure fun _ hfound => hfound) ?_
  refine .past (.accept _) fun t _ => .ite (.pure fun _ hfound => hfound) ?_
  exact .bind (h.anyIn t) fun _ e => .pure fun tokens he hfound => by
    simp [PrintItem.expressions, he, hfound]

theorem print : Holds c Statement.expressions (g.print budget) :=
  .past .advance fun _ _ => .bind (.loopFrom (fun _ => by simp) h.printStep budget) fun _ items =>
    .view (.pure fun _ hitems => hitems)

theorem dim : Holds c Statement.expressions (g.dim budget) := by
  refine .past .advance fun _ _ => .past (.expectIdentifier _) fun _ name =>
    .past (.expect _) fun t _ => .of_yields ?_
  refine .bind (h.expressionList t budget (by decide)) fun _ xs r hr => ?_
  obtain ⟨ys, last, rfl, -, hdimensions⟩ := hr
  obtain ⟨dimensions, closing⟩ := r
  exact .view (.pure hdimensions.left.left)

theorem returning : Holds c Statement.expressions g.returning := by
  refine .past .advance fun t _ => .view (.ite (.view (.pure fun _ => Expr.allIn_nil)) ?_)
  exact .bind (h.optionIn t) fun _ _ => .view (.pure fun _ hvalue => hvalue)

theorem throwing : Holds c Statement.expressions g.throwing :=
  .past .advance fun t _ => .bind (h.anyIn t) fun _ _ => .view
    (.pure fun _ hvalue => Expr.allIn_cons.2 ⟨hvalue, Expr.allIn_nil⟩)

omit h in
theorem goto : Holds c Statement.expressions Grammar.goto :=
  .past .advance fun _ _ => .past (.expectIdentifier _) fun _ _ => .view
    (.pure fun _ => Expr.allIn_nil)

omit h in
theorem library : Holds c Statement.expressions Grammar.library := by
  refine .past .advance fun _ _ => .past (.expectString _) fun _ _ => .view ?_
  exact .pure fun _ => Expr.allIn_nil

omit h in
theorem label : Holds c Statement.expressions Grammar.label :=
  .past (.expectIdentifier _) fun _ _ => .past .advance fun _ _ => .pure fun _ => Expr.allIn_nil

omit h in
theorem bare {make : Location → Statement} (hmake : ∀ l, (make l).expressions = []) :
    Holds c Statement.expressions (Grammar.bare make) :=
  .past .advance fun _ t => .pure fun tokens => by simp [hmake]

theorem statementRule : Holds c Statement.expressions (g.statementRule budget) := by
  refine .view ?_
  split
  · exact .view (.ite (h.declaration c budget) (h.simpleStatement c budget))
  · exact .view (.ite (h.declaration c budget) (h.simpleStatement c budget))
  · exact h.conditional c budget
  · exact h.forLoop c budget
  · exact h.forEach c budget
  · exact h.whileLoop c budget
  · exact h.tryCatch c budget
  · exact h.print c budget
  · exact h.print c budget
  · exact h.returning c
  · exact bare c fun _ => rfl
  · exact bare c fun _ => rfl
  · exact bare c fun _ => rfl
  · exact bare c fun _ => rfl
  · exact bare c fun _ => rfl
  · exact bare c fun _ => rfl
  · exact goto c
  · exact h.dim c budget
  · exact h.throwing c
  · exact library c
  · exact .view (.ite (label c) (h.simpleStatement c budget))
  · exact h.simpleStatement c budget

end Grammar.Places

/-! ## The whole grammar -/

theorem Grammar.places (budget : Nat) : (Grammar.ofBudget budget).Places := by
  induction budget with
  | zero =>
    exact ⟨fun _ _ => .giveUp, fun _ => .giveUp, fun _ => Parser.Yields.giveUp,
      Parser.Moves.statement 0⟩
  | succ budget ih =>
    refine ⟨fun c least => ?_, fun c => ?_, fun c => ?_, Parser.Moves.statement (budget + 1)⟩
    · exact ih.expressionRule c budget least
    · exact ih.signedRule c budget
    · exact ih.statementRule c budget

theorem Grammar.Places.programStep {g : Grammar} (h : g.Places) (c : Cursor)
    (found : List Statement) :
    Parser.HoldsOn c (List.flatMap Statement.expressions) found (g.programStep found) := by
  refine .past (.skip _) fun t _ => .view (.ite (.pure fun _ => by simp) ?_)
  refine .bind (h.blockStatement t [] found) fun _ _ => .pure fun _ hr hfound => ?_
  exact hr hfound

theorem parseProgram_allIn (budget : Nat) (c : Cursor) :
    Parser.Holds c (List.flatMap Statement.expressions) (parseProgram budget) :=
  .loopFrom (fun _ => by simp) (Grammar.places budget).programStep budget

/-- The expressions of a script, with all their sub-expressions. -/
inductive Expr.OccursIn (program : List Statement) : Expr → Prop
  | statement {e : Expr} {s : Statement} : s ∈ program → e ∈ s.expressions → OccursIn program e
  | child {e x : Expr} : OccursIn program e → x ∈ e.children → OccursIn program x

theorem Expr.OccursIn.wellPlaced {program : List Statement} {e : Expr} (h : e.OccursIn program)
    (hall : ∀ s ∈ program, ∀ e ∈ s.expressions, e.WellPlaced) : e.WellPlaced := by
  induction h with
  | statement hs he => exact hall _ hs _ he
  | child _ hx ih =>
    obtain ⟨-, -, hchildren⟩ := ih
    exact hchildren _ hx

theorem wellPlaced_of_parse {file source : String} {program : List Statement}
    (h : parse file source = .ok program) {e : Expr} (he : e.OccursIn program) :
    e.WellPlaced := by
  unfold parse at h
  split at h
  · next tokens hscan =>
    have hlayout := Token.scan_layout hscan
    have hfinal := (Cursor.standsAt_ofTokens hlayout.getLast?_eq rfl).final_isEnd
    unfold parseTokens at h
    split at h
    · next statements cursor hdone =>
      split at h
      · cases h
        obtain ⟨passed, hpassed, hall⟩ := parseProgram_allIn _ _ hfinal _ _ hdone
        have htokens : passed <:+: tokens := ⟨[], cursor.rest, hpassed.rest.symm⟩
        have hplaced := hall tokens htokens
        refine he.wellPlaced fun s hs e he => (hplaced e ?_).wellPlaced hlayout.inOrder
        exact List.mem_flatMap.2 ⟨s, hs, he⟩
      · cases h
    · cases h
    · cases h
  · cases h

/-- An expression read from the tokens of a text stands from the start of the first token passed for
it to the end of the last one. In a script that is parsed, every expression runs forward and
contains all its direct sub-expressions. -/
theorem expressions_contain_parts (file source : String) :
    (∀ (tokens : List Token) (i budget least : Nat) (c t : Cursor) (e : Expr),
      Token.scan file source = .ok tokens → c.StandsAt tokens i →
      parseExpression budget least c = .done e t →
      ∃ j first last, i < j ∧ t.StandsAt tokens j ∧
        tokens[i]? = some first ∧ tokens[j - 1]? = some last ∧
        e.location.opening = first.location.opening ∧
        e.location.ending = last.location.ending) ∧
    (∀ (program : List Statement) (e : Expr), parse file source = .ok program →
      e.OccursIn program →
      e.location.Forward ∧ ∀ x ∈ e.children, e.location.Covers x.location) := by
  refine ⟨fun tokens i budget least c t e hscan hc hdone => ?_, fun program e h he => ?_⟩
  · obtain ⟨passed, hpassed, hread⟩ :=
      (Grammar.places budget).expression c least hc.final_isEnd e t hdone
    have hrest : tokens.drop i = passed ++ t.rest := hc.rest.symm.trans hpassed.rest
    have hsub : passed.Sublist tokens :=
      (List.sublist_append_left ..).trans (hrest ▸ List.drop_sublist i tokens)
    obtain ⟨first, last, hfirst, hlast, hlocation⟩ :=
      hread.spans ((Token.scan_layout hscan).inOrder.sublist hsub)
    have hpos : 0 < passed.length := by
      obtain ⟨more, rfl⟩ := List.head?_eq_some_iff.1 hfirst
      exact Nat.succ_pos _
    have hget {k : Nat} (hk : k < passed.length) : tokens[i + k]? = passed[k]? := by
      rw [← List.getElem?_drop, hrest, List.getElem?_append_left hk]
    refine ⟨i + passed.length, first, last, Nat.lt_add_of_pos_right hpos, hc.passes hpassed,
      ?_, ?_, ?_, ?_⟩
    · rw [← hfirst, List.head?_eq_getElem?]
      exact hget hpos
    · rw [← hlast, List.getLast?_eq_getElem?, Nat.add_sub_assoc hpos]
      exact hget (Nat.sub_lt hpos Nat.one_pos)
    · rw [hlocation]
      rfl
    · rw [hlocation]
      rfl
  · obtain ⟨hforward, hcovers, -⟩ := wellPlaced_of_parse h he
    exact ⟨hforward, hcovers⟩

/-- The tokens of a call over two lines. -/
def callTokens : List Token :=
  let onLine line column stop start := Location.mk "f" ⟨line, column⟩ ⟨line, stop⟩
    ⟨start, start + (stop - column)⟩
  [⟨.identifier "g", onLine 1 0 1 0⟩, ⟨.mark .leftParen, onLine 1 1 2 1⟩,
    ⟨.mark .minus, onLine 1 2 3 2⟩, ⟨.identifier "a", onLine 1 3 4 3⟩, ⟨.mark .dot, onLine 1 4 5 4⟩,
    ⟨.identifier "b", onLine 1 5 6 5⟩, ⟨.mark .newline, ⟨"f", ⟨1, 6⟩, ⟨2, 0⟩, ⟨6, 7⟩⟩⟩,
    ⟨.mark .rightParen, onLine 2 0 1 7⟩, ⟨.mark .endOfText, onLine 2 1 1 8⟩]

def callArgument : Expr :=
  .unary .negate
    (.dottedGet (.reference ⟨"a", ⟨"f", ⟨1, 3⟩, ⟨1, 4⟩, ⟨3, 4⟩⟩⟩)
      ⟨"b", ⟨"f", ⟨1, 5⟩, ⟨1, 6⟩, ⟨5, 6⟩⟩⟩ false ⟨"f", ⟨1, 3⟩, ⟨1, 6⟩, ⟨3, 6⟩⟩)
    ⟨"f", ⟨1, 2⟩, ⟨1, 6⟩, ⟨2, 6⟩⟩

def callOverLines : Expr :=
  .call (.reference ⟨"g", ⟨"f", ⟨1, 0⟩, ⟨1, 1⟩, ⟨0, 1⟩⟩⟩) [callArgument] false
    ⟨"f", ⟨2, 0⟩, ⟨2, 1⟩, ⟨7, 8⟩⟩ ⟨"f", ⟨1, 0⟩, ⟨2, 1⟩, ⟨0, 8⟩⟩

/-- The argument `-a.b` of a call stands from the sign to the member's name, and the call, which ends
on the next line, contains it. -/
theorem expressions_contain_parts_call :
    let c := (Cursor.ofTokens callTokens).advance.advance
    Token.scan "f" "g(-a.b\n)" = .ok callTokens ∧ c.StandsAt callTokens 2 ∧
      (∃ t, parseExpression 9 Grammar.anyStrength c = .done callArgument t ∧
        ∃ j first last, 2 < j ∧ t.StandsAt callTokens j ∧
          callTokens[2]? = some first ∧ callTokens[j - 1]? = some last ∧
          callArgument.location.opening = first.location.opening ∧
          callArgument.location.ending = last.location.ending) ∧
      parse "f" "g(-a.b\n)" = .ok [.expression callOverLines] ∧
      callOverLines.OccursIn [.expression callOverLines] ∧
      callOverLines.location.Covers callArgument.location := by
  intro c
  have hscan : Token.scan "f" "g(-a.b\n)" = .ok callTokens := by with_unfolding_all rfl
  have hc : c.StandsAt callTokens 2 := ⟨by decide, rfl, rfl⟩
  have hparse : parse "f" "g(-a.b\n)" = .ok [.expression callOverLines] := by
    rw [parse, hscan]
    rfl
  have hcall : callOverLines.OccursIn [.expression callOverLines] :=
    .statement List.mem_cons_self List.mem_cons_self
  obtain ⟨hexpressions, hnodes⟩ := expressions_contain_parts "f" "g(-a.b\n)"
  refine ⟨hscan, hc, ⟨_, rfl, hexpressions callTokens 2 9 1 c _ callArgument hscan hc rfl⟩, hparse,
    hcall, (hnodes _ _ hparse hcall).2 callArgument (.tail _ List.mem_cons_self)⟩

end BrightScript
