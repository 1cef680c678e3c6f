import BrightScript.Proofs.Tandem.Block

/-!
# Expressions in tandem

Every rule for expressions, from the brackets up to the operators, over nested grammars that run in
tandem.
-/

namespace BrightScript.Parser

namespace Tandem

variable {α β : Type} {w : Seam} {n n' : Nat} {s : Start} {k : α → Bool} {φ : α → α}
  {p p' : Parser α}

/-- The result of a parser put into something larger. -/
theorem map {l : β → Bool} {ψ : β → β} {f : α → β} (h : Tandem w n n' s always φ p p')
    (hf : ∀ a, ψ (f a) = f (φ a)) : Tandem w n n' s l ψ (f <$> p) (f <$> p') := by
  rw [map_eq_pure_bind, map_eq_pure_bind]
  exact bind h fun a => pure (hf a) rfl

end Tandem

theorem isEnd_of_isOneOf {marks : List Mark}
    (hm : marks.all (fun m => !TokenKind.isEnd (.mark m)) = true) {kind : TokenKind}
    (h : kind.isOneOf marks = true) : kind.isEnd = false := by
  obtain ⟨m, hmem, rfl⟩ := TokenKind.isOneOf_iff.1 h
  simpa using List.all_eq_true.1 hm m hmem

theorem isPlain_of_operator {kind : TokenKind} {op : BinaryOp × Nat}
    (h : Grammar.operator? kind = some op) : kind.isPlain = true := by
  cases kind with
  | mark m => cases m <;> first | rfl | cases h
  | _ => rfl

theorem isPlain_of_sign {kind : TokenKind} {op : UnaryOp} (h : Grammar.sign? kind = some op) :
    kind.isPlain = true := by
  cases kind with
  | mark m => cases m <;> first | rfl | cases h
  | _ => rfl

namespace Nested

variable {w : Seam} {n n' : Nat} {s : Start} {g g' : Grammar} (h : Nested w n n' g g')
include h

theorem any : Tandem.Exprs w n n' .inside g.any g'.any :=
  h.expression _

/-! ## Lists -/

theorem expressionStep {closing : Mark} (hc : closing.isOrdinary = true) (found : List Expr) :
    Tandem w n n' .inside always
      (Sum.map (List.map (Expr.relocated w.move))
        (Prod.map (List.map (Expr.relocated w.move)) w.move.place))
      (g.expressionStep closing found)
      (g'.expressionStep closing (found.map (Expr.relocated w.move))) := by
  refine .skipTo rfl (.bind h.any fun e => .skipTo rfl (.ifAccept rfl (.pure rfl rfl) ?_))
  exact .bind (.expect hc) fun t => .pure (by simp; rfl) rfl

theorem expressionList {closing : Mark} (hc : closing.isOrdinary = true)
    {k : List Expr × Location → Bool} :
    Tandem w n n' .inside k (Prod.map (List.map (Expr.relocated w.move)) w.move.place)
      (g.expressionList n closing) (g'.expressionList n' closing) :=
  .skipUntil rfl hc
    (.bind (.advance (Mark.isPlain_of_isOrdinary hc)) fun _ => .pure rfl rfl)
    (.iterate h.le (fun found => (h.expressionStep hc found).of_always) [])

theorem arrayStep (found : List Expr) :
    Tandem w n n' .inside (onward never)
      (Sum.map (List.map (Expr.relocated w.move)) (List.map (Expr.relocated w.move)))
      (g.arrayStep found) (g'.arrayStep (found.map (Expr.relocated w.move))) :=
  .skipUntil rfl rfl (.pure (congrArg Sum.inr List.map_reverse) rfl)
    (.bind h.any fun _ => .pure rfl rfl)

theorem arrayLiteral :
    Tandem.Exprs w n n' (s.before (.mark .leftBracket))
      (g.arrayLiteral n) (g'.arrayLiteral n') := by
  refine .bind (.advance rfl) fun t => .seq (.iterate h.le h.arrayStep []) fun elements => ?_
  exact .bind (.expect rfl) fun t' => .pure (by simp [Expr.relocated, w.move.place_union]; rfl) rfl

omit h in
theorem memberKey {k : String → Bool} :
    Tandem w n n' s k id Grammar.memberKey Grammar.memberKey := by
  refine .lookKind fun kind => ?_
  cases kind with
  | string value => exact .bind (.advance rfl) fun _ => .pure rfl rfl
  | _ => exact .bind .expectMemberName fun _ => .pure rfl rfl

theorem assocStep (found : List Member) :
    Tandem w n n' .inside (onward never)
      (Sum.map (List.map (Member.relocated w.move)) (List.map (Member.relocated w.move)))
      (g.assocStep found) (g'.assocStep (found.map (Member.relocated w.move))) := by
  refine .skipUntil rfl rfl (.pure (congrArg Sum.inr List.map_reverse) rfl) ?_
  refine .bind memberKey fun name => .bind (.expect rfl) fun _ => .skipTo rfl ?_
  exact .bind h.any fun _ => .pure rfl rfl

theorem assocLiteral :
    Tandem.Exprs w n n' (s.before (.mark .leftBrace)) (g.assocLiteral n) (g'.assocLiteral n') := by
  refine .bind (.advance rfl) fun t => .seq (.iterate h.le h.assocStep []) fun members => ?_
  exact .bind (.expect rfl) fun t' => .pure (by simp [Expr.relocated, w.move.place_union]; rfl) rfl

/-! ## Procedures -/

theorem parameter {k : Parameter → Bool} :
    Tandem w n n' .inside k (Parameter.relocated w.move) g.parameter g'.parameter := by
  have hkind (name : Identifier) (default? : Option Expr) : Tandem w n n' .inside never
      (Parameter.relocated w.move)
      (Parser.accept .asWord >>= fun b => if b = true then
        Grammar.typeName >>= fun kind => pure ⟨name, kind, default?⟩
      else pure ⟨name, (name.designator?.map Kind.ofDesignator).getD .dynamic, default?⟩)
      (Parser.accept .asWord >>= fun b => if b = true then
        Grammar.typeName >>= fun kind =>
          pure ⟨name.relocated w.move, kind, default?.map (Expr.relocated w.move)⟩
      else pure ⟨name.relocated w.move, (name.designator?.map Kind.ofDesignator).getD .dynamic,
        default?.map (Expr.relocated w.move)⟩) := by
    refine .ifAccept rfl (.bind .typeName fun kind => .pure ?_ rfl) (.pure ?_ rfl)
    · rw [Parameter.relocated, Expr.relocatedOption_eq]; rfl
    · rw [Parameter.relocated, Expr.relocatedOption_eq]
  refine .bind (.expectIdentifier _) fun name => .ifAccept rfl ?_ (hkind name none)
  exact .bind (.map h.any fun _ => rfl) fun default? => hkind name default?

theorem parameterStep (found : List Parameter) :
    Tandem w n n' .inside always
      (Sum.map (List.map (Parameter.relocated w.move)) (List.map (Parameter.relocated w.move)))
      (g.parameterStep found) (g'.parameterStep (found.map (Parameter.relocated w.move))) := by
  refine .bind h.parameter fun p => .ifAccept rfl (.pure rfl rfl) (.pure ?_ rfl)
  simp

theorem parameters :
    Tandem w n n' .inside never (List.map (Parameter.relocated w.move)) (g.parameters n)
      (g'.parameters n') :=
  .ifCheck rfl (.pure rfl rfl) (.iterate h.le (fun found => (h.parameterStep found).of_always) [])

/-- A procedure after its name. What becomes of the name is left to `rename`. -/
theorem procedureRest {name name' : String} {rename : String → String} (hr : rename name = name')
    (isSub : Bool) (start : Location) {k : Procedure → Bool} :
    Tandem w n n' .inside k (fun p => p.relocated w.move (rename p.name))
      (g.procedureRest n name isSub start)
      (g'.procedureRest n' name' isSub (w.move.place start)) := by
  subst hr
  have hterm : [if isSub = true then Mark.endSub else .endFunction].all Mark.isOrdinary = true := by
    cases isSub <;> rfl
  have hbody (ps : List Parameter) (returns : Kind) : Tandem w n n' .inside never
      (fun p : Procedure => p.relocated w.move (rename p.name))
      (g.block n [if isSub = true then Mark.endSub else .endFunction] >>= fun body =>
        Parser.expect (if isSub = true then Mark.endSub else .endFunction) >>= fun _ =>
          Parser.locationFrom start >>= fun l => pure ⟨name, ps, returns, isSub, body, l⟩)
      (g'.block n' [if isSub = true then Mark.endSub else .endFunction] >>= fun body =>
        Parser.expect (if isSub = true then Mark.endSub else .endFunction) >>= fun _ =>
          Parser.locationFrom (w.move.place start) >>= fun l =>
            pure ⟨rename name, ps.map (Parameter.relocated w.move), returns, isSub, body, l⟩) := by
    refine .seq (h.block hterm) fun body => .bind (.expect ?_) fun _ =>
      .seq (.locationFrom start fun _ => rfl) fun l => .pure rfl rfl
    cases isSub <;> rfl
  refine .bind (.expect rfl) fun _ => .seq h.parameters fun ps => .bind (.expect rfl) fun _ =>
    .ifAccept rfl (.bind .typeName fun returns => hbody ps returns) (hbody ps _)

theorem unnamedProcedure {kind : TokenKind} (hk : kind.isPlain = true) :
    Tandem.Exprs w n n' (s.before kind) (g.unnamedProcedure n) (g'.unnamedProcedure n') := by
  refine .bind (.advance hk) fun t => .seq (.nextUnnamed fun _ => rfl) fun number => ?_
  refine .bind (h.procedureRest (w.move.rename_unnamed number) _ _) fun p => .pure ?_ rfl
  exact Expr.relocated_procedure w.move p

/-! ## Operands -/

theorem grouping : Tandem.Exprs w n n' (s.before (.mark .leftParen)) g.grouping g'.grouping := by
  refine .bind (.advance rfl) fun t => .skipTo rfl (.bind h.any fun inner => .skipTo rfl ?_)
  exact .bind (.expect rfl) fun t' => .pure (by simp [Expr.relocated, w.move.place_union]; rfl) rfl

theorem primary : Tandem.Exprs w n n' s (g.primary n) (g'.primary n') := by
  refine .look fun t => ?_
  obtain ⟨kind, location⟩ := t
  have hliteral {kind : TokenKind} (value : Literal) (hk : kind.isPlain = true) :
      Tandem.Exprs w n n' (s.before kind)
        (Parser.advance >>= fun _ => pure (.literal value location))
        (Parser.advance >>= fun _ => pure (.literal value (w.move.place location))) :=
    .bind (.advance hk) fun _ => .pure rfl rfl
  cases kind with
  | identifier name => exact .bind (.advance rfl) fun _ => .pure rfl rfl
  | mark m =>
    cases m with
    | leftParen => exact h.grouping
    | leftBracket => exact h.arrayLiteral
    | leftBrace => exact h.assocLiteral
    | functionWord | subWord => exact h.unnamedProcedure rfl
    | trueWord | falseWord | invalidWord => exact hliteral _ rfl
    | _ => exact .failHere _
  | _ => exact hliteral _ rfl

theorem link (e : Expr) :
    Tandem w n n' .inside (onward never)
      (Sum.map (Expr.relocated w.move) (Expr.relocated w.move)) (g.link n e)
      (g'.link n' (e.relocated w.move)) := by
  refine .glance (fun kind => ?_) rfl
  cases hcall : kind.isOneOf [.leftParen, .questionParen] with
  | true =>
    refine .bind (.advance (TokenKind.isPlain_of_isOneOf rfl hcall)) fun _ =>
      .seq (h.expressionList rfl) fun ⟨args, closing⟩ => .pure ?_ rfl
    simp [Expr.relocated, w.move.place_union]
  | false =>
  cases hdot : kind.isOneOf [.dot, .questionDot] with
  | true =>
    refine .memberThen (isEnd_of_isOneOf rfl hdot) fun name => .pure ?_ rfl
    simp [Expr.relocated, w.move.place_union]
    rfl
  | false =>
  cases hindex : kind.isOneOf [.leftBracket, .questionBracket] with
  | true =>
    refine .bind (.advance (TokenKind.isPlain_of_isOneOf rfl hindex)) fun _ =>
      .seq (h.expressionList rfl) fun ⟨indexes, closing⟩ => .pure ?_ rfl
    simp [Expr.relocated, w.move.place_union]
  | false =>
  cases hat : kind.is .atSign with
  | true =>
    rw [TokenKind.is_iff.1 hat]
    refine .memberThen rfl fun name => .pure ?_ rfl
    simp [Expr.relocated, w.move.place_union]
    rfl
  | false => exact .pure rfl rfl

theorem chain : Tandem.Exprs w n n' s (g.chain n) (g'.chain n') :=
  .bind h.primary fun first => .iterate h.le h.link first

theorem exponent : Tandem.Exprs w n n' s (g.exponent n) (g'.exponent n') := by
  refine .lookCheck (.bind (.advance rfl) fun t => .bind h.chain fun operand => .pure ?_ rfl) h.chain
  simp [Expr.relocated, w.move.place_union]
  rfl

theorem powerStep (left : Expr) :
    Tandem w n n' .inside (onward never)
      (Sum.map (Expr.relocated w.move) (Expr.relocated w.move)) (g.powerStep n left)
      (g'.powerStep n' (left.relocated w.move)) := by
  refine .ifAccept rfl (.bind h.exponent fun right => .pure ?_ rfl) (.pure rfl rfl)
  simp [Expr.relocated, w.move.place_union]

theorem power : Tandem.Exprs w n n' s (g.power n) (g'.power n') :=
  .bind h.chain fun first => .iterate h.le h.powerStep first

/-! ## Operators -/

theorem signedRule : Tandem.Exprs w n n' s (g.signedRule n) (g'.signedRule n') := by
  refine .lookKind fun kind => ?_
  cases hsign : Grammar.sign? kind with
  | some op =>
    refine .bind (.advance (isPlain_of_sign hsign)) fun t => .bind h.signed fun operand =>
      .pure ?_ rfl
    simp [Expr.relocated, w.move.place_union]
    rfl
  | none => exact h.power

theorem operand : Tandem.Exprs w n n' s (g.operand n) (g'.operand n') := by
  refine .lookCheck (.bind (.advance rfl) fun t => .bind (h.expression _) fun inner =>
    .pure ?_ rfl) h.signedRule
  simp [Expr.relocated, w.move.place_union]
  rfl

theorem operation (least : Nat) (left : Expr) :
    Tandem w n n' .inside (onward never)
      (Sum.map (Expr.relocated w.move) (Expr.relocated w.move)) (g.operation least left)
      (g'.operation least (left.relocated w.move)) := by
  refine .glance (fun kind => ?_) rfl
  cases hop : Grammar.operator? kind with
  | some op =>
    obtain ⟨op, strength⟩ := op
    by_cases hlt : strength < least
    · simp only [if_pos hlt]
      exact .pure rfl rfl
    · simp only [if_neg hlt]
      refine .bind (.advance (isPlain_of_operator hop)) fun _ => .bind (h.expression _) fun right =>
        .pure ?_ rfl
      simp [Expr.relocated, w.move.place_union]
  | none => exact .pure rfl rfl

theorem expressionRule (least : Nat) :
    Tandem.Exprs w n n' s (g.expressionRule n least) (g'.expressionRule n' least) :=
  .bind h.operand fun first => .iterate h.le (h.operation least) first

end Nested

end BrightScript.Parser
