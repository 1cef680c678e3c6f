import BrightScript.Proofs.Fork

/-!
# Expressions and blocks before a fork

Every rule for expressions comes up to a fork without telling its two ways apart: a bracketed phrase
has its closing bracket before the fork, and a loop over operators or links ends at any mark that
may stand there. A block is read up to a terminator, which stands before the fork.
-/

namespace BrightScript

/-- Whether the statement neither holds other statements nor is a label. -/
def Statement.isSimple : Statement → Bool
  | .block _ | .declaration .. | .conditional .. | .label _ | .forLoop .. | .forEach ..
  | .whileLoop .. | .tryCatch .. => false
  | _ => true

/-- How many tokens are left before the fork behind a statement. -/
def Fork.behind (w : Fork) (statement : Statement) : Nat :=
  if statement.isSimple then w.reach else 1

theorem Fork.behind_le (w : Fork) (statement : Statement) : w.behind statement ≤ 1 := by
  rw [behind]
  split
  · exact w.reach_le
  · exact Nat.le_refl 1

/-- The parsers for nested phrases do not tell the two ways of a fork apart. -/
structure Grammar.Unaware (w : Fork) (g : Grammar) : Prop where
  expression : ∀ least, Parser.Unaware w 1 (fun _ => 0) (g.expression least)
  signed : Parser.Unaware w 1 (fun _ => 0) g.signed
  statement : Parser.Unaware w 1 w.behind g.statement

namespace Grammar.Unaware

open BrightScript.Parser

variable {w : Fork} {n : Nat} {g : Grammar} (h : Grammar.Unaware w g) {k : Expr → Nat}
include h

theorem any : Parser.Unaware w 1 k g.any :=
  (h.expression _).mono (Nat.le_refl 1) fun _ => Nat.zero_le _

/-! ## Lists -/

theorem expressionStep (closing : Mark) (found : List Expr) :
    Parser.Unaware w 1 (Sum.elim (fun _ => 1) fun _ => 0) (g.expressionStep closing found) := by
  refine .bind (.skip _ (Nat.le_refl 1)) fun _ => .bind h.any fun e =>
    .bind (.skip _ (Nat.le_refl 1)) fun _ => .lookAccept (.pure (Nat.le_refl 1)) ?_
  exact .bind .expect fun _ => .pure (Nat.le_refl 0)

theorem expressionList (closing : Mark) {k : List Expr × Location → Nat} :
    Parser.Unaware w 1 k (g.expressionList n closing) := by
  refine .mono (k := fun _ => 0) ?_ (Nat.le_refl 1) fun _ => Nat.zero_le _
  refine .bind (.skip _ (Nat.le_refl 1)) fun _ =>
    .lookCheck ?_ (.iterate (h.expressionStep closing) _ _)
  exact .bind .advance fun _ => .pure (Nat.le_refl 0)

theorem arrayStep (found : List Expr) :
    Parser.Unaware w 1 (Sum.elim (fun _ => 1) fun _ => 1) (g.arrayStep found) :=
  .bind (.skip _ (Nat.le_refl 1)) fun _ => .lookCheck (.pure (Nat.le_refl 1))
    (.bind h.any fun _ => .pure (Nat.le_refl 1))

theorem arrayLiteral : Parser.Unaware w 1 k (g.arrayLiteral n) :=
  .bind .advance fun _ => .bind (.iterate h.arrayStep _ _) fun _ =>
    .bind .expect fun _ => .pure (Nat.zero_le _)

omit h in
theorem memberKey {k : String → Nat} : Parser.Unaware w 1 k Grammar.memberKey := by
  refine .lookKind fun kind => ?_
  cases kind with
  | string value => exact .bind .advance fun _ => .pure (Nat.zero_le _)
  | _ => exact .bind .expectMemberName fun _ => .pure (Nat.zero_le _)

theorem assocStep (found : List Member) :
    Parser.Unaware w 1 (Sum.elim (fun _ => 1) fun _ => 1) (g.assocStep found) :=
  .bind (.skip _ (Nat.le_refl 1)) fun _ => .lookCheck (.pure (Nat.le_refl 1))
    (.bind memberKey fun _ => .bind .expect fun _ => .bind (.skip _ (Nat.le_refl 1)) fun _ =>
      .bind h.any fun _ => .pure (Nat.le_refl 1))

theorem assocLiteral : Parser.Unaware w 1 k (g.assocLiteral n) :=
  .bind .advance fun _ => .bind (.iterate h.assocStep _ _) fun _ =>
    .bind .expect fun _ => .pure (Nat.zero_le _)

/-! ## Blocks -/

theorem blockStatement (terminators : List Mark) (found : List Statement) :
    Parser.Unaware w 1 (fun _ => 1) (g.blockStatement terminators found) where
  passes hp ht := by
    obtain ⟨st, hst, -, -⟩ := blockStatement_clean hp ht
    exact h.statement.passes hst ht
  alike {c} found' t hp ht hlen := by
    obtain ⟨st, hst, rfl, hended⟩ := blockStatement_clean hp ht
    have hroom : w.left.length + w.behind st ≤ t.rest.length :=
      Nat.le_trans (Nat.add_le_add_left (w.behind_le st) _) hlen
    obtain ⟨u, rfl, hi, hright⟩ := h.statement.alike hst ht hroom
    have hne : u.rest ≠ [] := by
      intro hnil
      have hlen : w.left.length + 1 ≤ (u.rest ++ w.left).length := hlen
      rw [hnil, List.nil_append] at hlen
      omega
    rw [Cursor.peek_followedBy hne] at hended
    exact ⟨u, rfl, hi, blockStatement_ended hright hended⟩

theorem blockStep (terminators : List Mark) (found : List Statement) :
    Parser.Unaware w 1 (Sum.elim (fun _ => 1) fun _ => 1) (g.blockStep terminators found) := by
  rw [blockStep_eq]
  refine .bind (.skip _ (Nat.le_refl 1)) fun _ => .look fun t => ?_
  split
  · exact .pure (Nat.le_refl 1)
  · split
    · exact .leave _
    · exact .bind (h.blockStatement terminators found) fun _ => .pure (Nat.le_refl 1)

omit h in
theorem spanned {statements : Parser (List Statement)}
    (hs : Parser.Unaware w 1 (fun _ => 1) statements) :
    Parser.Unaware w 1 (fun _ => 1) (Grammar.spanned statements) := by
  rw [Grammar.spanned, here_bind]
  exact .look fun t => .bind hs fun _ => .bind (.locationFrom _ fun _ => Nat.le_refl 1) fun _ =>
    .pure (Nat.le_refl 1)

theorem block (terminators : List Mark) :
    Parser.Unaware w 1 (fun _ => 1) (g.block n terminators) :=
  spanned (.iterate (h.blockStep terminators) _ _)

/-! ## Procedures -/

theorem parameter : Parser.Unaware w 1 (fun _ => 1) g.parameter := by
  have hkind (name : Identifier) (default? : Option Expr) :
      Parser.Unaware w 1 (fun _ => 1)
        (Parser.accept .asWord >>= fun b => if b = true then
          Grammar.typeName >>= fun kind => pure (⟨name, kind, default?⟩ : Parameter)
        else pure ⟨name, (name.designator?.map Kind.ofDesignator).getD .dynamic, default?⟩) :=
    .lookAccept (.bind .typeName fun _ => .pure (Nat.le_refl 1)) (.pure (Nat.le_refl 1))
  refine .bind (.expectIdentifier _) fun name => .lookAccept (j := 1) ?_ (hkind name none)
  exact .bind (.map h.any fun _ => Nat.le_refl 1) fun default? => hkind name default?

theorem parameterStep (found : List Parameter) :
    Parser.Unaware w 1 (Sum.elim (fun _ => 1) fun _ => 1) (g.parameterStep found) :=
  .bind h.parameter fun _ => .lookAccept (.pure (Nat.le_refl 1)) (.pure (Nat.le_refl 1))

theorem parameters : Parser.Unaware w 1 (fun _ => 1) (g.parameters n) :=
  .lookCheck (.pure (Nat.le_refl 1)) (.iterate h.parameterStep _ _)

theorem procedureRest (name : String) (isSub : Bool) (start : Location) {k : Procedure → Nat} :
    Parser.Unaware w 1 k (g.procedureRest n name isSub start) := by
  have hbody (ps : List Parameter) (returns : Kind) (terminator : Mark) :
      Parser.Unaware w 1 k
        (g.block n [terminator] >>= fun body => Parser.expect terminator >>= fun _ =>
          Parser.locationFrom start >>= fun l => pure ⟨name, ps, returns, isSub, body, l⟩) :=
    .bind (h.block _) fun _ => .bind .expect fun _ =>
      .bind (.locationFrom start fun _ => Nat.le_refl 0) fun _ => .pure (Nat.zero_le _)
  refine .bind .expect fun _ => .bind h.parameters fun ps => .bind .expect fun _ =>
    .lookAccept (.bind .typeName fun returns => hbody ps returns _) (hbody ps _ _)

theorem unnamedProcedure : Parser.Unaware w 1 k (g.unnamedProcedure n) :=
  .bind .advance fun _ => .bind (.nextUnnamed fun _ => Nat.le_refl 1) fun _ =>
    .bind (h.procedureRest _ _ _) fun _ => .pure (Nat.zero_le _)

/-! ## Operands -/

theorem grouping : Parser.Unaware w 1 k g.grouping :=
  .bind .advance fun _ => .bind (.skip _ (Nat.le_refl 1)) fun _ => .bind h.any fun _ =>
    .bind (.skip _ (Nat.le_refl 1)) fun _ => .bind .expect fun _ => .pure (Nat.zero_le _)

theorem primary : Parser.Unaware w 1 k (g.primary n) := by
  refine .look fun t => ?_
  obtain ⟨kind, location⟩ := t
  have hliteral (value : Literal) : Parser.Unaware w 1 k
      (Parser.advance >>= fun _ => pure (.literal value location)) :=
    .bind .advance fun _ => .pure (Nat.zero_le _)
  cases kind with
  | identifier name => exact .bind .advance fun _ => .pure (Nat.zero_le _)
  | mark m =>
    cases m with
    | leftParen => exact h.grouping
    | leftBracket => exact h.arrayLiteral
    | leftBrace => exact h.assocLiteral
    | functionWord | subWord => exact h.unnamedProcedure
    | trueWord | falseWord | invalidWord => exact hliteral _
    | _ => exact .failHere _
  | _ => exact hliteral _

/-- A chain ends at any mark that may stand at a fork. -/
theorem link (e : Expr) :
    Parser.Unaware w 0 (Sum.elim (fun _ => 0) fun _ => 0) (g.link n e) := by
  refine .glance (fun kind => ?_) fun kind hkind => ?_
  · split
    · exact .anywhere (.bind .advance fun _ => .bind (h.expressionList _) fun _ =>
        .pure (Nat.le_refl 0))
    split
    · exact .anywhere (.bind .advance fun _ => .bind .expectMemberName fun _ =>
        .pure (Nat.le_refl 0))
    split
    · exact .anywhere (.bind .advance fun _ => .bind (h.expressionList _) fun _ =>
        .pure (Nat.le_refl 0))
    split
    · exact .anywhere (.bind .advance fun _ => .bind .expectMemberName fun _ =>
        .pure (Nat.le_refl 0))
    · exact .pure (Nat.le_refl 0)
  · rcases TokenKind.closes_iff.1 hkind with rfl | rfl | rfl | rfl | rfl | rfl | rfl <;> rfl

theorem chain : Parser.Unaware w 1 k (g.chain n) :=
  .mono (.bind (j := 0) h.primary fun _ => .iterate (k := fun _ => 0) h.link _ _) (Nat.le_refl 1)
    fun _ => Nat.zero_le _

theorem exponent : Parser.Unaware w 1 k (g.exponent n) :=
  .lookCheck (.bind .advance fun _ => .bind h.chain fun _ => .pure (Nat.zero_le _)) h.chain

theorem powerStep (left : Expr) :
    Parser.Unaware w 0 (Sum.elim (fun _ => 0) fun _ => 0) (g.powerStep n left) :=
  .ifAccept rfl (Nat.zero_le 1) (.bind h.exponent fun _ => .pure (Nat.le_refl 0))
    (.pure (Nat.le_refl 0))

theorem power : Parser.Unaware w 1 k (g.power n) :=
  .mono (.bind (j := 0) h.chain fun _ => .iterate (k := fun _ => 0) h.powerStep _ _) (Nat.le_refl 1)
    fun _ => Nat.zero_le _

/-! ## Operators -/

theorem signedRule : Parser.Unaware w 1 k (g.signedRule n) := by
  refine .lookKind fun kind => ?_
  cases Grammar.sign? kind with
  | some op => exact .bind .advance fun _ => .bind h.signed fun _ => .pure (Nat.zero_le _)
  | none => exact h.power

theorem operand : Parser.Unaware w 1 k (g.operand n) :=
  .lookCheck (.bind .advance fun _ => .bind (h.expression _) fun _ => .pure (Nat.zero_le _))
    h.signedRule

/-- Operators end at any mark that may stand at a fork. -/
theorem operation (least : Nat) (left : Expr) :
    Parser.Unaware w 0 (Sum.elim (fun _ => 0) fun _ => 0) (g.operation least left) := by
  refine .glance (fun kind => ?_) fun kind hkind => ?_
  · cases Grammar.operator? kind with
    | some op =>
      obtain ⟨op, strength⟩ := op
      by_cases hlt : strength < least
      · simp only [if_pos hlt]
        exact .pure (Nat.le_refl 0)
      · simp only [if_neg hlt]
        exact .anywhere (.bind .advance fun _ => .bind (h.expression _) fun _ =>
          .pure (Nat.le_refl 0))
    | none => exact .pure (Nat.le_refl 0)
  · rcases TokenKind.closes_iff.1 hkind with rfl | rfl | rfl | rfl | rfl | rfl | rfl <;> rfl

theorem expressionRule (least : Nat) :
    Parser.Unaware w 1 (fun _ => 0) (g.expressionRule n least) :=
  .bind (j := 0) h.operand fun _ => .iterate (k := fun _ => 0) (h.operation least) _ _

end Grammar.Unaware

end BrightScript
