import BrightScript.Proofs.Placement

/-!
# Placement of expressions

`Yields` relates what a parser returns to the tokens it passes. For expressions the tokens have to
be known exactly, since their first and last one decide the location. For what only holds
expressions (lists, blocks, statements) it is enough that these are read from parts of the tokens,
and `Gathers` says so without speaking of how the parts are put together.
-/

namespace BrightScript

variable {before xs : List Token} {e left : Expr}

namespace Parser

variable {α β : Type}

/-- Every result of a parser stands in a relation to the tokens passed for it. -/
def Yields (c : Cursor) (R : List Token → α → Prop) (p : Parser α) : Prop :=
  c.final.kind.isEnd = true → ∀ a t, p c = .done a t → ∃ passed, c.Passes passed t ∧ R passed a

/-- The expression that a parser returns is read from the tokens passed for it. -/
abbrev Reads (c : Cursor) (p : Parser Expr) : Prop :=
  Yields c (fun xs e => e.ReadFrom xs) p

/-- A step of a loop goes on with an expression, or ends with one, that is read from all tokens so
far. -/
abbrev ReadsOn (before : List Token) (c : Cursor) (p : Parser (Expr ⊕ Expr)) : Prop :=
  Yields c (fun xs r => r.elim (·.ReadFrom (before ++ xs)) (·.ReadFrom (before ++ xs))) p

namespace Yields

variable {c : Cursor} {R : List Token → α → Prop} {S : List Token → β → Prop} {p : Parser α}
  {f : α → Parser β}

theorem mono {R' : List Token → α → Prop} (h : Yields c R p) (hR : ∀ xs a, R xs a → R' xs a) :
    Yields c R' p := by
  intro hf a t hp
  obtain ⟨passed, hpassed, ha⟩ := h hf a t hp
  exact ⟨passed, hpassed, hR _ _ ha⟩

theorem pure {a : α} (h : R [] a) : Yields c R (Pure.pure a : Parser α) := by
  rintro - _ _ ⟨⟩
  exact ⟨[], .refl c, h⟩

theorem leave (e : SyntaxError) : Yields c R (Routine.leave e : Parser α) := by
  rintro - _ _ ⟨⟩

theorem giveUp : Yields c R (Routine.giveUp : Parser α) := by
  rintro - _ _ ⟨⟩

theorem bind (hp : Yields c R p)
    (hf : ∀ t xs a, R xs a → Yields t (fun ys b => S (xs ++ ys) b) (f a)) :
    Yields c S (p >>= f) := by
  intro hfinal b u h
  obtain ⟨a, t, hpa, hfb⟩ := Routine.bind_eq_done.1 h
  obtain ⟨xs, hxs, ha⟩ := hp hfinal a t hpa
  obtain ⟨ys, hys, hb⟩ := hf t xs a ha (by rw [hxs.final, hfinal]) b u hfb
  exact ⟨xs ++ ys, hxs.trans hys, hb⟩

theorem view {v : Cursor → β} {f : β → Parser α} (h : Yields c R (f (v c))) :
    Yields c R (Routine.view v >>= f) :=
  h

theorem ite {b : Bool} {q : Parser α} (hp : b = true → Yields c R p)
    (hq : b = false → Yields c R q) : Yields c R (if b = true then p else q) := by
  cases b with
  | true => exact hp rfl
  | false => exact hq rfl

theorem advance (h : c.peek.kind.isEnd = false) :
    Yields c (fun xs t => xs = [t] ∧ t = c.peek) Parser.advance := by
  rintro hf _ _ ⟨⟩
  exact ⟨[c.peek], Cursor.passes_advance (Cursor.rest_ne_nil hf h), rfl, rfl⟩

theorem expect {m : Mark} (hm : m ≠ .endOfText) :
    Yields c (fun xs t => xs = [t]) (Parser.expect m) := by
  refine view (ite (fun hcheck => (advance ?_).mono fun _ _ h => h.1) fun _ => leave _)
  rw [TokenKind.is_iff.1 hcheck]
  simpa [TokenKind.isEnd, TokenKind.is] using hm

/-- A loop keeps a relation between the tokens passed so far and its variable. -/
theorem loop {step : β → Parser (β ⊕ α)} {I : List Token → β → Prop}
    (hstep : ∀ t before b, I before b →
      Yields t (fun xs r => r.elim (I (before ++ xs)) (R (before ++ xs))) (step b))
    (budget : Nat) (before : List Token) {b : β} (hb : I before b) :
    Yields c (fun xs a => R (before ++ xs) a) (Routine.iterate step budget b) := by
  induction budget generalizing c before b with
  | zero => exact giveUp
  | succ budget ih =>
    rw [Routine.iterate_succ_eq]
    refine (hstep c before b hb).bind fun t xs r hr => ?_
    simp only [← List.append_assoc]
    cases r with
    | inl b' => exact ih _ hr
    | inr a => exact pure (by rwa [List.append_nil])

end Yields

/-- Every result of a parser stands in a relation to the tokens passed for it and to all longer runs
of tokens. -/
def Gathers (c : Cursor) (S : List Token → α → Prop) (p : Parser α) : Prop :=
  Yields c (fun xs a => ∀ tokens, xs <:+: tokens → S tokens a) p

/-- A parser passes tokens, whatever it returns. -/
abbrev Skips (c : Cursor) (p : Parser α) : Prop :=
  Gathers c (fun _ _ => True) p

/-- The expressions in what a parser returns stand within the tokens passed for it. -/
abbrev Holds (c : Cursor) (parts : α → List Expr) (p : Parser α) : Prop :=
  Gathers c (fun tokens a => Expr.AllIn tokens (parts a)) p

/-- A step of a loop keeps expressions within the tokens passed so far. -/
abbrev HoldsOn (c : Cursor) (parts : α → List Expr) (found : α) (p : Parser (α ⊕ α)) : Prop :=
  Gathers c (fun tokens r => Expr.AllIn tokens (parts found) →
    r.elim (Expr.AllIn tokens <| parts ·) (Expr.AllIn tokens <| parts ·)) p

namespace Gathers

variable {c : Cursor} {R : List Token → α → Prop} {S : List Token → β → Prop} {p : Parser α}
  {f : α → Parser β}

theorem pure {a : α} (h : ∀ tokens, R tokens a) : Gathers c R (Pure.pure a : Parser α) :=
  Yields.pure fun tokens _ => h tokens

/-- Expressions that stand within some tokens stand within all longer runs of tokens. -/
theorem of_yields {f : α → List Expr} (h : Yields c (fun xs a => Expr.AllIn xs (f a)) p) :
    Gathers c (fun tokens a => Expr.AllIn tokens (f a)) p :=
  h.mono fun _ _ ha _ hx => ha.mono hx

/-- What the parts of a sequence gather can be used where it ends. -/
theorem bind (hp : Gathers c R p)
    (hf : ∀ t a, Gathers t (fun tokens b => R tokens a → S tokens b) (f a)) :
    Gathers c S (p >>= f) := by
  refine Yields.bind hp fun t xs a ha => (hf t a).mono fun ys b hb tokens htokens => ?_
  exact hb tokens ((List.suffix_append xs ys).isInfix.trans htokens)
    (ha tokens ((List.prefix_append xs ys).isInfix.trans htokens))

theorem loop {step : β → Parser (β ⊕ α)} {I : List Token → β → Prop}
    (hstep : ∀ t b, Gathers t (fun tokens r => I tokens b → r.elim (I tokens) (R tokens)) (step b))
    (budget : Nat) (b : β) :
    Gathers c (fun tokens a => I tokens b → R tokens a) (Routine.iterate step budget b) := by
  let Kept (before : List Token) (b' : β) : Prop :=
    ∀ tokens, before <:+: tokens → I tokens b → I tokens b'
  refine Yields.loop (I := Kept)
    (R := fun before a => ∀ tokens, before <:+: tokens → I tokens b → R tokens a)
    (fun t before b' hb' => ?_) budget [] fun _ _ h => h
  refine (hstep t b').mono fun xs r hr => ?_
  have hused {tokens : List Token} (h : before ++ xs <:+: tokens) (hb : I tokens b) :
      r.elim (I tokens) (R tokens) :=
    hr tokens ((List.suffix_append before xs).isInfix.trans h)
      (hb' tokens ((List.prefix_append before xs).isInfix.trans h) hb)
  cases r with
  | inl | inr => exact fun tokens h hb => hused h hb

theorem advance : Skips c Parser.advance := by
  rintro - _ _ ⟨⟩
  obtain ⟨passed, hpassed⟩ := c.exists_passes_advance
  exact ⟨passed, hpassed, fun _ _ => trivial⟩

theorem skip (marks : List Mark) : Skips c (Parser.skip marks) := by
  rintro - _ _ ⟨⟩
  rw [Cursor.skip_eq]
  exact ⟨_, Cursor.passes_past _ c, fun _ _ => trivial⟩

theorem accept (m : Mark) : Skips c (Parser.accept m) := by
  rw [accept_eq]
  refine Yields.view (Yields.ite (fun _ => ?_) fun _ => pure fun _ => trivial)
  exact bind advance fun _ _ => pure fun _ _ => trivial

theorem skipLine : Skips c Parser.skipLine := by
  rintro - _ _ ⟨⟩
  obtain ⟨passed, hpassed⟩ := exists_passes_skipLine c
  exact ⟨passed, hpassed, fun _ _ => trivial⟩

theorem report (e : SyntaxError) : Skips c (Parser.report e) := by
  rintro - _ _ ⟨⟩
  exact ⟨[], c.passes_report e, fun _ _ => trivial⟩

/-- An attempt passes tokens also when it fails. -/
theorem attempt {k : α → Bool} (h : Gathers c R p) (hm : Moves .inside k p) :
    Gathers c (fun tokens r => ∀ a, r = .ok a → R tokens a) (Routine.attempt p) := by
  intro hf r t hr
  unfold Routine.attempt at hr
  cases hp : p c with
  | done a u =>
    rw [hp] at hr
    cases hr
    obtain ⟨passed, hpassed, ha⟩ := h hf a t hp
    refine ⟨passed, hpassed, fun tokens htokens a' ha' => ?_⟩
    cases ha'
    exact ha tokens htokens
  | exit e u =>
    rw [hp] at hr
    cases hr
    obtain ⟨passed, hpassed⟩ := hm.exit hf (Start.at_inside c) hp
    exact ⟨passed, hpassed, fun _ _ _ h => by cases h⟩
  | exhausted =>
    rw [hp] at hr
    cases hr

theorem map {f : α → β} (h : Gathers c (fun tokens a => S tokens (f a)) p) :
    Gathers c S (f <$> p) :=
  bind h fun _ _ => pure fun _ h => h

theorem past {x : Parser β} {f : β → Parser α} (hx : Skips c x)
    (hf : ∀ t b, Gathers t R (f b)) : Gathers c R (x >>= f) :=
  bind hx fun t b => (hf t b).mono fun _ _ h tokens htokens _ => h tokens htokens

theorem view {v : Cursor → β} {f : β → Parser α} (h : Gathers c R (f (v c))) :
    Gathers c R (Routine.view v >>= f) :=
  h

theorem ite {b : Bool} {q : Parser α} (hp : Gathers c R p) (hq : Gathers c R q) :
    Gathers c R (if b = true then p else q) :=
  Yields.ite (fun _ => hp) fun _ => hq

theorem leave (e : SyntaxError) : Gathers c R (Routine.leave e : Parser α) :=
  Yields.leave e

theorem loopFrom {step : β → Parser (β ⊕ α)} {I : List Token → β → Prop} {b : β}
    (hb : ∀ tokens, I tokens b)
    (hstep : ∀ t b, Gathers t (fun tokens r => I tokens b → r.elim (I tokens) (R tokens)) (step b))
    (budget : Nat) : Gathers c R (Routine.iterate step budget b) :=
  (loop hstep budget b).mono fun _ _ h tokens htokens => h tokens htokens (hb tokens)

theorem expect (m : Mark) : Skips c (Parser.expect m) :=
  view (ite advance (leave _))

theorem expectIdentifier (message : String) : Skips c (Parser.expectIdentifier message) := by
  refine view ?_
  split
  · exact past advance fun _ _ => pure fun _ => trivial
  · exact leave _

theorem expectMemberName : Skips c Parser.expectMemberName := by
  refine view ?_
  split
  · exact past advance fun _ _ => pure fun _ => trivial
  · exact leave _

theorem expectString (message : String) : Skips c (Parser.expectString message) := by
  refine view ?_
  split
  · exact past advance fun _ _ => pure fun _ => trivial
  · exact leave _

theorem memberKey : Skips c Grammar.memberKey := by
  refine view ?_
  split
  · exact past advance fun _ _ => pure fun _ => trivial
  · exact past expectMemberName fun _ _ => pure fun _ => trivial

theorem typeName : Skips c Grammar.typeName := by
  refine past advance fun _ _ => ?_
  split
  · exact pure fun _ => trivial
  · exact leave _

end Gathers

theorem Yields.past {c : Cursor} {R : List Token → α → Prop} {x : Parser β} {f : β → Parser α}
    (hx : Skips c x)
    (hf : ∀ t xs b, Yields t (fun ys a => R (xs ++ ys) a) (f b)) : Yields c R (x >>= f) :=
  .bind hx fun t xs b _ => hf t xs b

end Parser

namespace Grammar

open BrightScript.Parser

/-- The nested parsers of a grammar read expressions from the tokens they pass. -/
structure Places (g : Grammar) : Prop where
  expression : ∀ c least, Reads c (g.expression least)
  signed : ∀ c, Reads c g.signed
  statement : ∀ c, Holds c Statement.expressions g.statement
  moves : Moves .inside always g.statement

namespace Places

variable {g : Grammar} (h : g.Places) (c : Cursor) (budget : Nat)
include h

theorem any : Reads c g.any :=
  h.expression c _

theorem anyIn : Gathers c (fun tokens e => e.ReadIn tokens) g.any :=
  (h.any c).mono fun _ _ he _ hx => he.readIn.mono hx

theorem optionIn : Gathers c (fun tokens e? => Expr.AllIn tokens e?.toList) (some <$> g.any) :=
  .map ((h.anyIn c).mono fun _ _ he tokens hx => by simpa using he tokens hx)

/-! ## Lists -/

theorem arrayStep (found : List Expr) : HoldsOn c id found (g.arrayStep found) := by
  refine .past (.skip _) fun t _ => .view (.ite (.pure fun tokens => ?_) ?_)
  · simp
  · refine .bind (h.anyIn t) fun _ e => .pure fun tokens he hfound => ?_
    exact Expr.allIn_cons.2 ⟨he, hfound⟩

theorem assocStep (found : List Member) :
    HoldsOn c (List.map Member.value) found (g.assocStep found) := by
  refine .past (.skip _) fun t _ => .view (.ite (.pure fun tokens => ?_) ?_)
  · simp
  · refine .past .memberKey fun _ _ => .past (.expect _) fun _ _ => .past (.skip _) fun t _ => ?_
    refine .bind (h.anyIn t) fun _ e => .pure fun tokens he hfound => ?_
    exact Expr.allIn_cons.2 ⟨he, hfound⟩

/-- Expressions up to a closing bracket, which is the last token. -/
def Closed (xs : List Token) (r : List Expr × Location) : Prop :=
  ∃ ys last, xs = ys ++ [last] ∧ r.2 = last.location ∧ Expr.AllIn ys r.1

theorem expressionStep {closing : Mark} (hc : closing ≠ .endOfText) {found : List Expr}
    (hfound : Expr.AllIn before found) :
    Yields c (fun xs r => r.elim (Expr.AllIn (before ++ xs)) (Closed (before ++ xs)))
      (g.expressionStep closing found) := by
  refine .past (.skip _) fun t xs _ => .bind (h.any t) fun _ ys e he =>
    .past (.skip _) fun _ zs _ => .past (.accept _) fun _ ws b => ?_
  have hall : Expr.AllIn (before ++ (xs ++ (ys ++ (zs ++ ws)))) (e :: found) :=
    Expr.allIn_cons.2 ⟨he.readIn.left.right.right, hfound.left⟩
  refine .ite (fun _ => .pure ?_) fun _ => .bind (.expect hc) fun _ vs bracket hv => .pure ?_
  · simpa using hall
  · subst hv
    refine ⟨_, bracket, ?_, rfl, Expr.allIn_reverse.2 hall⟩
    simp

theorem expressionList {closing : Mark} (hc : closing ≠ .endOfText) :
    Yields c Closed (g.expressionList budget closing) := by
  refine .past (.skip _) fun t xs _ => .view (.ite (fun hcheck => ?_) fun _ => ?_)
  · have hend : t.peek.kind.isEnd = false := by
      rw [TokenKind.is_iff.1 hcheck]
      simpa [TokenKind.isEnd, TokenKind.is] using hc
    refine .bind (.advance hend) fun _ ys bracket hy => .pure ⟨xs, bracket, ?_, rfl, by simp⟩
    rw [hy.1, List.append_nil]
  · refine .loop (I := Expr.AllIn) (fun u before found hfound => ?_) budget xs (by simp)
    exact h.expressionStep u hc hfound

/-! ## Procedures -/

theorem parameter : Holds c Parameter.expressions g.parameter := by
  have hkind (t : Cursor) (name : Identifier) (default? : Option Expr) :
      Gathers t (fun tokens (p : Parameter) => Expr.AllIn tokens default?.toList →
          Expr.AllIn tokens p.expressions)
        (Parser.accept .asWord >>= fun b => if b = true then
          Grammar.typeName >>= fun kind => pure ⟨name, kind, default?⟩
        else pure ⟨name, (name.designator?.map Kind.ofDesignator).getD .dynamic, default?⟩) := by
    refine .past (.accept _) fun _ _ => .ite (.past .typeName fun _ _ => ?_) ?_
    · exact .pure fun _ h => h
    · exact .pure fun _ h => h
  refine .past (.expectIdentifier _) fun _ name => .past (.accept _) fun t b => .ite ?_ ?_
  · exact .bind (h.optionIn t) fun u default? => hkind u name default?
  · exact (hkind t name none).mono fun _ _ hp tokens hx => hp tokens hx (by simp)

theorem parameterStep (found : List Parameter) :
    HoldsOn c (List.flatMap Parameter.expressions) found (g.parameterStep found) := by
  refine .bind (h.parameter c) fun _ p => .past (.accept _) fun _ _ => .ite ?_ ?_
  · exact .pure fun tokens hp hfound => by simp [hp, hfound]
  · exact .pure fun tokens hp hfound => by simp [hp, hfound]

theorem parameters : Holds c (List.flatMap Parameter.expressions) (g.parameters budget) :=
  .view (.ite (.pure fun _ => by simp)
    (.loopFrom (fun _ => by simp) (fun t found => h.parameterStep t found) budget))

theorem blockStatement (terminators : List Mark) (found : List Statement) :
    Gathers c (fun tokens r => Expr.AllIn tokens (found.flatMap Statement.expressions) →
        Expr.AllIn tokens (r.flatMap Statement.expressions))
      (g.blockStatement terminators found) := by
  refine .bind (.attempt (h.statement c) h.moves) fun t r => ?_
  cases r with
  | ok statement =>
    have hdone (t : Cursor) : Gathers t (fun tokens (r : List Statement) =>
        (∀ a, Except.ok (ε := SyntaxError) statement = .ok a → Expr.AllIn tokens a.expressions) →
          Expr.AllIn tokens (found.flatMap Statement.expressions) →
          Expr.AllIn tokens (r.flatMap Statement.expressions)) (pure (statement :: found)) :=
      .pure fun tokens hst hfound => by simp [hst statement rfl, hfound]
    refine .view (.ite (.view (.past (.report _) fun _ _ => .past .skipLine fun u _ => ?_)) ?_)
    · exact hdone u
    · exact hdone t
  | error e =>
    refine .past (.report e) fun _ _ => .past .skipLine fun _ _ => ?_
    exact .pure fun tokens _ hfound => hfound

theorem blockStep (terminators : List Mark) (found : List Statement) :
    HoldsOn c (List.flatMap Statement.expressions) found (g.blockStep terminators found) := by
  rw [blockStep_eq]
  refine .past (.skip _) fun t _ => .view (.ite (.pure fun _ => by simp) (.ite (.leave _) ?_))
  refine .bind (h.blockStatement t terminators found) fun _ _ => .pure fun _ hr hfound => ?_
  exact hr hfound

omit h in
theorem spanned {statements : Parser (List Statement)}
    (hs : ∀ t, Holds t (List.flatMap Statement.expressions)
      statements) :
    Holds c Block.expressions (Grammar.spanned statements) :=
  .view (.bind (hs c) fun _ found => .view (.pure fun _ hfound => by
    rwa [Block.expressions, Statement.allExpressions_eq]))

theorem block (terminators : List Mark) : Holds c Block.expressions (g.block budget terminators) :=
  spanned c fun _ => .loopFrom (fun _ => by simp) (fun t => h.blockStep t terminators) budget

theorem procedureRest_parts (name : String) (isSub : Bool) (start : Location) :
    Yields c (fun xs p => xs ≠ [] ∧ Expr.AllIn xs p.expressions)
      (g.procedureRest budget name isSub start) := by
  have hbody (t : Cursor) (ps : List Parameter) (returns : Kind) (terminator : Mark) :
      Gathers t (fun tokens (p : Procedure) =>
          Expr.AllIn tokens (ps.flatMap Parameter.expressions) → Expr.AllIn tokens p.expressions)
        (g.block budget [terminator] >>= fun body => Parser.expect terminator >>= fun _ =>
          Parser.locationFrom start >>= fun l =>
            pure ⟨name, ps, returns, isSub, body, l⟩) := by
    refine .bind (h.block t budget _) fun _ body => .past (.expect _) fun _ _ => .view ?_
    exact .pure fun tokens hbody hps => Expr.allIn_append.2 ⟨hps, hbody⟩
  refine .bind (.expect (by decide)) fun t xs token hx => ?_
  subst hx
  refine Yields.mono (R := fun ys p => ∀ tokens, ys <:+: tokens → Expr.AllIn tokens p.expressions)
    ?_ fun ys p hp => ⟨by simp, hp _ (List.suffix_append ..).isInfix⟩
  refine Gathers.bind (h.parameters t budget) fun _ ps => .past (.expect _) fun _ _ =>
    .past (.accept _) fun u b => .ite (.past .typeName fun v returns => ?_) ?_
  · exact hbody v ps returns _
  · exact hbody u ps _ _

omit h in
theorem procedureRest_location {name : String} {isSub : Bool} {start : Location} {p : Procedure}
    {t : Cursor} (hp : g.procedureRest budget name isSub start c = .done p t) :
    p.location = t.locationFrom start := by
  have hbody {ps : List Parameter} {returns : Kind} {terminator : Mark} {u : Cursor}
      (hp : (g.block budget [terminator] >>= fun body => Parser.expect terminator >>= fun _ =>
        Parser.locationFrom start >>= fun l =>
          pure ⟨name, ps, returns, isSub, body, l⟩) u = .done p t) :
      p.location = t.locationFrom start := by
    obtain ⟨_, _, -, hp⟩ := Routine.bind_eq_done.1 hp
    obtain ⟨_, _, -, hp⟩ := Routine.bind_eq_done.1 hp
    cases hp
    rfl
  obtain ⟨_, _, -, hp⟩ := Routine.bind_eq_done.1 hp
  obtain ⟨_, _, -, hp⟩ := Routine.bind_eq_done.1 hp
  obtain ⟨_, _, -, hp⟩ := Routine.bind_eq_done.1 hp
  obtain ⟨b, _, -, hp⟩ := Routine.bind_eq_done.1 hp
  cases b with
  | true =>
    obtain ⟨_, _, -, hp⟩ := Routine.bind_eq_done.1 hp
    exact hbody hp
  | false => exact hbody hp

theorem procedureRest (name : String) (isSub : Bool) (token : Token) :
    Yields c (fun xs p => p.location.Spans (token :: xs) ∧ Expr.AllIn xs p.expressions)
      (g.procedureRest budget name isSub token.location) := by
  intro hf p t hp
  obtain ⟨passed, hpassed, hne, hall⟩ :=
    h.procedureRest_parts c budget name isSub token.location hf p t hp
  have hlast := List.getLast?_eq_some_getLast hne
  refine ⟨passed, hpassed, fun _ => ⟨token, passed.getLast hne, rfl, ?_, ?_⟩, hall⟩
  · rw [List.getLast?_cons, hlast, Option.getD_some]
  · rw [procedureRest_location c budget hp, Cursor.locationFrom, hpassed.previous, hlast]
    rfl

theorem unnamedProcedure (hc : c.peek.kind.isEnd = false) :
    Reads c (g.unnamedProcedure budget) := by
  have hnumber (t : Cursor) : Yields t (fun xs _ => xs = []) nextUnnamed := by
    rintro - _ _ ⟨⟩
    exact ⟨[], ⟨rfl, rfl, rfl, List.suffix_rfl⟩, rfl⟩
  refine .bind (.advance hc) fun t xs token hx => .bind (hnumber t) fun u ys number hy => ?_
  obtain ⟨rfl, -⟩ := hx
  subst hy
  refine .bind (h.procedureRest u budget _ _ token) fun _ zs p hp => .pure ?_
  rw [List.append_nil]
  exact .node hp.1 (hp.2.mono (List.suffix_cons ..).isInfix)

/-! ## Phrases with brackets -/

omit h in
theorem bracketed {opening closing : Token}
    (hlocation : e.location = opening.location.union closing.location)
    (hchildren : Expr.AllIn xs e.children) : e.ReadFrom ([opening] ++ (xs ++ [closing])) :=
  .joined xs (Location.spans_token opening) (Location.spans_token closing) hlocation
    hchildren.left.right

theorem grouping (hc : c.peek.kind.isEnd = false) : Reads c g.grouping := by
  refine .bind (.advance hc) fun t xs opening hx => .past (.skip _) fun u before _ =>
    .bind (h.any u) fun v middle e he => .past (.skip _) fun _ after _ =>
    .bind (.expect (by decide)) fun _ zs closing hz => .pure ?_
  obtain ⟨rfl, -⟩ := hx
  subst hz
  have hinner : Expr.AllIn (before ++ (middle ++ after)) [e] := by
    simpa using he.readIn.left.right
  simpa using bracketed (e := .grouping e (opening.location.union closing.location)) rfl hinner

theorem arrayLiteral (hc : c.peek.kind.isEnd = false) : Reads c (g.arrayLiteral budget) := by
  refine .bind (.advance hc) fun t xs opening hx =>
    .bind (Gathers.loopFrom (fun _ => by simp) h.arrayStep budget) fun _ ys elements hy =>
    .bind (.expect (by decide)) fun _ zs closing hz => .pure ?_
  obtain ⟨rfl, -⟩ := hx
  subst hz
  exact bracketed rfl (hy ys List.infix_rfl)

theorem assocLiteral (hc : c.peek.kind.isEnd = false) : Reads c (g.assocLiteral budget) := by
  refine .bind (.advance hc) fun t xs opening hx =>
    .bind (Gathers.loopFrom (fun _ => by simp) h.assocStep budget) fun _ ys members hy =>
    .bind (.expect (by decide)) fun _ zs closing hz => .pure ?_
  obtain ⟨rfl, -⟩ := hx
  subst hz
  exact bracketed rfl (hy ys List.infix_rfl)

omit h in
theorem token (make : Location → Expr) (hlocation : ∀ l, (make l).location = l)
    (hchildren : ∀ l, (make l).children = []) (hc : c.peek.kind.isEnd = false) :
    Reads c (Parser.advance >>= fun _ => pure (make c.peek.location)) := by
  refine .bind (.advance hc) fun _ xs t hx => .pure ?_
  obtain ⟨rfl, rfl⟩ := hx
  refine .node ?_ (by simp [hchildren])
  rw [hlocation]
  exact Location.spans_token _

theorem primary : Reads c (g.primary budget) := by
  refine .view ?_
  split
  · next name hkind =>
    exact token c (fun l => .reference ⟨name, l⟩) (fun _ => rfl) (fun _ => rfl)
      (by rw [hkind]; rfl)
  · next hkind => exact h.grouping c (by rw [hkind]; rfl)
  · next hkind => exact h.arrayLiteral c budget (by rw [hkind]; rfl)
  · next hkind => exact h.assocLiteral c budget (by rw [hkind]; rfl)
  · next hkind => exact h.unnamedProcedure c budget (by rw [hkind]; rfl)
  · next hkind => exact h.unnamedProcedure c budget (by rw [hkind]; rfl)
  · split
    · next value hvalue =>
      refine token c (.literal value) (fun _ => rfl) (fun _ => rfl) ?_
      rw [Bool.eq_false_iff]
      intro hend
      rw [TokenKind.is_iff.1 hend] at hvalue
      cases hvalue
    · exact .leave _

/-! ## Chains and operators -/

omit h in
theorem expectMemberName :
    Yields c (fun xs name => ∃ t : Token, xs = [t] ∧ name.location = t.location)
      Parser.expectMemberName := by
  refine .view ?_
  split
  · next name hname =>
    have hend := (TokenKind.isPlain_iff.1 (TokenKind.isPlain_of_memberName hname)).1
    exact .bind (.advance hend) fun _ xs t hx => .pure ⟨t, by rw [hx.1]; rfl, rfl⟩
  · exact .leave _

omit h in
/-- An expression behind which more tokens are read up to `last`. -/
theorem longer {e' : Expr} {last : Token} {es : List Expr} (he : e.ReadFrom before)
    (hlocation : e'.location = e.location.union last.location) (hchildren : e'.children = e :: es)
    (hes : Expr.AllIn xs es) : e'.ReadFrom (before ++ (xs ++ [last])) := by
  refine .joined _ he.spans (Location.spans_token last) hlocation ?_
  rw [hchildren, Expr.allIn_cons]
  exact ⟨he.readIn.left, hes.left.right⟩

/-- What opens a link of a chain is of no account; the token that ends it ends the expression. -/
theorem link (he : e.ReadFrom before) : ReadsOn before c (g.link budget e) := by
  refine .view (.ite (fun _ => ?_) fun _ => .ite (fun _ => ?_) fun _ =>
    .ite (fun _ => ?_) fun _ => .ite (fun _ => ?_) fun _ => ?_)
  · refine .past .advance fun t xs _ => .bind (h.expressionList t budget (by decide))
      fun _ _ r hr => ?_
    obtain ⟨ys, last, rfl, hlast, hargs⟩ := hr
    obtain ⟨args, closing⟩ := r
    subst hlast
    refine .pure ?_
    rw [List.append_nil, ← List.append_assoc xs]
    exact longer he rfl rfl hargs.right
  · refine .past .advance fun t xs _ => .bind (expectMemberName t) fun _ _ name hname => .pure ?_
    obtain ⟨last, rfl, hlast⟩ := hname
    rw [List.append_nil]
    exact longer he (congrArg e.location.union hlast) rfl Expr.allIn_nil
  · refine .past .advance fun t xs _ => .bind (h.expressionList t budget (by decide))
      fun _ _ r hr => ?_
    obtain ⟨ys, last, rfl, hlast, hindexes⟩ := hr
    obtain ⟨indexes, closing⟩ := r
    subst hlast
    refine .pure ?_
    rw [List.append_nil, ← List.append_assoc xs]
    exact longer he rfl rfl hindexes.right
  · refine .past .advance fun t xs _ => .bind (expectMemberName t) fun _ _ name hname => .pure ?_
    obtain ⟨last, rfl, hlast⟩ := hname
    rw [List.append_nil]
    exact longer he (congrArg e.location.union hlast) rfl Expr.allIn_nil
  · exact .pure (by simpa using he)

theorem chain : Reads c (g.chain budget) :=
  .bind (h.primary c budget) fun _ xs _ hfirst =>
    .loop (I := fun xs e => e.ReadFrom xs) (fun t _ _ he => h.link t budget he) budget xs hfirst

omit h in
theorem unary {op : UnaryOp} {p : Parser Expr} (hc : c.peek.kind.isEnd = false)
    (hp : ∀ t, Reads t p) :
    Reads c (Parser.advance >>= fun t => p >>= fun e =>
      pure (.unary op e (t.location.union e.location))) := by
  refine .bind (.advance hc) fun t xs token hx => .bind (hp t) fun _ ys e he => .pure ?_
  obtain ⟨rfl, -⟩ := hx
  rw [List.append_nil]
  exact .joined [] (Location.spans_token token) he.spans rfl
    (Expr.allIn_cons.2 ⟨he.readIn.right, Expr.allIn_nil⟩)

omit h in
theorem binary {op : BinaryOp} {right : Expr} {ys zs : List Token} (hleft : left.ReadFrom xs)
    (hright : right.ReadFrom zs) :
    (Expr.binary left op right (left.location.union right.location)).ReadFrom
      (xs ++ (ys ++ zs)) := by
  refine .joined ys hleft.spans hright.spans rfl ?_
  exact Expr.allIn_cons.2 ⟨hleft.readIn.left, Expr.allIn_cons.2
    ⟨hright.readIn.right.right, Expr.allIn_nil⟩⟩

theorem exponent : Reads c (g.exponent budget) := by
  refine .view (.ite (fun hminus => ?_) fun _ => h.chain c budget)
  refine unary c ?_ fun t => h.chain t budget
  rw [TokenKind.is_iff.1 hminus]
  rfl

theorem powerStep (hleft : left.ReadFrom before) : ReadsOn before c (g.powerStep budget left) := by
  rw [Grammar.powerStep, accept_bind]
  refine .view (.ite (fun _ => ?_) fun _ => .pure (by simpa using hleft))
  refine .past .advance fun t xs _ => .bind (h.exponent t budget) fun _ ys right hright => .pure ?_
  rw [List.append_nil]
  exact binary hleft hright

theorem power : Reads c (g.power budget) :=
  .bind (h.chain c budget) fun _ xs _ hfirst =>
    .loop (I := fun xs e => e.ReadFrom xs) (fun t _ _ he => h.powerStep t budget he) budget xs
      hfirst

theorem signedRule : Reads c (g.signedRule budget) := by
  refine .view ?_
  split
  · next op hop => exact unary c (TokenKind.isPlain_iff.1 (isPlain_of_sign hop)).1 h.signed
  · exact h.power c budget

theorem operand : Reads c (g.operand budget) := by
  refine .view (.ite (fun hnot => ?_) fun _ => h.signedRule c budget)
  refine unary c ?_ fun t => h.expression t _
  rw [TokenKind.is_iff.1 hnot]
  rfl

theorem operation (least : Nat) (hleft : left.ReadFrom before) :
    ReadsOn before c (g.operation least left) := by
  have hstop (t : Cursor) : ReadsOn before t (pure (.inr left) : Parser (Expr ⊕ Expr)) :=
    .pure (by simpa using hleft)
  refine .view ?_
  split
  · split
    · exact hstop c
    · refine .past .advance fun t xs _ => .bind (h.expression t _) fun _ ys right hright => .pure ?_
      rw [List.append_nil]
      exact binary hleft hright
  · exact hstop c

theorem expressionRule (least : Nat) : Reads c (g.expressionRule budget least) :=
  .bind (h.operand c budget) fun _ xs _ hfirst =>
    .loop (I := fun xs e => e.ReadFrom xs) (fun t _ _ he => h.operation t least he) budget xs
      hfirst

end Places

end Grammar

end BrightScript
