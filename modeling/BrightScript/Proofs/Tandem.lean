import BrightScript.Proofs.Seam

/-!
# Parsers in tandem

All facts about the parsers of the grammar are proved in one walk over its rules. `Tandem` joins what
is known of two parsers that are one rule with different budgets: the first one moves forward
(`Moves`), the second follows it at another place (`Follows`), neither depends on the token before
the start (`Forgets`), and the second reads a longer text as the first one does (`Shadows`).

The lemmas below build such pairs from smaller ones. A rule is entered anywhere, and everything after
its first token is inside, where there is room for the rules nested in it.
-/

namespace BrightScript.Parser

variable {α β : Type} {w : Seam} {n n' : Nat} {s : Start} {k : α → Bool} {φ : α → α}
  {p p' : Parser α}

/-! ## Parsers as they look at tokens -/

theorem here_bind (f : Location → Parser α) : here >>= f = peek >>= fun t => f t.location :=
  rfl

theorem check_bind (m : Mark) (f : Bool → Parser α) :
    check m >>= f = peekKind >>= fun kind => f (kind.is m) :=
  rfl

theorem checkAny_bind (marks : List Mark) (f : Bool → Parser α) :
    checkAny marks >>= f = peekKind >>= fun kind => f (kind.isOneOf marks) :=
  rfl

theorem advance_bind (f : Token → Parser α) :
    advance >>= f = peek >>= fun t => advance >>= fun _ => f t :=
  rfl

theorem accept_eq (m : Mark) :
    accept m = check m >>= fun b =>
      if b = true then advance >>= fun _ => pure true else pure false := by
  funext c
  show accept m c =
    (if c.peek.kind.is m = true then advance >>= fun _ => pure true else pure false : Parser Bool) c
  rw [accept, Routine.change]
  cases c.peek.kind.is m <;> rfl

theorem accept_bind (m : Mark) (x y : Parser α) :
    (accept m >>= fun b => if b = true then x else y) =
      check m >>= fun b => if b = true then advance >>= fun _ => x else y := by
  funext c
  rw [accept_eq, bind_assoc, check_bind]
  show ((if c.peek.kind.is m = true then _ else _ : Parser Bool) >>= _) c =
    (if c.peek.kind.is m = true then _ else _ : Parser α) c
  cases c.peek.kind.is m <;> rfl

theorem expectMemberName_done {c : Cursor} {name : String}
    (h : c.peek.kind.memberName? = some name) :
    expectMemberName c = .done ⟨name, c.peek.location⟩ c.advance := by
  simp only [expectMemberName, Routine.bind_apply, peekKind, Routine.view_apply, h]
  rfl

theorem expectMemberName_fails {c : Cursor} (h : c.peek.kind.memberName? = none) :
    expectMemberName c = .exit (.plain "Expected member name" c.peek.location) c := by
  simp only [expectMemberName, Routine.bind_apply, peekKind, Routine.view_apply, h]
  rfl

/-- Two parsers that go through their tokens together. -/
structure Tandem (w : Seam) (n n' : Nat) (s : Start) (k : α → Bool) (φ : α → α)
    (p p' : Parser α) : Prop where
  moves : Moves s k p
  follows : Follows w.move n s φ p p'
  forgets : Forgets s k p
  shadows : Shadows w n' s φ p p'

namespace Tandem

abbrev Exprs (w : Seam) (n n' : Nat) (s : Start) (p p' : Parser Expr) : Prop :=
  Tandem w n n' s always (Expr.relocated w.move) p p'

abbrev Statements (w : Seam) (n n' : Nat) (s : Start) (p p' : Parser Statement) : Prop :=
  Tandem w n n' s always (Statement.relocated w.move) p p'

/-- A parser that may be used anywhere and passes a token may be used in any place. -/
theorem of_anywhere (h : Tandem w n n' .anywhere always φ p p') : Tandem w n n' s k φ p p' where
  moves := h.moves.weaken (fun _ _ => rfl) (fun c _ => by rintro kind ⟨⟩)
  follows := h.follows.weaken (fun c _ => by rintro kind ⟨⟩) fun c hr => by
    show c.rest.length ≤ n
    have : c.rest.length + s.passed.toNat ≤ n := hr
    omega
  forgets := h.forgets.weaken (fun _ _ => rfl) (fun c _ => by rintro kind ⟨⟩) (fun _ => rfl)
  shadows := h.shadows.weaken (fun c _ => by rintro kind ⟨⟩)
    (fun c hr => by
      show c.rest.length ≤ n'
      have : c.rest.length + s.passed.toNat ≤ n' := hr
      omega)
    (by rintro ⟨⟩)

/-- A rule with room for one token more may be used inside. -/
theorem of_rule (h : Tandem w n n' .anywhere always φ p p') :
    Tandem w (n + 1) (n' + 1) .inside always φ p p' where
  moves := h.moves.weaken (fun _ _ => rfl) (fun c _ => by rintro kind ⟨⟩)
  follows := h.follows.weaken (fun c _ => by rintro kind ⟨⟩) fun _ hr => Nat.le_of_lt_succ hr
  forgets := .inside
  shadows := h.shadows.weaken (fun c _ => by rintro kind ⟨⟩) (fun _ hr => Nat.le_of_lt_succ hr)
    (by rintro ⟨⟩)

theorem weaken {k' : α → Bool} (h : Tandem w n n' s k φ p p')
    (hk : ∀ a, k' a = true → k a = true) : Tandem w n n' s k' φ p p' where
  moves := h.moves.weaken hk (fun _ => id)
  follows := h.follows
  forgets := h.forgets.weaken hk (fun _ => id) id
  shadows := h.shadows

theorem of_always (h : Tandem w n n' s always φ p p') : Tandem w n n' s k φ p p' :=
  h.weaken fun _ _ => rfl

theorem of_inside {kind : TokenKind} (h : Tandem w n n' .inside k φ p p') :
    Tandem w n n' (Start.inside.before kind) k φ p p' where
  moves := h.moves.weaken (fun _ => id) (fun c _ => Start.at_inside c)
  follows := h.follows.weaken (fun c _ => Start.at_inside c) (fun _ => id)
  forgets := h.forgets.weaken (fun _ => id) (fun c _ => Start.at_inside c) id
  shadows := h.shadows.weaken (fun c _ => Start.at_inside c) (fun _ => id) id

theorem pure {a a' : α} (h : φ a = a') (hk : k a = false) :
    Tandem w n n' s k φ (Pure.pure a) (Pure.pure a') :=
  ⟨.pure hk, .pure h, .pure hk, .pure h⟩

theorem leave (e : SyntaxError) :
    Tandem w n n' s k φ (Routine.leave e) (Routine.leave (e.relocated w.move)) :=
  ⟨.leave e, .leave e, .leave e, .leave e _⟩

theorem failAt (location : Location) (message : String) :
    Tandem w n n' s k φ (Parser.failAt location message)
      (Parser.failAt (w.move.place location) message) :=
  leave (.plain message location)

theorem failHere (message : String) :
    Tandem w n n' s k φ (Parser.failHere message) (Parser.failHere message) where
  moves := .view fun _ _ => .leave _
  follows := .view fun c _ => by
    rw [Cursor.peek_relocated]
    exact .leave (.plain message c.peek.location)
  forgets := .view (fun _ _ => rfl) fun _ _ => .leave _
  shadows := by rintro c d - - - - _ _ ⟨⟩

/-- In a sequence the first parser may or may not pass a token. -/
theorem next {l : β → Bool} {ψ : β → β} {f f' : α → Parser β} (hx : Tandem w n n' s k φ p p')
    (hk : ∀ a, (s.passed || k a) = true)
    (hf : ∀ a, Tandem w n n' .inside (fun b => l b && !k a) ψ (f a) (f' (φ a))) :
    Tandem w n n' s l ψ (p >>= f) (p' >>= f') where
  moves := hx.moves.bind fun a => (hf a).moves
  follows := hx.follows.bind hx.moves hk fun a => (hf a).follows
  forgets := hx.forgets.bind hk
  shadows := hx.shadows.bind hx.moves hk (fun a => (hf a).shadows) fun a => (hf a).moves

theorem bind {l : β → Bool} {ψ : β → β} {f f' : α → Parser β}
    (hx : Tandem w n n' s always φ p p')
    (hf : ∀ a, Tandem w n n' .inside never ψ (f a) (f' (φ a))) :
    Tandem w n n' s l ψ (p >>= f) (p' >>= f') :=
  hx.next (fun _ => Bool.or_true _) fun a =>
    (hf a).weaken fun _ hb => by rw [always, Bool.not_true, Bool.and_false] at hb; cases hb

theorem seq {l : β → Bool} {ψ : β → β} {f f' : α → Parser β}
    (hx : Tandem w n n' .inside never φ p p')
    (hf : ∀ a, Tandem w n n' .inside l ψ (f a) (f' (φ a))) :
    Tandem w n n' .inside l ψ (p >>= f) (p' >>= f') :=
  hx.next (fun _ => rfl) fun a => (hf a).weaken fun _ hb => (Bool.and_eq_true _ _ ▸ hb).1

theorem iterate {ψ : β → β} {step step' : β → Parser (β ⊕ α)} (hn : n ≤ n')
    (h : ∀ b, Tandem w n n' .inside (onward k) (Sum.map ψ φ) (step b) (step' (ψ b))) (b : β) :
    Tandem w n n' .inside k φ (Routine.iterate step n b) (Routine.iterate step' n' (ψ b)) where
  moves := .iterate (fun b => (h b).moves) n b
  follows := .iterate hn (fun b => (h b).follows) (fun b => (h b).moves) b
  forgets := .inside
  shadows := .iterate_of_le (fun b => (h b).shadows) (fun b => (h b).moves) n n' hn b

/-! ## Looking ahead -/

theorem look {f f' : Token → Parser α}
    (h : ∀ t, Tandem w n n' (s.before t.kind) always φ (f t) (f' (t.relocated w.move))) :
    Tandem w n n' s k φ (Parser.peek >>= f) (Parser.peek >>= f') :=
  of_always {
    moves := .view fun c _ => (h c.peek).moves
    follows := .view fun c _ => by
      rw [Cursor.peek_relocated]
      exact (h c.peek).follows
    forgets := .view (fun _ _ => rfl) fun c _ => (h c.peek).forgets
    shadows := .look (fun t => (h t).shadows) fun t => (h t).moves }

theorem lookKind {f f' : TokenKind → Parser α}
    (h : ∀ kind, Tandem w n n' (s.before kind) always φ (f kind) (f' kind)) :
    Tandem w n n' s k φ (Parser.peekKind >>= f) (Parser.peekKind >>= f') := by
  show Tandem w n n' s k φ (Parser.peek >>= fun t => f t.kind) (Parser.peek >>= fun t => f' t.kind)
  exact look fun t => h t.kind

/-- A parser that looks at the next token and may pass none. -/
theorem glance {f f' : TokenKind → Parser α}
    (h : ∀ kind, Tandem w n n' (Start.inside.before kind) k φ (f kind) (f' kind))
    (heq : f' (.mark .newline) = f' (.mark .endOfText)) :
    Tandem w n n' .inside k φ (Parser.peekKind >>= f) (Parser.peekKind >>= f') where
  moves := .view fun c _ => (h c.peek.kind).moves
  follows := .view fun c _ => by
    rw [Cursor.peek_relocated]
    exact (h c.peek.kind).follows
  forgets := .inside
  shadows := .glance (fun kind => (h kind).shadows) heq

theorem advance {kind : TokenKind} {k : Token → Bool} (hk : kind.isPlain = true) :
    Tandem w n n' (s.before kind) k (Token.relocated w.move) Parser.advance Parser.advance :=
  have he := (TokenKind.isPlain_iff.1 hk).1
  ⟨.advance he, .advance, .advance he, .advance hk⟩

theorem nextUnnamed {k : Nat → Bool} (hk : ∀ i, k i = false) :
    Tandem w n n' .inside k w.move.number Parser.nextUnnamed Parser.nextUnnamed where
  moves := {
    done := by
      rintro c a _ - - ⟨⟩
      exact ⟨[], ⟨⟨rfl, rfl, rfl, List.suffix_rfl⟩, fun _ => .nil⟩, by simp [hk]⟩
    exit := by rintro c _ _ - - ⟨⟩ }
  follows := .nextUnnamed
  forgets := .inside
  shadows := .nextUnnamed

theorem locationFrom {k : Location → Bool} (start : Location) (hk : ∀ l, k l = false) :
    Tandem w n n' .inside k w.move.place (Parser.locationFrom start)
      (Parser.locationFrom (w.move.place start)) where
  moves := {
    done := by
      rintro c a _ - - ⟨⟩
      exact ⟨[], .refl c, by simp [hk]⟩
    exit := by rintro c _ _ - - ⟨⟩ }
  follows := by
    rintro c - - -
    exact ⟨(by rintro ⟨⟩), congrArg (Outcome.done · _) (c.locationFrom_relocated w.move start)⟩
  forgets := .inside
  shadows := .locationFrom start

/-! ## Separators -/

section
variable {marks : List Mark} (hm : marks.all (fun m => TokenKind.isPlain (.mark m)) = true)
include hm

theorem skip {k : Unit → Bool} (hk : k () = false) (hn : marks.contains .newline = false) :
    Tandem w n n' .inside k id (Parser.skip marks) (Parser.skip marks) where
  moves := .skip hk fun _ h => (TokenKind.isPlain_iff.1 (TokenKind.isPlain_of_isOneOf hm h)).1
  follows := .skip marks
  forgets := .inside
  shadows := .skip (fun _ => TokenKind.isPlain_of_isOneOf hm) hn

/-- Separators, and what comes behind them before the end of the text. -/
theorem skipThen {f f' : TokenKind → Parser α}
    (h : ∀ kind, Tandem w n n' (Start.inside.before kind) k φ (f kind) (f' kind))
    (hend : ∀ kind, kind.isEnd = true → Moves (Start.inside.before kind) always (f kind)) :
    Tandem w n n' .inside k φ (Parser.skip marks >>= fun _ => Parser.peekKind >>= f)
      (Parser.skip marks >>= fun _ => Parser.peekKind >>= f') :=
  have hskip : Moves .inside never (Parser.skip marks) :=
    .skip rfl fun _ h => (TokenKind.isPlain_iff.1 (TokenKind.isPlain_of_isOneOf hm h)).1
  { moves := hskip.bind fun _ => .view fun c _ =>
      (h c.peek.kind).moves.weaken (fun _ hb => (Bool.and_eq_true _ _ ▸ hb).1) (fun _ => id)
    follows := Follows.bind (.skip marks) hskip (fun _ => rfl) fun _ => .view fun c _ => by
      rw [Cursor.peek_relocated]
      exact (h c.peek.kind).follows
    forgets := .inside
    shadows := .skipThen (fun _ => TokenKind.isPlain_of_isOneOf hm) (fun kind => (h kind).shadows)
      hend }

theorem skipTo (h : Tandem w n n' .inside always φ p p') :
    Tandem w n n' .inside k φ (Parser.skip marks >>= fun _ => p)
      (Parser.skip marks >>= fun _ => p') :=
  skipThen (f := fun _ => p) hm (fun _ => of_inside h.of_always) fun _ _ => (of_inside h).moves

/-- Separators, and then either a closing bracket or something that passes a token. -/
theorem skipUntil {q q' : Parser α} {closing : Mark} (hc : closing.isOrdinary = true)
    (hp : Tandem w n n' (Start.inside.before (.mark closing)) k φ p p')
    (hq : Tandem w n n' .inside always φ q q') :
    Tandem w n n' .inside k φ
      (Parser.skip marks >>= fun _ => Parser.check closing >>= fun b => if b = true then p else q)
      (Parser.skip marks >>= fun _ => Parser.check closing >>= fun b =>
        if b = true then p' else q') := by
  simp only [check_bind]
  refine skipThen hm (fun kind => ?_) fun kind hend => ?_
  · cases h : kind.is closing with
    | true =>
      rw [TokenKind.is_iff.1 h]
      exact hp
    | false => exact of_inside hq.of_always
  · have hne : kind.is closing = false := by
      cases h : kind.is closing with
      | false => rfl
      | true =>
        have := (TokenKind.isPlain_iff.1 (Mark.isPlain_of_isOrdinary hc)).1
        rw [← TokenKind.is_iff.1 h, hend] at this
        cases this
    rw [hne]
    exact (of_inside hq).moves

end

/-! ## Single tokens -/

section
variable {m : Mark} (hm : m.isOrdinary = true)
include hm

theorem expect {k : Token → Bool} :
    Tandem w n n' s k (Token.relocated w.move) (Parser.expect m) (Parser.expect m) := by
  rw [Parser.expect, check_bind]
  refine lookKind fun kind => ?_
  cases h : kind.is m with
  | true =>
    rw [TokenKind.is_iff.1 h]
    exact advance (Mark.isPlain_of_isOrdinary hm)
  | false => exact failHere _

/-- A choice by the next token, which may be passed in the first case only. -/
theorem ifCheck {q q' : Parser α} (hp : Tandem w n n' (Start.inside.before (.mark m)) k φ p p')
    (hq : Tandem w n n' .inside k φ q q') :
    Tandem w n n' .inside k φ (Parser.check m >>= fun b => if b = true then p else q)
      (Parser.check m >>= fun b => if b = true then p' else q') := by
  rw [check_bind, check_bind]
  refine glance (fun kind => ?_) ?_
  · cases h : kind.is m with
    | true =>
      rw [TokenKind.is_iff.1 h]
      exact hp
    | false => exact of_inside hq
  · rw [(Mark.is_of_isOrdinary hm).1, (Mark.is_of_isOrdinary hm).2]

theorem ifAccept {q q' : Parser α} (hp : Tandem w n n' .inside never φ p p')
    (hq : Tandem w n n' .inside k φ q q') :
    Tandem w n n' .inside k φ (Parser.accept m >>= fun b => if b = true then p else q)
      (Parser.accept m >>= fun b => if b = true then p' else q') := by
  rw [accept_bind, accept_bind]
  exact ifCheck hm (bind (advance (Mark.isPlain_of_isOrdinary hm)) fun _ => hp) hq

theorem accept {k : Bool → Bool} (hk : k false = false) :
    Tandem w n n' .inside k id (Parser.accept m) (Parser.accept m) := by
  rw [accept_eq]
  exact ifCheck hm (bind (advance (Mark.isPlain_of_isOrdinary hm)) fun _ => pure rfl rfl)
    (pure rfl hk)

end

/-- A choice by the next token between two parsers that pass one. -/
theorem lookCheck {m : Mark} {q q' : Parser α} (hp : Tandem w n n' (s.before (.mark m)) always φ p p')
    (hq : Tandem w n n' .anywhere always φ q q') :
    Tandem w n n' s k φ (Parser.check m >>= fun b => if b = true then p else q)
      (Parser.check m >>= fun b => if b = true then p' else q') := by
  rw [check_bind, check_bind]
  refine lookKind fun kind => ?_
  cases h : kind.is m with
  | true =>
    rw [TokenKind.is_iff.1 h]
    exact hp
  | false => exact of_anywhere hq

theorem expectIdentifier (message : String) {k : Identifier → Bool} :
    Tandem w n n' s k (Identifier.relocated w.move) (Parser.expectIdentifier message)
      (Parser.expectIdentifier message) := by
  refine lookKind fun kind => ?_
  cases kind with
  | identifier name => exact bind (advance rfl) fun _ => pure rfl rfl
  | _ => exact failHere message

theorem expectString (message : String) {k : String → Bool} :
    Tandem w n n' s k id (Parser.expectString message) (Parser.expectString message) := by
  refine lookKind fun kind => ?_
  cases kind with
  | string value => exact bind (advance rfl) fun _ => pure rfl rfl
  | _ => exact failHere message

theorem expectMemberName {k : Identifier → Bool} :
    Tandem w n n' s k (Identifier.relocated w.move) Parser.expectMemberName
      Parser.expectMemberName := by
  refine lookKind fun kind => ?_
  cases h : kind.memberName? with
  | some name => exact bind (advance (TokenKind.isPlain_of_memberName h)) fun _ => pure rfl rfl
  | none => exact failHere _

/-- A token that is passed only to be refused. -/
theorem refuse (location : Location) (message : String) :
    Tandem w n n' s k φ (Parser.advance >>= fun _ => Parser.failAt location message)
      (Parser.advance >>= fun _ => Parser.failAt (w.move.place location) message) where
  moves := {
    done := by rintro c _ _ - - ⟨⟩
    exit := by
      rintro c _ _ - - ⟨⟩
      exact c.exists_passes_advance }
  follows := by
    rintro c - - -
    refine ⟨(by rintro ⟨⟩), ?_⟩
    show Outcome.exit _ (c.relocated w.move).advance = _
    rw [Cursor.advance_relocated]
    rfl
  forgets := by rintro - c _ _ _ - - - ⟨⟩
  shadows := by rintro c d - - - - _ _ ⟨⟩

theorem typeName {k : Kind → Bool} :
    Tandem w n n' s k id Grammar.typeName Grammar.typeName := by
  rw [Grammar.typeName, advance_bind]
  refine look fun t => ?_
  rw [Token.relocated_kind]
  cases h : t.kind.memberName?.bind Kind.ofName? with
  | some kind =>
    obtain ⟨name, hname, -⟩ := Option.bind_eq_some_iff.1 h
    exact bind (advance (TokenKind.isPlain_of_memberName hname)) fun _ => pure rfl rfl
  | none => exact refuse _ _

/-! ## Members

Between a dot and the name behind it the cursors of two texts are not related, so both tokens are
passed in one step. -/

/-- Where a dot and a name have been read there were a dot and a name. -/
theorem member_done {c t : Cursor} {a : Identifier} (hf : c.final.kind.isEnd = true)
    (hc : c.peek.kind.isEnd = false)
    (h : (Parser.advance >>= fun _ => Parser.expectMemberName) c = .done a t) :
    ∃ x y ys name, c.rest = x :: y :: ys ∧ y.kind.memberName? = some name ∧
      a = ⟨name, y.location⟩ ∧ t = { c with rest := ys, previous := some y } := by
  obtain ⟨x, more, hx⟩ := List.exists_cons_of_ne_nil (Cursor.rest_ne_nil hf hc)
  have hadvance : c.advance = { c with rest := more, previous := some x } := by
    rw [Cursor.advance, hx]
  have h : Parser.expectMemberName c.advance = .done a t := h
  obtain ⟨name, hname⟩ : ∃ name, c.advance.peek.kind.memberName? = some name := by
    cases hk : c.advance.peek.kind.memberName? with
    | some name => exact ⟨name, rfl⟩
    | none => rw [expectMemberName_fails hk] at h; cases h
  rw [expectMemberName_done hname] at h
  cases h
  rw [hadvance] at hname ⊢
  cases more with
  | nil =>
    have hend := (TokenKind.isPlain_iff.1 (TokenKind.isPlain_of_memberName hname)).1
    have : c.final.kind.isEnd = false := hend
    rw [hf] at this
    cases this
  | cons y ys => exact ⟨x, y, ys, name, hx, hname, rfl, rfl⟩

theorem shadows_member {kind : TokenKind} (he : kind.isEnd = false) :
    Shadows w n' (s.before kind) (Identifier.relocated w.move)
      (Parser.advance >>= fun _ => Parser.expectMemberName)
      (Parser.advance >>= fun _ => Parser.expectMemberName) := by
  intro c d hpair hs _ _ a t h _
  obtain ⟨x, y, ys, name, hc, hname, rfl, rfl⟩ :=
    member_done hpair.final (by rw [hs.kind, he]) h
  obtain ⟨hye, hyj⟩ := TokenKind.isPlain_iff.1 (TokenKind.isPlain_of_memberName hname)
  have hx : c.peek = x := by rw [Cursor.peek, hc]; rfl
  have hxe : x.kind.isEnd = false := by rw [← hx, hs.kind, he]
  have hsettled : Settled [x, y] := ⟨by simp [Endless, hxe, hye], by simpa using hyj⟩
  have hpass := hpair.pass hsettled hc
  obtain ⟨ts, hts, hd, -⟩ := hpair.rest
  rw [hc] at hts
  obtain ⟨zs, rfl⟩ : ∃ zs, ts = x :: y :: zs := by
    cases ts with
    | nil => cases hts
    | cons x' ts =>
      cases ts with
      | nil =>
        cases hts
        rw [w.stop_isEnd] at hye
        cases hye
      | cons y' zs =>
        cases hts
        exact ⟨zs, rfl⟩
  have hadvance : d.advance =
      { d with rest := y.relocated w.move :: (zs.map (Token.relocated w.move) ++ w.newline :: w.more)
               previous := some (x.relocated w.move) } := by
    rw [Cursor.advance, hd]
    rfl
  rw [hd] at hpass
  refine .inl ⟨_, ?_, hpass⟩
  show Parser.expectMemberName d.advance = _
  rw [hadvance]
  exact expectMemberName_done hname

/-- A dot, a name, and what is inside behind them. -/
theorem memberThen {kind : TokenKind} {l : β → Bool} {ψ : β → β} {f f' : Identifier → Parser β}
    (he : kind.isEnd = false)
    (hf : ∀ name, Tandem w n n' .inside never ψ (f name) (f' (name.relocated w.move))) :
    Tandem w n n' (s.before kind) l ψ (Parser.advance >>= fun _ => Parser.expectMemberName >>= f)
      (Parser.advance >>= fun _ => Parser.expectMemberName >>= f') := by
  have hname : Tandem w n n' .inside never (Identifier.relocated w.move) Parser.expectMemberName
      Parser.expectMemberName := expectMemberName
  have hadvance : Moves (s.before kind) always Parser.advance := .advance he
  rw [← bind_assoc, ← bind_assoc]
  refine bind ⟨hadvance.bind fun _ => hname.moves.weaken (fun _ hb => ?_) fun _ => id,
    Follows.bind .advance hadvance (fun _ => Bool.or_true _) fun _ => hname.follows,
    Forgets.bind (Forgets.advance (k := always) he) fun _ => Bool.or_true _,
    shadows_member he⟩ hf
  rw [always, always, Bool.not_true, Bool.and_false] at hb
  cases hb

end Tandem

end BrightScript.Parser
