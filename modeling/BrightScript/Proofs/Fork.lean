import BrightScript.Proofs.Tandem.Block

/-!
# Texts that go on in two ways

A phrase is read the same whatever mark ends it. A `Fork` is a place where a text may go on in two
ways, each of which starts with a mark that ends a phrase, and `Unaware` says of a parser that it
does not tell the two ways apart, as long as it stops before the fork.

How close to the fork a parser may come is counted in tokens. What ends with its own last token,
such as a bracket or an `end function`, may come up to the fork. So may an expression, since every
mark at a fork ends it. A statement that holds others, or a list of statements, looks at the mark
behind it, so it has to leave a token. The numbers in `Unaware` say how many tokens a parser leaves
before the fork, and how many there were, then, where it started.
-/

namespace BrightScript

open BrightScript.Parser (statementEnds)

/-- The marks that end an expression on a line. -/
def closers : List Mark :=
  .thenWord :: statementEnds

/-- Whether the token is a mark that ends an expression on a line. -/
def TokenKind.closes (k : TokenKind) : Bool :=
  k.isOneOf closers

theorem TokenKind.closes_iff {k : TokenKind} :
    k.closes = true ↔ k = .mark .thenWord ∨ k = .mark .newline ∨ k = .mark .colon ∨
      k = .mark .endOfText ∨ k = .mark .elseWord ∨ k = .mark .elseIf ∨ k = .mark .endIf := by
  rw [closes, isOneOf_iff]
  simp [closers, statementEnds]

theorem TokenKind.closes_of_ends {k : TokenKind} (h : k.isOneOf statementEnds = true) :
    k.closes = true := by
  obtain ⟨m, hm, rfl⟩ := isOneOf_iff.1 h
  exact isOneOf_iff.2 ⟨m, List.mem_cons_of_mem _ hm, rfl⟩

/-- Two ways in which a text may go on. -/
structure Fork where
  left : List Token
  right : List Token
  left_closes : ∃ t more, left = t :: more ∧ t.kind.closes = true
  right_closes : ∃ t more, right = t :: more ∧ t.kind.closes = true

namespace Fork

/-- Whether either way starts with a mark that ends a statement. -/
def ends (w : Fork) : Bool :=
  [w.left, w.right].all fun tokens => tokens.head?.any (·.kind.isOneOf statementEnds)

/-- How many tokens a statement that reads up to its end leaves before the fork. -/
def reach (w : Fork) : Nat :=
  if w.ends then 0 else 1

theorem reach_le (w : Fork) : w.reach ≤ 1 := by
  rw [reach]
  split <;> omega

theorem left_pos (w : Fork) : 0 < w.left.length := by
  obtain ⟨t, more, h, -⟩ := w.left_closes
  rw [h, List.length_cons]
  exact Nat.succ_pos _

end Fork

/-! ## Cursors before the fork -/

namespace Cursor

variable {c d t : Cursor} {xs ys more passed : List Token}

def followedBy (c : Cursor) (more : List Token) : Cursor :=
  { c with rest := c.rest ++ more }

theorem followedBy_injective (more : List Token) (h : c.followedBy more = d.followedBy more) :
    c = d := by
  obtain ⟨rest, previous, final, errors, unnamed⟩ := c
  obtain ⟨rest', previous', final', errors', unnamed'⟩ := d
  simp only [followedBy, mk.injEq, List.append_cancel_right_eq] at h ⊢
  exact h

/-- Tokens that are there come before what follows them. -/
theorem peek_followedBy (h : c.rest ≠ []) :
    (c.followedBy xs).peek = (c.followedBy ys).peek := by
  obtain ⟨x, rest, hx⟩ := List.exists_cons_of_ne_nil h
  rw [peek, peek, followedBy, followedBy, hx]
  rfl

theorem peek_followedBy_nil {x : Token} (h : c.rest = []) :
    (c.followedBy (x :: xs)).peek = x := by
  rw [peek, followedBy, h]
  rfl

theorem ahead_followedBy (xs ys : List Token) {i : Nat} (h : i < c.rest.length) :
    (c.followedBy xs).ahead i = (c.followedBy ys).ahead i := by
  rw [ahead, ahead, followedBy, followedBy, List.getElem?_append_left h,
    List.getElem?_append_left h]

theorem rest_advance (c : Cursor) : c.advance.rest = c.rest.tail := by
  rw [advance]
  split <;> simp [*]

theorem advance_followedBy (h : c.rest ≠ []) :
    (c.followedBy more).advance = c.advance.followedBy more := by
  obtain ⟨x, rest, hx⟩ := List.exists_cons_of_ne_nil h
  rw [advance, advance, followedBy, hx]
  rfl

/-- Where some tokens are not passed, what follows them is not looked at. -/
theorem past_followedBy {q : TokenKind → Bool} (h : c.rest.dropWhile (q ·.kind) ≠ [])
    (more : List Token) : (c.followedBy more).past q = (c.past q).followedBy more := by
  have htake : (c.rest.takeWhile (q ·.kind)).length ≠ c.rest.length := by
    intro hlength
    have hsplit := congrArg List.length
      (List.takeWhile_append_dropWhile (p := (q ·.kind)) (l := c.rest))
    rw [List.length_append, hlength] at hsplit
    exact h (List.eq_nil_of_length_eq_zero (by omega))
  rw [past, followedBy, List.dropWhile_append, List.isEmpty_eq_false_iff.2 h, List.takeWhile_append,
    if_neg htake]
  rfl

theorem Passes.followedBy (h : (c.followedBy more).Passes passed t)
    (hlen : more.length ≤ t.rest.length) :
    ∃ u : Cursor, t = u.followedBy more ∧ t.rest.length = u.rest.length + more.length := by
  have hsuffix : more <:+ t.rest :=
    List.suffix_of_suffix_length_le (List.suffix_append c.rest more)
      ⟨passed, h.rest.symm⟩ hlen
  obtain ⟨rest, hrest⟩ := hsuffix
  refine ⟨{ t with rest := rest }, ?_, ?_⟩
  · rw [Cursor.followedBy, hrest]
  · rw [← hrest, List.length_append]

end Cursor

/-! ## Parsers before the fork -/

namespace Parser

variable {α β : Type} {w : Fork} {i j : Nat} {k : α → Nat} {p q : Parser α}

/-- What the parser reads without an error, leaving `k` tokens of its result before the fork, it has
started with at least `i` tokens, and it reads the same if the text goes on in the other way. -/
structure Unaware (w : Fork) (i : Nat) (k : α → Nat) (p : Parser α) : Prop where
  passes : ∀ {c : Cursor} {a : α} {t : Cursor}, p c = .done a t → t.errors = [] →
    ∃ passed, c.Passes passed t
  alike : ∀ {c : Cursor} {a : α} {t : Cursor}, p (c.followedBy w.left) = .done a t →
    t.errors = [] → w.left.length + k a ≤ t.rest.length →
    ∃ u : Cursor, t = u.followedBy w.left ∧ i ≤ c.rest.length ∧
      p (c.followedBy w.right) = .done a (u.followedBy w.right)

namespace Unaware

theorem mono {i' : Nat} {k' : α → Nat} (h : Unaware w i k p) (hi : i' ≤ i)
    (hk : ∀ a, k a ≤ k' a) : Unaware w i' k' p where
  passes := h.passes
  alike hp ht hlen := by
    obtain ⟨u, hu, hc, hright⟩ := h.alike hp ht (Nat.le_trans (Nat.add_le_add_left (hk _) _) hlen)
    exact ⟨u, hu, Nat.le_trans hi hc, hright⟩

/-- Nothing need be known of where a parser starts. -/
theorem anywhere (h : Unaware w i k p) : Unaware w 0 k p :=
  h.mono (Nat.zero_le i) fun _ => Nat.le_refl _

theorem pure {a : α} (h : i ≤ k a) : Unaware w i k (Pure.pure a : Parser α) where
  passes := by
    rintro c _ _ ⟨⟩ -
    exact ⟨[], .refl c⟩
  alike := by
    rintro c _ _ ⟨⟩ - hlen
    refine ⟨c, rfl, ?_, rfl⟩
    rw [Cursor.followedBy, List.length_append] at hlen
    omega

theorem leave (e : SyntaxError) : Unaware w i k (Routine.leave e : Parser α) where
  passes := by rintro c _ _ ⟨⟩
  alike := by rintro c _ _ ⟨⟩

theorem giveUp : Unaware w i k (Routine.giveUp : Parser α) where
  passes := by rintro c _ _ ⟨⟩
  alike := by rintro c _ _ ⟨⟩

theorem failHere (message : String) : Unaware w i k (Parser.failHere message : Parser α) where
  passes := by rintro c _ _ ⟨⟩
  alike := by rintro c _ _ ⟨⟩

/-- In a sequence the second parser says how many tokens the first one leaves. -/
theorem andThen {l : β → Nat} {f : α → Parser β} (hp : Unaware w i k p)
    (hf : ∀ a, Unaware w (k a) l (f a)) : Unaware w i l (p >>= f) where
  passes := by
    intro c b t h ht
    obtain ⟨a, t₀, hpa, hfa⟩ := Routine.bind_eq_done.1 h
    obtain ⟨ys, hys⟩ := (hf a).passes hfa ht
    obtain ⟨xs, hxs⟩ := hp.passes hpa (hys.errors_eq_nil ht)
    exact ⟨xs ++ ys, hxs.trans hys⟩
  alike := by
    intro c b t h ht hlen
    obtain ⟨a, t₀, hpa, hfa⟩ := Routine.bind_eq_done.1 h
    obtain ⟨ys, hys⟩ := (hf a).passes hfa ht
    have ht₀ := hys.errors_eq_nil ht
    obtain ⟨xs, hxs⟩ := hp.passes hpa ht₀
    -- the first parser has not passed the fork, since the second one only moves on
    have hle := hys.length_le
    obtain ⟨u₀, rfl, hu₀⟩ := hxs.followedBy (by omega)
    obtain ⟨u, hu, hj, hright⟩ := (hf a).alike hfa ht hlen
    obtain ⟨v, hv, hi, hleft⟩ := hp.alike hpa ht₀ (by omega)
    cases Cursor.followedBy_injective _ hv
    refine ⟨u, hu, hi, ?_⟩
    rw [Routine.bind_apply, hleft]
    exact hright

/-- A sequence whose second parser starts with as many tokens for every result of the first. -/
theorem bind {l : β → Nat} {f : α → Parser β} (hp : Unaware w i (fun _ => j) p)
    (hf : ∀ a, Unaware w j l (f a)) : Unaware w i l (p >>= f) :=
  hp.andThen hf

theorem map {l : β → Nat} {f : α → β} (hp : Unaware w i (fun _ => j) p) (h : ∀ b, j ≤ l b) :
    Unaware w i l (f <$> p) := by
  rw [map_eq_pure_bind]
  exact hp.bind fun a => .pure (h _)

/-- A loop leaves as many tokens as its last step does. -/
theorem iterate {step : β → Parser (β ⊕ α)}
    (h : ∀ b, Unaware w i (Sum.elim (fun _ => i) k) (step b)) (budget : Nat) (b : β) :
    Unaware w i k (Routine.iterate step budget b) := by
  induction budget generalizing b with
  | zero => exact .giveUp
  | succ budget ih =>
    rw [Routine.iterate_succ_eq]
    refine (h b).andThen fun r => ?_
    cases r with
    | inl b' => exact ih b'
    | inr a => exact .pure (Nat.le_refl (k a))

/-! ## Looking at the tokens before the fork -/

/-- A view of the cursor that does not change as long as there is a token before the fork. -/
theorem view {v : Cursor → β} {f : β → Parser α} (h : ∀ b, Unaware w (i + 1) k (f b))
    (hv : ∀ c : Cursor, c.rest ≠ [] → v (c.followedBy w.left) = v (c.followedBy w.right)) :
    Unaware w (i + 1) k (Routine.view v >>= f) where
  passes {c} _ _ hp ht := (h (v c)).passes hp ht
  alike {c} _ _ hp ht hlen := by
    obtain ⟨u, hu, hi, hright⟩ := (h (v (c.followedBy w.left))).alike hp ht hlen
    have hne : c.rest ≠ [] := by
      intro hnil
      rw [hnil] at hi
      exact Nat.not_succ_le_zero i hi
    refine ⟨u, hu, hi, ?_⟩
    rw [hv c hne] at hright
    exact hright

theorem look {f : Token → Parser α} (h : ∀ t, Unaware w (i + 1) k (f t)) :
    Unaware w (i + 1) k (Parser.peek >>= f) :=
  .view h fun _ => Cursor.peek_followedBy

/-- A choice by the next token, given for each of its kinds a parser that does the same there. -/
theorem lookKindAs {f : TokenKind → Parser α}
    (h : ∀ kind, ∃ q : Parser α, Unaware w (i + 1) k q ∧
      ∀ c : Cursor, c.peek.kind = kind → f kind c = q c) :
    Unaware w (i + 1) k (Parser.peekKind >>= f) where
  passes {c a t} hp ht := by
    obtain ⟨q, hq, heq⟩ := h c.peek.kind
    have hp : f c.peek.kind c = .done a t := hp
    rw [heq c rfl] at hp
    exact hq.passes hp ht
  alike {c a t} hp ht hlen := by
    obtain ⟨q, hq, heq⟩ := h (c.followedBy w.left).peek.kind
    have hp : f (c.followedBy w.left).peek.kind (c.followedBy w.left) = .done a t := hp
    rw [heq _ rfl] at hp
    obtain ⟨u, hu, hi, hright⟩ := hq.alike hp ht hlen
    have hne : c.rest ≠ [] := List.length_pos_iff.1 (by omega)
    have hkind : (c.followedBy w.right).peek.kind = (c.followedBy w.left).peek.kind :=
      congrArg Token.kind (Cursor.peek_followedBy hne)
    refine ⟨u, hu, hi, ?_⟩
    show f (c.followedBy w.right).peek.kind (c.followedBy w.right) = _
    rw [hkind, heq _ hkind, hright]

theorem lookKind {f : TokenKind → Parser α} (h : ∀ kind, Unaware w (i + 1) k (f kind)) :
    Unaware w (i + 1) k (Parser.peekKind >>= f) :=
  .lookKindAs fun kind => ⟨f kind, h kind, fun _ _ => rfl⟩

/-- At the fork itself the marks that end an expression have to mean the same. -/
theorem glance {f : TokenKind → Parser α} (h : ∀ kind, Unaware w i k (f kind))
    (heq : ∀ kind, kind.closes = true → f kind = f (.mark .endOfText)) :
    Unaware w i k (Parser.peekKind >>= f) where
  passes {c} _ _ hp ht := (h c.peek.kind).passes hp ht
  alike {c} a t hp ht hlen := by
    have hkind : f (c.followedBy w.left).peek.kind = f (c.followedBy w.right).peek.kind := by
      by_cases hc : c.rest = []
      · obtain ⟨x, xs, hx, hxk⟩ := w.left_closes
        obtain ⟨y, ys, hy, hyk⟩ := w.right_closes
        rw [hx, hy, Cursor.peek_followedBy_nil hc, Cursor.peek_followedBy_nil hc, heq _ hxk,
          heq _ hyk]
      · rw [Cursor.peek_followedBy hc]
    show ∃ u, _ ∧ _ ∧ f (c.followedBy w.right).peek.kind (c.followedBy w.right) = _
    rw [← hkind]
    exact (h (c.followedBy w.left).peek.kind).alike hp ht hlen

/-- At the fork itself a statement is at its end, or it has left a token before. -/
theorem atStatementEnd {f : Bool → Parser α} (h : ∀ b, Unaware w w.reach k (f b)) :
    Unaware w w.reach k (Parser.atStatementEnd >>= f) where
  passes {c} _ _ hp ht := (h (c.peek.kind.isOneOf statementEnds)).passes hp ht
  alike {c} a t hp ht hlen := by
    obtain ⟨u, hu, hi, hright⟩ :=
      (h ((c.followedBy w.left).peek.kind.isOneOf statementEnds)).alike hp ht hlen
    refine ⟨u, hu, hi, ?_⟩
    have hends : (c.followedBy w.left).peek.kind.isOneOf statementEnds =
        (c.followedBy w.right).peek.kind.isOneOf statementEnds := by
      by_cases hc : c.rest = []
      · obtain ⟨x, xs, hx, -⟩ := w.left_closes
        obtain ⟨y, ys, hy, -⟩ := w.right_closes
        have hw : w.ends = true := by
          cases hw : w.ends with
          | true => rfl
          | false =>
            rw [Fork.reach, hw, hc] at hi
            exact absurd hi (Nat.not_succ_le_zero 0)
        simp only [Fork.ends, hx, hy, List.all_cons, List.head?_cons, Option.any_some, List.all_nil,
          Bool.and_true, Bool.and_eq_true] at hw
        rw [hx, hy, Cursor.peek_followedBy_nil hc, Cursor.peek_followedBy_nil hc, hw.1, hw.2]
      · rw [Cursor.peek_followedBy hc]
    rw [hends] at hright
    exact hright

/-! ## Passing tokens before the fork -/

theorem advance {k : Token → Nat} : Unaware w 1 k Parser.advance where
  passes := by
    rintro c _ _ ⟨⟩ -
    exact c.exists_passes_advance
  alike := by
    rintro c _ _ ⟨⟩ - hlen
    obtain ⟨x, xs, hx, -⟩ := w.left_closes
    obtain ⟨rest, previous, final, errors, unnamed⟩ := c
    cases rest with
    | nil =>
      -- the token passed would be the first behind the fork
      rw [hx] at hlen
      have hlen : (x :: xs).length + _ ≤ xs.length := hlen
      rw [List.length_cons] at hlen
      omega
    | cons y ys => exact ⟨⟨ys, some y, final, errors, unnamed⟩, rfl, Nat.succ_pos _, rfl⟩

/-- Separators are passed alike if a token is left behind them. -/
theorem skip {k : Unit → Nat} (marks : List Mark) (hk : i + 1 ≤ k ()) :
    Unaware w (i + 1) k (Parser.skip marks) where
  passes := by
    rintro c _ _ ⟨⟩ -
    rw [Cursor.skip_eq]
    exact ⟨_, Cursor.passes_past _ c⟩
  alike := by
    rintro c _ _ ⟨⟩ - hlen
    have hskip (more : List Token) : Parser.skip marks (c.followedBy more) =
        .done () ((c.followedBy more).past (·.isOneOf marks)) := by
      rw [← Cursor.skip_eq]
      rfl
    rw [Cursor.skip_eq] at hlen ⊢
    -- otherwise all tokens are separators, and so few are left
    have hne : c.rest.dropWhile (·.kind.isOneOf marks) ≠ [] := by
      intro hempty
      have hle := (List.dropWhile_sublist (l := w.left) (·.kind.isOneOf marks)).length_le
      rw [Cursor.past, Cursor.followedBy, List.dropWhile_append, hempty, List.isEmpty_nil,
        if_pos rfl] at hlen
      have : w.left.length + (i + 1) ≤ w.left.length :=
        Nat.le_trans (Nat.le_trans (Nat.add_le_add_left hk _) hlen) hle
      omega
    have hpast := Cursor.past_followedBy (q := (·.isOneOf marks)) hne
    refine ⟨c.past (·.isOneOf marks), hpast _, ?_, by rw [hskip, hpast]⟩
    rw [hpast, Cursor.followedBy, List.length_append] at hlen
    have hle := (c.passes_past (·.isOneOf marks)).length_le
    omega

theorem nextUnnamed {k : Nat → Nat} (h : ∀ number, i ≤ k number) :
    Unaware w i k Parser.nextUnnamed where
  passes := by
    rintro c _ _ ⟨⟩ -
    exact ⟨[], rfl, rfl, rfl, List.suffix_rfl⟩
  alike := by
    rintro c _ _ ⟨⟩ - hlen
    have hlen : w.left.length + k c.unnamed ≤ (c.rest ++ w.left).length := hlen
    rw [List.length_append] at hlen
    have := h c.unnamed
    exact ⟨{ c with unnamed := c.unnamed + 1 }, rfl, by omega, rfl⟩

theorem locationFrom {k : Location → Nat} (start : Location) (h : ∀ l, i ≤ k l) :
    Unaware w i k (Parser.locationFrom start) where
  passes := by
    rintro c _ _ ⟨⟩ -
    exact ⟨[], .refl c⟩
  alike := by
    rintro c _ _ ⟨⟩ - hlen
    have hlen : w.left.length + k (c.locationFrom start) ≤ (c.rest ++ w.left).length := hlen
    rw [List.length_append] at hlen
    have := h (c.locationFrom start)
    exact ⟨c, rfl, by omega, rfl⟩

/-! ## Single tokens -/

/-- A choice by the next token, which is no mark at a fork. -/
theorem ifCheck {m : Mark} (hm : TokenKind.closes (.mark m) = false) (hp : Unaware w i k p)
    (hq : Unaware w i k q) :
    Unaware w i k (Parser.check m >>= fun b => if b = true then p else q) := by
  rw [check_bind]
  refine glance (fun kind => ?_) fun kind hkind => ?_
  · split
    · exact hp
    · exact hq
  · have hne {kind : TokenKind} (h : kind.closes = true) : kind.is m = false :=
      Bool.eq_false_iff.2 fun his => by rw [TokenKind.is_iff.1 his, hm] at h; cases h
    rw [hne hkind, hne rfl]

theorem ifAccept {m : Mark} (hm : TokenKind.closes (.mark m) = false) (hi : i ≤ 1)
    (hp : Unaware w j k p) (hq : Unaware w i k q) :
    Unaware w i k (Parser.accept m >>= fun b => if b = true then p else q) := by
  rw [accept_bind]
  exact ifCheck hm ((advance.bind fun _ => hp).mono hi fun _ => Nat.le_refl _) hq

/-- A choice by the next token before the fork. -/
theorem lookCheck {m : Mark} (hp : Unaware w 1 k p) (hq : Unaware w 1 k q) :
    Unaware w 1 k (Parser.check m >>= fun b => if b = true then p else q) := by
  rw [check_bind]
  refine lookKind fun kind => ?_
  split
  · exact hp
  · exact hq

theorem lookAccept {m : Mark} (hp : Unaware w j k p) (hq : Unaware w 1 k q) :
    Unaware w 1 k (Parser.accept m >>= fun b => if b = true then p else q) := by
  rw [accept_bind]
  exact lookCheck (advance.bind fun _ => hp) hq

theorem accept {k : Bool → Nat} {m : Mark} (hk : ∀ b, 1 ≤ k b) :
    Unaware w 1 k (Parser.accept m) := by
  rw [accept_eq]
  exact lookCheck (advance.bind fun _ => .pure (Nat.le_refl _)) (.pure (hk _))

theorem expect {k : Token → Nat} {m : Mark} : Unaware w 1 k (Parser.expect m) :=
  lookCheck advance (failHere _)

theorem expectIdentifier {k : Identifier → Nat} (message : String) :
    Unaware w 1 k (Parser.expectIdentifier message) := by
  refine lookKind fun kind => ?_
  cases kind with
  | identifier name => exact advance.bind fun _ => .pure (Nat.zero_le _)
  | _ => exact failHere message

theorem expectMemberName {k : Identifier → Nat} : Unaware w 1 k Parser.expectMemberName := by
  refine lookKind fun kind => ?_
  cases kind.memberName? with
  | some name => exact advance.bind fun _ => .pure (Nat.zero_le _)
  | none => exact failHere _

theorem expectString {k : String → Nat} (message : String) :
    Unaware w 1 k (Parser.expectString message) := by
  refine lookKind fun kind => ?_
  cases kind with
  | string value => exact advance.bind fun _ => .pure (Nat.zero_le _)
  | _ => exact failHere message

theorem typeName {k : Kind → Nat} : Unaware w 1 k Grammar.typeName := by
  refine bind (j := 0) advance fun token => ?_
  cases token.kind.memberName?.bind Kind.ofName? with
  | some kind => exact .pure (Nat.zero_le _)
  | none => exact .leave _

end Unaware

end Parser

end BrightScript
