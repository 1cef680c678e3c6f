import BrightScript.Proofs.Progress
import BrightScript.Proofs.Relocation

/-!
# Parsers at another place

A parser does the same wherever its tokens stand: on relocated tokens it ends as before, with what
it built relocated. `Follows` says so for two parsers that may differ in their budgets, as long as
the budget of the first leaves room for the tokens, and with it that the first one ends at all.

`Forgets` is about the other trace of the place where a parser starts, the token before it. A parser
that passes a token never looks at that one.
-/

namespace BrightScript

/-! ## Relocated cursors -/

namespace Cursor

variable (m : Relocation) (c : Cursor)

@[simp] theorem peek_relocated : (c.relocated m).peek = c.peek.relocated m := by
  cases h : c.rest <;> simp [peek, relocated, h]

@[simp] theorem rest_relocated : (c.relocated m).rest = c.rest.map (Token.relocated m) :=
  rfl

theorem ahead_relocated (i : Nat) : (c.relocated m).ahead i = c.ahead i := by
  rw [ahead, ahead, rest_relocated, List.getElem?_map]
  cases c.rest[i]? <;> rfl

theorem advance_relocated : (c.relocated m).advance = c.advance.relocated m := by
  cases h : c.rest <;> simp [advance, relocated, h]

theorem past_relocated (q : TokenKind → Bool) :
    (c.relocated m).past q = (c.past q).relocated m := by
  rw [past, rest_relocated, List.dropWhile_map, List.takeWhile_map, List.getLast?_map, relocated,
    ← Option.map_or]
  rfl

theorem skip_relocated (marks : List Mark) :
    (c.relocated m).skip marks = (c.skip marks).relocated m := by
  rw [skip_eq, skip_eq, past_relocated]

theorem skipLine_relocated : (c.relocated m).skipLine = c.skipLine.relocated m := by
  rw [skipLine_eq, skipLine_eq, past_relocated, peek_relocated, Token.relocated_kind,
    advance_relocated]
  split <;> rfl

theorem locationFrom_relocated (start : Location) :
    (c.relocated m).locationFrom (m.place start) = m.place (c.locationFrom start) := by
  cases h : c.previous with
  | none => rw [locationFrom, locationFrom, relocated, h]; rfl
  | some t => rw [locationFrom, locationFrom, relocated, h, m.place_upTo]; rfl

theorem report_relocated (e : SyntaxError) :
    (c.relocated m).report (e.relocated m) = (c.report e).relocated m :=
  rfl

end Cursor

/-! ## Room -/

namespace Parser

variable {α β : Type} {m : Relocation} {n : Nat} {s : Start} {φ : α → α} {k : α → Bool}
  {p p' : Parser α}

namespace Start

/-- The tokens left, and one more where a token has been passed, fit into a budget. -/
def Room (s : Start) (n : Nat) (c : Cursor) : Prop :=
  c.rest.length + s.passed.toNat ≤ n

theorem Room.lt {n : Nat} {c : Cursor} (h : inside.Room n c) : c.rest.length < n :=
  h

theorem room_inside {n : Nat} {c : Cursor} (h : c.rest.length < n) : inside.Room n c :=
  h

end Start

/-- After a parser that passes a token, or one that is used behind a token, there is room inside. -/
theorem Moves.room (h : Moves s k p) {c t : Cursor} {a : α} (hf : c.final.kind.isEnd = true)
    (hs : s.At c) (hr : s.Room n c) (hp : p c = .done a t) (hk : (s.passed || k a) = true) :
    Start.inside.Room n t := by
  have hle := h.length_le hf hs hp
  have hroom : c.rest.length + s.passed.toNat ≤ n := hr
  apply Start.room_inside
  cases hpassed : s.passed with
  | true =>
    rw [hpassed, Bool.toNat_true] at hroom
    omega
  | false =>
    rw [hpassed, Bool.false_or] at hk
    rw [hpassed, Bool.toNat_false] at hroom
    have := h.length_lt hf hs hp hk
    omega

/-! ## Parsers that do the same elsewhere -/

/-- With room for the tokens the first parser ends, and on the relocated tokens the second parser
ends likewise. Results are relocated by `φ`. -/
def Follows (m : Relocation) (n : Nat) (s : Start) (φ : α → α) (p p' : Parser α) : Prop :=
  ∀ c : Cursor, c.final.kind.isEnd = true → s.At c → s.Room n c →
    p c ≠ .exhausted ∧ p' (c.relocated m) = (p c).relocated m φ

namespace Follows

theorem weaken {s' : Start} {n' : Nat} (h : Follows m n s φ p p') (hs : ∀ c, s'.At c → s.At c)
    (hr : ∀ c, s'.Room n' c → s.Room n c) : Follows m n' s' φ p p' :=
  fun c hf hc hroom => h c hf (hs c hc) (hr c hroom)

theorem pure {a a' : α} (h : φ a = a') :
    Follows m n s φ (Pure.pure a : Parser α) (Pure.pure a' : Parser α) := by
  subst h
  rintro c - - -
  exact ⟨(by rintro ⟨⟩), rfl⟩

theorem leave (e : SyntaxError) :
    Follows m n s φ (Routine.leave e : Parser α) (Routine.leave (e.relocated m) : Parser α) := by
  rintro c - - -
  exact ⟨(by rintro ⟨⟩), rfl⟩

theorem bind {ψ : β → β} {f f' : α → Parser β} (hx : Follows m n s φ p p') (hm : Moves s k p)
    (hk : ∀ a, (s.passed || k a) = true) (hf : ∀ a, Follows m n .inside ψ (f a) (f' (φ a))) :
    Follows m n s ψ (p >>= f) (p' >>= f') := by
  intro c hfinal hs hr
  obtain ⟨hne, heq⟩ := hx c hfinal hs hr
  rw [Routine.bind_apply, Routine.bind_apply, heq]
  cases hp : p c with
  | done a t =>
    exact hf a t (hm.final hfinal hs hp) (Start.at_inside t) (hm.room hfinal hs hr hp (hk a))
  | exit e t => exact ⟨(by rintro ⟨⟩), rfl⟩
  | exhausted => exact absurd hp hne

theorem view {v : Cursor → β} {f f' : β → Parser α}
    (h : ∀ c, s.At c →
      Follows m n (s.before c.peek.kind) φ (f (v c)) (f' (v (c.relocated m)))) :
    Follows m n s φ (Routine.view v >>= f) (Routine.view v >>= f') :=
  fun c hf hs hr => h c hs c hf (s.at_before c) hr

theorem change {v v' : Cursor → α × Cursor}
    (h : ∀ c, v' (c.relocated m) = (φ (v c).1, (v c).2.relocated m)) :
    Follows m n s φ (Routine.change v) (Routine.change v') := by
  rintro c - - -
  refine ⟨(by rintro ⟨⟩), ?_⟩
  show Outcome.done (v' (c.relocated m)).1 (v' (c.relocated m)).2 = _
  rw [h]
  rfl

theorem modify {v v' : Cursor → Cursor} (h : ∀ c, v' (c.relocated m) = (v c).relocated m) :
    Follows m n s id (Routine.modify v) (Routine.modify v') := by
  rintro c - - -
  exact ⟨(by rintro ⟨⟩), congrArg (Outcome.done ()) (h c)⟩

theorem advance : Follows m n s (Token.relocated m) Parser.advance Parser.advance :=
  change fun c => by rw [Cursor.peek_relocated, Cursor.advance_relocated]

theorem skip (marks : List Mark) : Follows m n s id (Parser.skip marks) (Parser.skip marks) :=
  modify fun c => c.skip_relocated m marks

theorem nextUnnamed : Follows m n s m.number Parser.nextUnnamed Parser.nextUnnamed :=
  change fun c => by
    show (m.number c.unnamed, { c.relocated m with unnamed := m.number c.unnamed + 1 }) = _
    rw [← m.number_succ]
    rfl

/-- A loop with room for its tokens ends: each step that goes on passes one. -/
theorem iterate_of_lt {ψ : β → β} {step step' : β → Parser (β ⊕ α)}
    (h : ∀ b, Follows m n .inside (Sum.map ψ φ) (step b) (step' (ψ b)))
    (hm : ∀ b, Moves .inside (onward k) (step b)) (j j' : Nat) (hj : j ≤ j') (b : β) (c : Cursor)
    (hf : c.final.kind.isEnd = true) (hr : Start.inside.Room n c) (hlt : c.rest.length < j) :
    Routine.iterate step j b c ≠ .exhausted ∧
      Routine.iterate step' j' (ψ b) (c.relocated m) =
        (Routine.iterate step j b c).relocated m φ := by
  induction j generalizing j' b c with
  | zero => cases hlt
  | succ j ih =>
    obtain ⟨i, rfl⟩ : ∃ i, j' = i + 1 := ⟨j' - 1, by omega⟩
    obtain ⟨hne, heq⟩ := h b c hf (Start.at_inside c) hr
    rw [Routine.iterate_succ, Routine.iterate_succ, heq]
    cases hstep : step b c with
    | done r t =>
      have hfinal := (hm b).final hf (Start.at_inside c) hstep
      have hroom := (hm b).room hf (Start.at_inside c) hr hstep rfl
      cases r with
      | inl b' =>
        have := (hm b).length_lt hf (Start.at_inside c) hstep rfl
        exact ih i (by omega) b' t hfinal hroom (by omega)
      | inr a => exact ⟨(by rintro ⟨⟩), rfl⟩
    | exit e t => exact ⟨(by rintro ⟨⟩), rfl⟩
    | exhausted => exact absurd hstep hne

theorem iterate {ψ : β → β} {n' : Nat} {step step' : β → Parser (β ⊕ α)} (hn : n ≤ n')
    (h : ∀ b, Follows m n .inside (Sum.map ψ φ) (step b) (step' (ψ b)))
    (hm : ∀ b, Moves .inside (onward k) (step b)) (b : β) :
    Follows m n .inside φ (Routine.iterate step n b) (Routine.iterate step' n' (ψ b)) :=
  fun c hf _ hr => iterate_of_lt h hm n n' hn b c hf hr hr.lt

end Follows

/-! ## The token before the start -/

/-- The results that pass a token do not depend on the token before the start. -/
def Forgets (s : Start) (k : α → Bool) (p : Parser α) : Prop :=
  s.passed = false → ∀ (c : Cursor) (previous : Option Token) (a : α) (t : Cursor),
    c.final.kind.isEnd = true → s.At c → k a = true → p c = .done a t →
      p { c with previous := previous } = .done a t

namespace Forgets

theorem inside : Forgets .inside k p := by
  rintro ⟨⟩

theorem weaken {k' : α → Bool} {s' : Start} (h : Forgets s k p)
    (hk : ∀ a, k' a = true → k a = true) (hs : ∀ c, s'.At c → s.At c)
    (hp : s'.passed = false → s.passed = false) : Forgets s' k' p :=
  fun hs' c previous a t hf hc ha => h (hp hs') c previous a t hf (hs c hc) (hk a ha)

theorem pure {a : α} (h : k a = false) : Forgets s k (Pure.pure a : Parser α) := by
  rintro - c previous _ _ - - ha ⟨⟩
  rw [h] at ha
  cases ha

theorem leave (e : SyntaxError) : Forgets s k (Routine.leave e : Parser α) := by
  rintro - c previous _ _ - - - ⟨⟩

/-- The first part of a sequence passes a token, and the second one starts behind it. -/
theorem bind {l : β → Bool} {f : α → Parser β} (hx : Forgets s k p)
    (hk : ∀ a, (s.passed || k a) = true) : Forgets s l (p >>= f) := by
  intro hs c previous b u hf hc _ h
  obtain ⟨a, t, hp, hfa⟩ := Routine.bind_eq_done.1 h
  have hka : k a = true := by simpa [hs] using hk a
  exact Routine.bind_eq_done.2 ⟨a, t, hx hs c previous a t hf hc hka hp, hfa⟩

/-- What is looked at first must not be the token before the start. -/
theorem view {v : Cursor → β} {f : β → Parser α}
    (hv : ∀ c previous, v { c with previous := previous } = v c)
    (h : ∀ c, s.At c → Forgets (s.before c.peek.kind) k (f (v c))) :
    Forgets s k (Routine.view v >>= f) := by
  intro hs c previous a t hf hc ha hp
  show f (v { c with previous := previous }) _ = _
  rw [hv]
  exact h c hc hs c previous a t hf (s.at_before c) ha hp

theorem advance {kind : TokenKind} {k : Token → Bool} (he : kind.isEnd = false) :
    Forgets (s.before kind) k Parser.advance := by
  rintro - c previous _ _ hf hc - ⟨⟩
  have hne := Cursor.rest_ne_nil hf (by rw [hc.kind, he])
  obtain ⟨rest, _, final, errors, unnamed⟩ := c
  cases rest with
  | nil => exact absurd rfl hne
  | cons x more => rfl

end Forgets

end Parser

end BrightScript
