import BrightScript.Syntax.Program

/-!
# Progress of parsers

A parser only ever moves forward over its tokens. `Cursor.Passes` records the tokens between two
cursors, and `Moves` says what a parser does to the cursor however it ends: it passes some tokens,
and it keeps the errors that were reported. A parser that ends with a result has not passed the end
of the text. Whether it has passed a token at all may depend on its result: the step of a loop has
to when it asks to go on.

`Start` collects what is known where a parser starts, since most parsers are only used in front of
a token that has been looked at.
-/

namespace BrightScript

variable {α β : Type}

/-! ## Tokens between two cursors -/

namespace TokenKind

def isEnd (k : TokenKind) : Bool :=
  k.is .endOfText

/-- Whether the token stands on its line and does not end it. -/
def onLine (k : TokenKind) : Bool :=
  !k.isOneOf [.newline, .endOfText]

theorem is_iff {k : TokenKind} {m : Mark} : k.is m = true ↔ k = .mark m := by
  cases k <;> simp [is]

theorem isOneOf_iff {k : TokenKind} {ms : List Mark} :
    k.isOneOf ms = true ↔ ∃ m ∈ ms, k = .mark m := by
  cases k <;> simp [isOneOf]

end TokenKind

/-- The end of the text is not among some tokens. -/
def Endless (tokens : List Token) : Prop :=
  ∀ t ∈ tokens, t.kind.isEnd = false

theorem Endless.nil : Endless [] := by
  simp [Endless]

theorem Endless.append {xs ys : List Token} (h : Endless xs) (h' : Endless ys) :
    Endless (xs ++ ys) :=
  fun t ht => (List.mem_append.1 ht).elim (h t) (h' t)

theorem endless_takeWhile {p : TokenKind → Bool} (hp : ∀ kind, p kind = true → kind.isEnd = false)
    (tokens : List Token) : Endless (tokens.takeWhile (p ·.kind)) :=
  fun t ht => hp _ (List.all_eq_true.1 List.all_takeWhile t ht)

namespace Cursor

structure Passes (c : Cursor) (passed : List Token) (t : Cursor) : Prop where
  rest : c.rest = passed ++ t.rest
  previous : t.previous = passed.getLast?.or c.previous
  final : t.final = c.final
  errors : c.errors <:+ t.errors

namespace Passes

variable {c t u : Cursor} {xs ys : List Token}

theorem refl (c : Cursor) : c.Passes [] c :=
  ⟨rfl, rfl, rfl, List.suffix_rfl⟩

theorem trans (h : c.Passes xs t) (h' : t.Passes ys u) : c.Passes (xs ++ ys) u where
  rest := by rw [h.rest, h'.rest, List.append_assoc]
  previous := by rw [h'.previous, h.previous, List.getLast?_append, Option.or_assoc]
  final := h'.final.trans h.final
  errors := h.errors.trans h'.errors

theorem length_le (h : c.Passes xs t) : t.rest.length ≤ c.rest.length := by
  rw [h.rest, List.length_append]
  omega

theorem length_lt (h : c.Passes xs t) (hx : xs ≠ []) : t.rest.length < c.rest.length := by
  have := List.length_pos_iff.2 hx
  rw [h.rest, List.length_append]
  omega

theorem errors_eq_nil (h : c.Passes xs t) (ht : t.errors = []) : c.errors = [] :=
  List.suffix_nil.1 (ht ▸ h.errors)

/-- A cursor that passes a token sees it first. -/
theorem peek_mem (h : c.Passes xs t) (hx : xs ≠ []) : c.peek ∈ xs := by
  obtain ⟨x, more, rfl⟩ := List.exists_cons_of_ne_nil hx
  have : c.peek = x := by rw [peek, h.rest]; rfl
  rw [this]
  exact List.mem_cons_self

end Passes

/-- Between two cursors some tokens are read: they are passed, and if there is no error the end of the
text is not among them. -/
structure Reads (c : Cursor) (passed : List Token) (t : Cursor) : Prop extends c.Passes passed t where
  endless : t.errors = [] → Endless passed

namespace Reads

variable {c t u : Cursor} {xs ys : List Token}

theorem refl (c : Cursor) : c.Reads [] c :=
  ⟨.refl c, fun _ => .nil⟩

theorem trans (h : c.Reads xs t) (h' : t.Reads ys u) : c.Reads (xs ++ ys) u :=
  ⟨h.toPasses.trans h'.toPasses, fun hu =>
    (h.endless (h'.errors_eq_nil hu)).append (h'.endless hu)⟩

end Reads

theorem skipTokens_eq (p : TokenKind → Bool) (tokens : List Token) (previous : Option Token) :
    skipTokens p tokens previous =
      (tokens.dropWhile (p ·.kind), (tokens.takeWhile (p ·.kind)).getLast?.or previous) := by
  induction tokens generalizing previous with
  | nil => rfl
  | cons t rest ih =>
    rw [skipTokens, List.dropWhile_cons, List.takeWhile_cons]
    by_cases h : p t.kind = true
    · rw [if_pos h, if_pos h, if_pos h, ih, List.getLast?_cons]
      cases (List.takeWhile (p ·.kind) rest).getLast? <;> rfl
    · rw [if_neg h, if_neg h, if_neg h]
      rfl

def past (p : TokenKind → Bool) (c : Cursor) : Cursor :=
  { c with
    rest := c.rest.dropWhile (p ·.kind)
    previous := (c.rest.takeWhile (p ·.kind)).getLast?.or c.previous }

theorem passes_past (p : TokenKind → Bool) (c : Cursor) :
    c.Passes (c.rest.takeWhile (p ·.kind)) (c.past p) :=
  ⟨List.takeWhile_append_dropWhile.symm, rfl, rfl, List.suffix_rfl⟩

theorem skip_eq (marks : List Mark) (c : Cursor) : c.skip marks = c.past (·.isOneOf marks) := by
  rw [skip, skipTokens_eq]
  rfl

/-- Passing the rest of a line is passing what stands on it, and the newline if there is one. -/
theorem skipLine_eq (c : Cursor) :
    c.skipLine =
      if (c.past TokenKind.onLine).peek.kind.is .newline = true then
        (c.past TokenKind.onLine).advance
      else c.past TokenKind.onLine := by
  rw [skipLine, skipTokens_eq]
  rfl

theorem passes_advance {c : Cursor} (h : c.rest ≠ []) : c.Passes [c.peek] c.advance := by
  obtain ⟨x, more, hx⟩ := List.exists_cons_of_ne_nil h
  have hp : c.peek = x := by rw [peek, hx]; rfl
  have ha : c.advance = { c with rest := more, previous := some x } := by rw [advance, hx]
  rw [hp, ha]
  exact ⟨hx, rfl, rfl, List.suffix_rfl⟩

/-- A token that is not the last one seen at the end has to be there. -/
theorem rest_ne_nil {c : Cursor} (hf : c.final.kind.isEnd = true) (h : c.peek.kind.isEnd = false) :
    c.rest ≠ [] := by
  intro hnil
  rw [peek, hnil, List.headD_nil, hf] at h
  cases h

theorem exists_passes_advance (c : Cursor) : ∃ passed, c.Passes passed c.advance := by
  by_cases h : c.rest = []
  · refine ⟨[], ?_⟩
    rw [advance, h]
    exact .refl c
  · exact ⟨_, passes_advance h⟩

theorem passes_report (e : SyntaxError) (c : Cursor) : c.Passes [] (c.report e) :=
  ⟨rfl, rfl, rfl, List.suffix_cons ..⟩

end Cursor

/-! ## Where parsers start -/

namespace Parser

/-- What is known where a parser starts: whether a token has been passed before, and what the next
token is. -/
structure Start where
  passed : Bool
  next? : Option TokenKind

namespace Start

/-- Nothing is known. -/
def anywhere : Start :=
  ⟨false, none⟩

def inside : Start :=
  ⟨true, none⟩

def before (s : Start) (kind : TokenKind) : Start :=
  { s with next? := some kind }

def At (s : Start) (c : Cursor) : Prop :=
  ∀ kind, s.next? = some kind → c.peek.kind = kind

theorem at_inside (c : Cursor) : inside.At c := by
  rintro kind ⟨⟩

theorem at_before (s : Start) (c : Cursor) : (s.before c.peek.kind).At c := by
  rintro kind ⟨⟩
  rfl

theorem At.kind {s : Start} {kind : TokenKind} {c : Cursor} (h : (s.before kind).At c) :
    c.peek.kind = kind :=
  h kind rfl

end Start

/-- Every result passes a token. -/
def always (_ : α) : Bool :=
  true

/-- A result need not pass a token. -/
def never (_ : α) : Bool :=
  false

/-- A loop goes on only after a token; what its result passes is left open. -/
def onward (k : α → Bool) : β ⊕ α → Bool :=
  Sum.elim always k

/-! ## What parsers do to the cursor -/

/-- From a start a parser only moves forward. The results that `k` marks have passed a token. -/
structure Moves (s : Start) (k : α → Bool) (p : Parser α) : Prop where
  done : ∀ {c : Cursor} {a : α} {t : Cursor}, c.final.kind.isEnd = true → s.At c →
    p c = .done a t → ∃ passed, c.Reads passed t ∧ (k a = true → passed ≠ [])
  exit : ∀ {c : Cursor} {e : SyntaxError} {t : Cursor}, c.final.kind.isEnd = true → s.At c →
    p c = .exit e t → ∃ passed, c.Passes passed t

namespace Moves

variable {s : Start} {k : α → Bool} {p : Parser α}

theorem length_le (h : Moves s k p) {c t : Cursor} {a : α} (hf : c.final.kind.isEnd = true)
    (hs : s.At c) (hp : p c = .done a t) : t.rest.length ≤ c.rest.length := by
  obtain ⟨passed, hc, -⟩ := h.done hf hs hp
  exact hc.length_le

theorem length_lt (h : Moves s k p) {c t : Cursor} {a : α} (hf : c.final.kind.isEnd = true)
    (hs : s.At c) (hp : p c = .done a t) (ha : k a = true) : t.rest.length < c.rest.length := by
  obtain ⟨passed, hc, hk⟩ := h.done hf hs hp
  exact hc.length_lt (hk ha)

theorem final (h : Moves s k p) {c t : Cursor} {a : α} (hf : c.final.kind.isEnd = true)
    (hs : s.At c) (hp : p c = .done a t) : t.final.kind.isEnd = true := by
  obtain ⟨passed, hc, -⟩ := h.done hf hs hp
  rw [hc.final, hf]

/-- At the end of the text no result passes a token without an error. -/
theorem not_done_at_end (h : Moves s k p) {c t : Cursor} {a : α} (hf : c.final.kind.isEnd = true)
    (hs : s.At c) (hend : c.peek.kind.isEnd = true) (hp : p c = .done a t) (ht : t.errors = []) :
    k a = false := by
  obtain ⟨passed, hc, hk⟩ := h.done hf hs hp
  cases ha : k a with
  | false => rfl
  | true =>
    have := hc.endless ht _ (hc.peek_mem (hk ha))
    rw [hend] at this
    cases this

theorem weaken {k' : α → Bool} {s' : Start} (h : Moves s k p) (hk : ∀ a, k' a = true → k a = true)
    (hs : ∀ c, s'.At c → s.At c) : Moves s' k' p where
  done hf hc hp := by
    obtain ⟨passed, hpassed, hka⟩ := h.done hf (hs _ hc) hp
    exact ⟨passed, hpassed, fun ha => hka (hk _ ha)⟩
  exit hf hc hp := h.exit hf (hs _ hc) hp

theorem pure {a : α} (h : k a = false) : Moves s k (Pure.pure a : Parser α) where
  done := by
    rintro c _ _ - - ⟨⟩
    exact ⟨[], .refl c, by simp [h]⟩
  exit := by rintro c _ _ - - ⟨⟩

theorem leave (e : SyntaxError) : Moves s k (Routine.leave e : Parser α) where
  done := by rintro c _ _ - - ⟨⟩
  exit := by
    rintro c _ _ - - ⟨⟩
    exact ⟨[], .refl c⟩

theorem giveUp : Moves s k (Routine.giveUp : Parser α) where
  done := by rintro c _ _ - - ⟨⟩
  exit := by rintro c _ _ - - ⟨⟩

/-- In a sequence either part may be the one that passes a token. -/
theorem bind {l : β → Bool} {f : α → Parser β} (hx : Moves s k p)
    (hf : ∀ a, Moves .inside (fun b => l b && !k a) (f a)) : Moves s l (p >>= f) where
  done := by
    intro c b u hfinal hs h
    obtain ⟨a, t, hp, hfa⟩ := Routine.bind_eq_done.1 h
    obtain ⟨xs, hxs, hkx⟩ := hx.done hfinal hs hp
    obtain ⟨ys, hys, hky⟩ := (hf a).done (hx.final hfinal hs hp) (Start.at_inside t) hfa
    refine ⟨xs ++ ys, hxs.trans hys, fun hl hnil => ?_⟩
    obtain ⟨hx0, hy0⟩ := List.append_eq_nil_iff.1 hnil
    cases ha : k a with
    | true => exact hkx ha hx0
    | false => exact hky (by rw [hl, ha]; rfl) hy0
  exit := by
    intro c e u hfinal hs h
    obtain hp | ⟨a, t, hp, hfa⟩ := Routine.bind_eq_exit.1 h
    · exact hx.exit hfinal hs hp
    · obtain ⟨xs, hxs, -⟩ := hx.done hfinal hs hp
      obtain ⟨ys, hys⟩ := (hf a).exit (hx.final hfinal hs hp) (Start.at_inside t) hfa
      exact ⟨xs ++ ys, hxs.toPasses.trans hys⟩

theorem view {v : Cursor → β} {f : β → Parser α}
    (h : ∀ c, s.At c → Moves (s.before c.peek.kind) k (f (v c))) :
    Moves s k (Routine.view v >>= f) where
  done hf hs hp := (h _ hs).done hf (s.at_before _) hp
  exit hf hs hp := (h _ hs).exit hf (s.at_before _) hp

theorem advance {kind : TokenKind} {k : Token → Bool} (he : kind.isEnd = false) :
    Moves (s.before kind) k Parser.advance where
  done := by
    rintro c _ _ hf hs ⟨⟩
    have hend : c.peek.kind.isEnd = false := by rw [hs.kind, he]
    have hendless : Endless [c.peek] := by simpa [Endless] using hend
    exact ⟨[c.peek], ⟨Cursor.passes_advance (Cursor.rest_ne_nil hf hend), fun _ => hendless⟩,
      fun _ => List.cons_ne_nil _ _⟩
  exit := by rintro c _ _ - - ⟨⟩

theorem skip {marks : List Mark} {k : Unit → Bool} (hk : k () = false)
    (hm : ∀ kind : TokenKind, kind.isOneOf marks = true → kind.isEnd = false) :
    Moves s k (Parser.skip marks) where
  done := by
    rintro c _ _ - - ⟨⟩
    rw [Cursor.skip_eq]
    exact ⟨_, ⟨Cursor.passes_past _ c, fun _ => endless_takeWhile hm c.rest⟩, by simp [hk]⟩
  exit := by rintro c _ _ - - ⟨⟩

/-- A loop moves as its steps do, since each step that goes on passes a token. -/
theorem iterate {step : β → Parser (β ⊕ α)} (h : ∀ b, Moves .inside (onward k) (step b))
    (budget : Nat) (b : β) : Moves .inside k (Routine.iterate step budget b) := by
  induction budget generalizing b with
  | zero => exact giveUp
  | succ budget ih =>
    rw [Routine.iterate_succ_eq]
    refine (h b).bind fun r => ?_
    cases r with
    | inl b' => exact (ih b').weaken (fun _ ha => (Bool.and_eq_true_iff.1 ha).1) (fun _ hs => hs)
    | inr a => exact pure (Bool.and_not_self _)

end Moves

end Parser

end BrightScript
