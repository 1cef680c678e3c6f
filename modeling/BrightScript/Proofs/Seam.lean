import BrightScript.Proofs.Equivariance

/-!
# Texts that go on

A text that is followed by a newline and more text is read like the text alone, up to its end. A
`Seam` holds the tokens on both sides of that place, `Seam.Pair` relates the cursors before it, and
`Shadows` says that what the first parser reads without an error in the text alone, the second reads
in the longer one.

The end of the text and a newline are different tokens, and one phrase tells them apart: an `if` of
which nothing is left but the condition. It is complete at the end of the text, and before a newline
it opens a block. The second parser may only fail where `EndsInOpenIf` holds.
-/

namespace BrightScript

/-! ## Tokens that stand on their own -/

/-- Whether the token only stands before the name of a member. -/
def TokenKind.isJoint (k : TokenKind) : Bool :=
  k.isOneOf [.dot, .questionDot, .atSign]

/-- Whether the token is neither the end of the text nor one that stands before the name of a
member. -/
def TokenKind.isPlain (k : TokenKind) : Bool :=
  !k.isEnd && !k.isJoint

theorem TokenKind.isPlain_iff {k : TokenKind} :
    k.isPlain = true ↔ k.isEnd = false ∧ k.isJoint = false := by
  rw [isPlain, Bool.and_eq_true, Bool.not_eq_true', Bool.not_eq_true']

theorem TokenKind.isPlain_of_memberName {k : TokenKind} {name : String}
    (h : k.memberName? = some name) : k.isPlain = true := by
  cases k with
  | mark m => cases m <;> first | rfl | cases h
  | _ => rfl

theorem TokenKind.isPlain_of_isOneOf {marks : List Mark}
    (hm : marks.all (fun m => isPlain (.mark m)) = true) {k : TokenKind}
    (h : k.isOneOf marks = true) : k.isPlain = true := by
  obtain ⟨m, hmem, rfl⟩ := isOneOf_iff.1 h
  exact List.all_eq_true.1 hm m hmem

/-- Whether the mark is plain and no newline. -/
def Mark.isOrdinary (m : Mark) : Bool :=
  TokenKind.isPlain (.mark m) && m != .newline

theorem Mark.isPlain_of_isOrdinary {m : Mark} (h : m.isOrdinary = true) :
    TokenKind.isPlain (.mark m) = true :=
  (Bool.and_eq_true _ _ ▸ h).1

theorem Mark.is_of_isOrdinary {m : Mark} (h : m.isOrdinary = true) :
    TokenKind.is (.mark .newline) m = false ∧ TokenKind.is (.mark .endOfText) m = false := by
  cases m <;> first | exact ⟨rfl, rfl⟩ | cases h

/-- Tokens of which the last one stands on its own, and none is the end of the text. -/
def Settled (tokens : List Token) : Prop :=
  Endless tokens ∧ ∀ t ∈ tokens.getLast?, t.kind.isJoint = false

theorem Settled.single {t : Token} (h : t.kind.isPlain = true) : Settled [t] := by
  obtain ⟨he, hj⟩ := TokenKind.isPlain_iff.1 h
  exact ⟨by simpa [Endless] using he, by simpa using hj⟩

theorem settled_takeWhile {q : TokenKind → Bool} (hq : ∀ kind, q kind = true → kind.isPlain = true)
    (tokens : List Token) : Settled (tokens.takeWhile (q ·.kind)) := by
  refine ⟨endless_takeWhile (fun kind hk => (TokenKind.isPlain_iff.1 (hq kind hk)).1) tokens,
    fun t ht => ?_⟩
  have := List.all_eq_true.1 List.all_takeWhile t (List.mem_of_getLast? ht)
  exact (TokenKind.isPlain_iff.1 (hq _ this)).2

/-! ## The seam -/

/-- The tokens end in an `if` with nothing behind its condition and the `then`: somewhere, and not
as the name of a member, a parser meets an `if` and reaches the end of the text with its head. -/
def EndsInOpenIf (tokens : List Token) : Prop :=
  ∃ (passed : List Token) (c : Cursor), (Cursor.ofTokens tokens).Passes passed c ∧
    (∀ t ∈ c.previous, t.kind.isJoint = false) ∧ c.peek.kind = .mark .ifWord ∧
    ∃ budget head t, (Grammar.ofBudget budget).ifHead c = .done head t ∧ t.errors = [] ∧
      t.peek.kind.isEnd = true

/-- The place where a text ends and a longer one goes on. -/
structure Seam where
  /-- Where the tokens of the text stand in the longer one. -/
  move : Relocation
  tokens : List Token
  /-- Its end. -/
  stop : Token
  newline : Token
  /-- What follows. -/
  more : List Token
  last : Token
  stop_isEnd : stop.kind.isEnd = true
  newline_kind : newline.kind = .mark .newline
  newline_upTo : ∀ b, newline.location.upTo b = (move.place stop.location).upTo b

namespace Seam

variable {w : Seam} {c d : Cursor}

/-- The same place in a text and in a longer one. -/
structure Pair (w : Seam) (c d : Cursor) : Prop where
  rest : ∃ ts, c.rest = ts ++ [w.stop] ∧
    d.rest = ts.map (Token.relocated w.move) ++ w.newline :: w.more ∧
    ∀ t ∈ ts, t.kind.isEnd = false
  previous : d.previous = c.previous.map (Token.relocated w.move)
  settled : ∀ t ∈ c.previous, t.kind.isJoint = false
  final : c.final.kind.isEnd = true
  last : d.final = w.last
  errors : c.errors = []
  errors' : d.errors = []
  unnamed : d.unnamed = w.move.number c.unnamed
  reached : ∃ passed, (Cursor.ofTokens w.tokens).Passes passed c

namespace Pair

theorem length (h : w.Pair c d) : d.rest.length = c.rest.length + w.more.length := by
  obtain ⟨ts, hc, hd, -⟩ := h.rest
  rw [hc, hd]
  simp
  omega

theorem peek (h : w.Pair c d) (hend : c.peek.kind.isEnd = false) :
    d.peek = c.peek.relocated w.move := by
  obtain ⟨ts, hc, hd, -⟩ := h.rest
  cases ts with
  | nil =>
    rw [Cursor.peek, hc, List.nil_append, List.headD_cons, w.stop_isEnd] at hend
    cases hend
  | cons t ts =>
    rw [Cursor.peek, Cursor.peek, hc, hd]
    rfl

theorem rest_of_isEnd (h : w.Pair c d) (hend : c.peek.kind.isEnd = true) :
    c.rest = [w.stop] ∧ d.rest = w.newline :: w.more := by
  obtain ⟨ts, hc, hd, hts⟩ := h.rest
  cases ts with
  | nil => exact ⟨hc, hd⟩
  | cons t ts =>
    have := hts t List.mem_cons_self
    rw [Cursor.peek, hc, List.cons_append, List.headD_cons, this] at hend
    cases hend

theorem peek_of_rest (h : c.rest = [w.stop]) : c.peek = w.stop := by
  rw [Cursor.peek, h]
  rfl

/-- Where a location that runs from the next token starts is the same on both sides. -/
theorem upTo_peek (h : w.Pair c d) (b : Location) :
    d.peek.location.upTo (w.move.place b) = w.move.place (c.peek.location.upTo b) := by
  rw [w.move.place_upTo]
  cases hend : c.peek.kind.isEnd with
  | false => rw [h.peek hend]; rfl
  | true =>
    obtain ⟨hc, hd⟩ := h.rest_of_isEnd hend
    rw [peek_of_rest hc, Cursor.peek, hd, List.headD_cons, w.newline_upTo]

theorem pass {xs ys : List Token} (h : w.Pair c d) (hx : Settled xs) (hc : c.rest = xs ++ ys) :
    w.Pair { c with rest := ys, previous := xs.getLast?.or c.previous }
      { d with
        rest := d.rest.drop xs.length
        previous := (xs.map (Token.relocated w.move)).getLast?.or d.previous } where
  rest := by
    obtain ⟨ts, hts, hd, hend⟩ := h.rest
    rw [hc] at hts
    -- the end is not among the tokens passed
    obtain ⟨zs, rfl, hz⟩ | ⟨zs, rfl, hz⟩ := List.append_eq_append_iff.1 hts
    · refine ⟨zs, hz, ?_, fun t ht => hend t (List.mem_append_right xs ht)⟩
      rw [hd, List.map_append, List.append_assoc]
      exact List.drop_left' (List.length_map _)
    · cases zs with
      | nil =>
        refine ⟨[], hz.symm, ?_, by simp⟩
        rw [hd, List.append_nil]
        exact List.drop_left' (List.length_map _)
      | cons z zs =>
        have hzs : z = w.stop := by
          injection hz with hz
          exact hz.symm
        have hz := hx.1 z (List.mem_append_right ts List.mem_cons_self)
        rw [hzs, w.stop_isEnd] at hz
        cases hz
  previous := by
    show _ = Option.map (Token.relocated w.move) (xs.getLast?.or c.previous)
    rw [h.previous, List.getLast?_map, Option.map_or]
  settled := by
    intro t ht
    rw [Option.mem_def, Option.or_eq_some_iff] at ht
    obtain ht | ⟨-, ht⟩ := ht
    · exact hx.2 t ht
    · exact h.settled t ht
  final := h.final
  last := h.last
  errors := h.errors
  errors' := h.errors'
  unnamed := h.unnamed
  reached := by
    obtain ⟨passed, hp⟩ := h.reached
    exact ⟨passed ++ xs, hp.trans ⟨hc, rfl, rfl, List.suffix_rfl⟩⟩

theorem advance (h : w.Pair c d) (hp : c.peek.kind.isPlain = true) :
    w.Pair c.advance d.advance := by
  obtain ⟨ts, hc, hd, -⟩ := h.rest
  cases ts with
  | nil =>
    have he := (TokenKind.isPlain_iff.1 hp).1
    rw [peek_of_rest hc, w.stop_isEnd] at he
    cases he
  | cons t ts =>
    have ht : c.peek = t := by rw [Cursor.peek, hc]; rfl
    rw [ht] at hp
    have := h.pass (.single hp) hc
    rw [Cursor.advance, Cursor.advance, hc, hd]
    rw [hd] at this
    exact this

/-- Passing tokens of a kind that leaves out the end, as long as the end is not reached or a newline
is left out as well. -/
theorem past {q : TokenKind → Bool} (h : w.Pair c d)
    (hq : ∀ kind, q kind = true → kind.isPlain = true)
    (hstop : (c.past q).peek.kind.isEnd = false ∨ q (.mark .newline) = false) :
    w.Pair (c.past q) (d.past q) := by
  obtain ⟨ts, hc, hd, hend⟩ := h.rest
  have hq' : q w.stop.kind = false := by
    cases hs : q w.stop.kind with
    | false => rfl
    | true =>
      have := (TokenKind.isPlain_iff.1 (hq _ hs)).1
      rw [w.stop_isEnd] at this
      cases this
  have hmap : (q ·.kind) ∘ Token.relocated w.move = (q ·.kind) := rfl
  -- what is passed is the same on both sides
  have htake : d.rest.takeWhile (q ·.kind) =
      (c.rest.takeWhile (q ·.kind)).map (Token.relocated w.move) := by
    by_cases hall : ∀ t ∈ ts, q t.kind = true
    · have hpeek : (c.past q).peek = w.stop := by
        rw [Cursor.peek, Cursor.past, hc, List.dropWhile_append_of_pos hall]
        simp [hq']
      have hnewline : q w.newline.kind = false := by
        rw [hpeek, w.stop_isEnd] at hstop
        rw [w.newline_kind]
        exact hstop.resolve_left (by simp)
      rw [hc, hd, List.takeWhile_append_of_pos hall,
        List.takeWhile_append_of_pos (by simpa using hall)]
      simp [hq', hnewline]
    · rw [hc, hd, List.takeWhile_append, List.takeWhile_append, List.takeWhile_map, hmap,
        List.length_map, List.length_map]
      have hne : (ts.takeWhile (q ·.kind)).length ≠ ts.length := by
        intro hlen
        apply hall
        have hts := (List.takeWhile_prefix (fun t : Token => q t.kind)).eq_of_length hlen
        rw [← hts]
        exact List.all_eq_true.1 List.all_takeWhile
      rw [if_neg hne, if_neg hne]
  have hdrop := @List.drop_left Token (d.rest.takeWhile (q ·.kind)) (d.rest.dropWhile (q ·.kind))
  rw [List.takeWhile_append_dropWhile, htake, List.length_map] at hdrop
  have hpass := h.pass (settled_takeWhile hq c.rest) (c.passes_past q).rest
  rw [hdrop, ← htake] at hpass
  exact hpass

end Pair

end Seam

/-! ## Parsers before the seam -/

namespace Parser

variable {α β : Type} {w : Seam} {n' : Nat} {s : Start} {φ : α → α} {k : α → Bool} {p p' : Parser α}

/-- What the first parser reads without an error in the text alone, the second reads in the longer
one; or the text ends in an open `if`, the first parser has reached its end, and the second fails. -/
def Shadows (w : Seam) (n' : Nat) (s : Start) (φ : α → α) (p p' : Parser α) : Prop :=
  ∀ c d : Cursor, w.Pair c d → s.At c → s.Room n' d → (s.passed = true → c.previous ≠ none) →
    ∀ a t, p c = .done a t → t.errors = [] →
      (∃ u, p' d = .done (φ a) u ∧ w.Pair t u) ∨
        (EndsInOpenIf w.tokens ∧ t.rest = [w.stop] ∧ ∃ e u, p' d = .exit e u)

theorem Moves.previous_ne_none (h : Moves s k p) {c t : Cursor} {a : α}
    (hf : c.final.kind.isEnd = true) (hs : s.At c) (hp : p c = .done a t)
    (hk : k a = true ∨ c.previous ≠ none) : t.previous ≠ none := by
  obtain ⟨passed, hc, hpassed⟩ := h.done hf hs hp
  rw [hc.previous, ne_eq, Option.or_eq_none_iff, List.getLast?_eq_none_iff]
  rintro ⟨hnil, hnone⟩
  exact hk.elim (fun ha => hpassed ha hnil) (fun hne => hne hnone)

/-- A parser that ends with a result at the end of the text stays there. -/
theorem Moves.rest_of_stop (h : Moves s k p) {c t : Cursor} {a : α}
    (hf : c.final.kind.isEnd = true) (hs : s.At c) (hp : p c = .done a t) (ht : t.errors = [])
    (hc : c.rest = [w.stop]) : t.rest = [w.stop] := by
  obtain ⟨passed, hpassed, -⟩ := h.done hf hs hp
  cases passed with
  | nil => rw [← hc, hpassed.rest]; rfl
  | cons x xs =>
    have hx := hpassed.endless ht _ (hpassed.peek_mem (List.cons_ne_nil x xs))
    rw [Seam.Pair.peek_of_rest hc, w.stop_isEnd] at hx
    cases hx

theorem Moves.errors_of_done (h : Moves s k p) {c t : Cursor} {a : α}
    (hf : c.final.kind.isEnd = true) (hs : s.At c) (hp : p c = .done a t) (ht : t.errors = []) :
    c.errors = [] := by
  obtain ⟨passed, hc, -⟩ := h.done hf hs hp
  exact hc.errors_eq_nil ht

/-- There is room behind a parser in the longer text when there is room in the text alone. -/
theorem Moves.room_of_pair {c d t u : Cursor} {a : α} (hm : Moves s k p) (h : w.Pair c d)
    (h' : w.Pair t u) (hs : s.At c) (hr : s.Room n' d) (hp : p c = .done a t)
    (hk : (s.passed || k a) = true) : Start.inside.Room n' u := by
  have hd := h.length
  have hu := h'.length
  have hroom : d.rest.length + s.passed.toNat ≤ n' := hr
  have hc : s.Room (n' - w.more.length) c := by
    show c.rest.length + s.passed.toNat ≤ _
    omega
  have := (hm.room h.final hs hc hp hk).lt
  apply Start.room_inside
  omega

namespace Shadows

theorem weaken {s' : Start} {i : Nat} (h : Shadows w n' s φ p p') (hs : ∀ c, s'.At c → s.At c)
    (hr : ∀ c, s'.Room i c → s.Room n' c) (hp : s.passed = true → s'.passed = true) :
    Shadows w i s' φ p p' :=
  fun c d hpair hc hroom hprev => h c d hpair (hs c hc) (hr d hroom) fun hs' => hprev (hp hs')

theorem pure {a a' : α} (h : φ a = a') :
    Shadows w n' s φ (Pure.pure a : Parser α) (Pure.pure a' : Parser α) := by
  subst h
  rintro c d hpair - - - _ _ ⟨⟩ -
  exact .inl ⟨d, rfl, hpair⟩

theorem leave (e : SyntaxError) (q : Parser α) :
    Shadows w n' s φ (Routine.leave e : Parser α) q := by
  rintro c d - - - - _ _ ⟨⟩

theorem giveUp (q : Parser α) : Shadows w n' s φ (Routine.giveUp : Parser α) q := by
  rintro c d - - - - _ _ ⟨⟩

theorem bind {ψ : β → β} {l : α → β → Bool} {f f' : α → Parser β} (hx : Shadows w n' s φ p p')
    (hm : Moves s k p) (hk : ∀ a, (s.passed || k a) = true)
    (hf : ∀ a, Shadows w n' .inside ψ (f a) (f' (φ a))) (hmf : ∀ a, Moves .inside (l a) (f a)) :
    Shadows w n' s ψ (p >>= f) (p' >>= f') := by
  intro c d hpair hs hr hprev b t h ht
  obtain ⟨a, t₀, hp, hfa⟩ := Routine.bind_eq_done.1 h
  have hfinal := hm.final hpair.final hs hp
  have ht₀ := (hmf a).errors_of_done hfinal (Start.at_inside t₀) hfa ht
  obtain ⟨u₀, hp', hpair₀⟩ | ⟨hopen, hend, e, u₀, hp'⟩ := hx c d hpair hs hr hprev a t₀ hp ht₀
  · have hprev₀ : t₀.previous ≠ none := by
      apply hm.previous_ne_none hpair.final hs hp
      have := hk a
      rw [Bool.or_eq_true] at this
      exact this.symm.imp_right hprev
    have hstep := hf a t₀ u₀ hpair₀ (Start.at_inside t₀) (hm.room_of_pair hpair hpair₀ hs hr hp (hk a))
      (fun _ => hprev₀) b t hfa ht
    rwa [Routine.bind_apply, hp']
  · refine .inr ⟨hopen, (hmf a).rest_of_stop hfinal (Start.at_inside t₀) hfa ht hend, e, u₀, ?_⟩
    rw [Routine.bind_apply, hp']

/-- Looking at the next token before it is passed: there is one. -/
theorem look {f f' : Token → Parser α}
    (h : ∀ t, Shadows w n' (s.before t.kind) φ (f t) (f' (t.relocated w.move)))
    (hm : ∀ t, Moves (s.before t.kind) always (f t)) :
    Shadows w n' s φ (Parser.peek >>= f) (Parser.peek >>= f') := by
  intro c d hpair _ hr hprev a t hp ht
  cases hend : c.peek.kind.isEnd with
  | false =>
    show (∃ u, f' d.peek d = _ ∧ _) ∨ (_ ∧ _ ∧ ∃ e u, f' d.peek d = _)
    rw [hpair.peek hend]
    exact h c.peek c d hpair (s.at_before c) hr hprev a t hp ht
  | true => cases (hm c.peek).not_done_at_end hpair.final (s.at_before c) hend hp ht

/-- Looking at the next token without passing it: the end of the text and a newline have to mean the
same. -/
theorem glance {f f' : TokenKind → Parser α}
    (h : ∀ kind, Shadows w n' (s.before kind) φ (f kind) (f' kind))
    (heq : f' (.mark .newline) = f' (.mark .endOfText)) :
    Shadows w n' s φ (Parser.peekKind >>= f) (Parser.peekKind >>= f') := by
  intro c d hpair _ hr hprev a t hp ht
  have hkind : f' d.peek.kind = f' c.peek.kind := by
    cases hend : c.peek.kind.isEnd with
    | false => rw [hpair.peek hend]; rfl
    | true =>
      obtain ⟨-, hd⟩ := hpair.rest_of_isEnd hend
      rw [TokenKind.is_iff.1 hend, ← heq, Cursor.peek, hd, List.headD_cons, w.newline_kind]
  show (∃ u, f' d.peek.kind d = _ ∧ _) ∨ (_ ∧ _ ∧ ∃ e u, f' d.peek.kind d = _)
  rw [hkind]
  exact h c.peek.kind c d hpair (s.at_before c) hr hprev a t hp ht

theorem advance {kind : TokenKind} (hk : kind.isPlain = true) :
    Shadows w n' (s.before kind) (Token.relocated w.move) Parser.advance Parser.advance := by
  rintro c d hpair hs - - _ _ ⟨⟩ -
  rw [← hs.kind] at hk
  refine .inl ⟨d.advance, ?_, hpair.advance hk⟩
  show Outcome.done d.peek _ = _
  rw [hpair.peek (TokenKind.isPlain_iff.1 hk).1]

/-- Marks are passed alike as long as a newline is not among them. -/
theorem skip {marks : List Mark}
    (hm : ∀ kind : TokenKind, kind.isOneOf marks = true → kind.isPlain = true)
    (hn : TokenKind.isOneOf (.mark .newline) marks = false) :
    Shadows w n' s id (Parser.skip marks) (Parser.skip marks) := by
  rintro c d hpair - - - _ _ ⟨⟩ -
  refine .inl ⟨d.skip marks, rfl, ?_⟩
  rw [Cursor.skip_eq, Cursor.skip_eq]
  exact hpair.past hm (.inr hn)

/-- Marks with newlines among them are passed alike if what comes next cannot be the end. -/
theorem skipThen {marks : List Mark} {f f' : TokenKind → Parser α}
    (hm : ∀ kind : TokenKind, kind.isOneOf marks = true → kind.isPlain = true)
    (h : ∀ kind, Shadows w n' (Start.inside.before kind) φ (f kind) (f' kind))
    (hend : ∀ kind, kind.isEnd = true → Moves (Start.inside.before kind) always (f kind)) :
    Shadows w n' .inside φ (Parser.skip marks >>= fun _ => Parser.peekKind >>= f)
      (Parser.skip marks >>= fun _ => Parser.peekKind >>= f') := by
  intro c d hpair _ hr hprev a t hp ht
  have hmoves : Moves .inside never (Parser.skip marks) :=
    .skip rfl fun kind hk => (TokenKind.isPlain_iff.1 (hm kind hk)).1
  have hskip : Parser.skip marks c = .done () (c.skip marks) := rfl
  cases he : (c.skip marks).peek.kind.isEnd with
  | false =>
    have hpair' : w.Pair (c.skip marks) (d.skip marks) := by
      rw [Cursor.skip_eq, Cursor.skip_eq]
      rw [Cursor.skip_eq] at he
      exact hpair.past hm (.inl he)
    show (∃ u, f' (d.skip marks).peek.kind (d.skip marks) = _ ∧ _) ∨
      (_ ∧ _ ∧ ∃ e u, f' (d.skip marks).peek.kind (d.skip marks) = _)
    rw [hpair'.peek he]
    refine h _ _ _ hpair' (Start.at_before .inside _)
      (hmoves.room_of_pair hpair hpair' (Start.at_inside c) hr hskip rfl) (fun _ => ?_) a t hp ht
    exact hmoves.previous_ne_none hpair.final (Start.at_inside c) hskip (.inr (hprev rfl))
  | true =>
    have hfinal := hmoves.final hpair.final (Start.at_inside c) hskip
    cases (hend _ he).not_done_at_end hfinal (Start.at_before .inside _) he hp ht

theorem nextUnnamed : Shadows w n' s w.move.number Parser.nextUnnamed Parser.nextUnnamed := by
  rintro c d hpair - - - _ _ ⟨⟩ -
  refine .inl ⟨{ d with unnamed := d.unnamed + 1 }, ?_, ?_⟩
  · show Outcome.done d.unnamed _ = _
    rw [hpair.unnamed]
  have hsucc : d.unnamed + 1 = w.move.number (c.unnamed + 1) := by
    rw [hpair.unnamed, w.move.number_succ]
  obtain ⟨passed, hp⟩ := hpair.reached
  exact { hpair with
    unnamed := hsucc
    reached := ⟨passed, hp.rest, hp.previous, hp.final, hp.errors⟩ }

theorem locationFrom (start : Location) :
    Shadows w n' .inside w.move.place (Parser.locationFrom start)
      (Parser.locationFrom (w.move.place start)) := by
  rintro c d hpair - - - _ _ ⟨⟩ -
  refine .inl ⟨d, congrArg (Outcome.done · d) ?_, hpair⟩
  show d.locationFrom (w.move.place start) = w.move.place (c.locationFrom start)
  rw [Cursor.locationFrom, Cursor.locationFrom, hpair.previous]
  cases c.previous with
  | none => rfl
  | some t => exact (w.move.place_upTo _ _).symm

theorem iterate_of_le {ψ : β → β} {step step' : β → Parser (β ⊕ α)}
    (h : ∀ b, Shadows w n' .inside (Sum.map ψ φ) (step b) (step' (ψ b)))
    (hm : ∀ b, Moves .inside (onward k) (step b)) (j j' : Nat) (hj : j ≤ j') (b : β) :
    Shadows w n' .inside φ (Routine.iterate step j b) (Routine.iterate step' j' (ψ b)) := by
  intro c d hpair hs hr hprev a t hp ht
  induction j generalizing j' b c d with
  | zero => cases hp
  | succ j ih =>
    obtain ⟨i, rfl⟩ : ∃ i, j' = i + 1 := ⟨j' - 1, by omega⟩
    rw [Routine.iterate_succ] at hp
    rw [Routine.iterate_succ]
    cases hstep : step b c with
    | done r t₀ =>
      rw [hstep] at hp
      have hfinal := (hm b).final hpair.final hs hstep
      have hprev₀ := (hm b).previous_ne_none hpair.final hs hstep (.inr (hprev rfl))
      cases r with
      | inl b' =>
        have hloop := Moves.iterate hm j b'
        have ht₀ := hloop.errors_of_done hfinal (Start.at_inside t₀) hp ht
        obtain ⟨u₀, hp', hpair₀⟩ | ⟨hopen, hend, e, u₀, hp'⟩ :=
          h b c d hpair hs hr hprev _ t₀ hstep ht₀
        · rw [hp']
          exact ih i (by omega) b' t₀ u₀ hpair₀ (Start.at_inside t₀)
            ((hm b).room_of_pair hpair hpair₀ hs hr hstep rfl) (fun _ => hprev₀) hp
        · rw [hp']
          exact .inr ⟨hopen, hloop.rest_of_stop hfinal (Start.at_inside t₀) hp ht hend, e, u₀,
            rfl⟩
      | inr a' =>
        cases hp
        obtain ⟨u₀, hp', hpair₀⟩ | ⟨hopen, hend, e, u₀, hp'⟩ :=
          h b c d hpair hs hr hprev _ t hstep ht
        · rw [hp']
          exact .inl ⟨u₀, rfl, hpair₀⟩
        · rw [hp']
          exact .inr ⟨hopen, hend, e, u₀, rfl⟩
    | exit | exhausted => rw [hstep] at hp; cases hp

end Shadows

end Parser

end BrightScript
