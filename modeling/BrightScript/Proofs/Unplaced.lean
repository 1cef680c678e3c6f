import BrightScript.Proofs.Fork.Statement
import BrightScript.Proofs.Tandem.Program

/-!
# Phrases wherever they stand

What a parser reads depends on the kinds of its tokens only, apart from the locations in the result
and the numbers of functions without a name. So a phrase is given by the kinds of its tokens: on its
own, as a text without places, it is read up to the end. `Line` is such a simple statement and
`Guard` such an expression. Each is then read the same inside a longer text, before any mark that
ends it.
-/

namespace BrightScript

variable {kind : TokenKind} {n : Nat} {c : Cursor}

/-! ## Texts without places -/

/-- The relocation that forgets where things stand. -/
def Relocation.forgetting : Relocation :=
  { inPlace with
    place _ := .builtin
    place_union _ _ := rfl
    place_upTo _ _ := rfl }

/-- The relocation that forgets where things stand and numbers functions behind some others. -/
def Relocation.forgettingAfter (count : Nat) : Relocation :=
  { after 0 0 count with
    place := forgetting.place
    place_union := forgetting.place_union
    place_upTo := forgetting.place_upTo }

/-- Tokens of some kinds without a place. -/
def unplaced (kinds : List TokenKind) : List Token :=
  kinds.map (⟨·, .builtin⟩)

namespace Cursor

/-- A cursor before tokens without a place, by their kinds, the kind of the token passed last and
the number of functions without a name met so far. -/
def unplaced (kinds : List TokenKind) (previous : Option TokenKind) (unnamed : Nat) : Cursor :=
  ⟨BrightScript.unplaced kinds, previous.map (⟨·, .builtin⟩), ⟨.mark .endOfText, .builtin⟩, [],
    unnamed⟩

variable {kinds : List TokenKind} {previous : Option TokenKind} {unnamed : Nat}

theorem peek_unplaced : (unplaced (kind :: kinds) previous unnamed).peek = ⟨kind, .builtin⟩ :=
  rfl

theorem location_peek_unplaced : (unplaced kinds previous unnamed).peek.location = .builtin := by
  cases kinds <;> rfl

theorem locationFrom_unplaced :
    (unplaced kinds previous unnamed).locationFrom .builtin = .builtin := by
  cases previous <;> rfl

theorem followedBy_unplaced (kinds more : List TokenKind) (previous : Option TokenKind)
    (unnamed : Nat) :
    (unplaced kinds previous unnamed).followedBy (BrightScript.unplaced more) =
      unplaced (kinds ++ more) previous unnamed := by
  simp [followedBy, unplaced, BrightScript.unplaced]

theorem relocated_unplaced (count : Nat) :
    (unplaced kinds previous unnamed).relocated (.forgettingAfter count) =
      unplaced kinds previous (unnamed + count) := by
  have htoken : Token.relocated (.forgettingAfter count) ∘ (⟨·, .builtin⟩) = (⟨·, .builtin⟩) :=
    funext fun _ => rfl
  simp only [relocated, unplaced, BrightScript.unplaced, List.map_map, Option.map_map, htoken]
  rfl

/-- Tokens of some kinds come next, and then the text ends; there has been no error. -/
structure Sees (c : Cursor) (kinds : List TokenKind) : Prop where
  rest : c.rest.map Token.kind = kinds
  final : c.final.kind = .mark .endOfText
  errors : c.errors = []

theorem Sees.relocated (h : c.Sees kinds) :
    c.relocated .forgetting = unplaced kinds (c.previous.map Token.kind) c.unnamed := by
  obtain ⟨rest, previous, ⟨kind, location⟩, errors, unnamed⟩ := c
  obtain ⟨rfl, rfl, rfl⟩ := h
  simp only [Cursor.relocated, unplaced, BrightScript.unplaced, List.map_map, Option.map_map]
  rfl

theorem sees_of_relocated (h : c.relocated .forgetting = unplaced kinds previous unnamed) :
    c.Sees kinds ∧ c.unnamed = unnamed := by
  obtain ⟨rest, previous', ⟨kind, location⟩, errors, unnamed'⟩ := c
  simp only [Cursor.relocated, unplaced, BrightScript.unplaced, Cursor.mk.injEq] at h
  obtain ⟨hrest, -, hfinal, herrors, hunnamed⟩ := h
  refine ⟨⟨?_, congrArg Token.kind hfinal, List.map_eq_nil_iff.1 herrors⟩, hunnamed⟩
  have := congrArg (List.map Token.kind) hrest
  simpa [Function.comp_def] using this

/-- The separators at the front are passed. -/
theorem skip_unplaced {marks separators : List Mark} (hs : ∀ m ∈ separators, m ∈ marks)
    (hk : kind.isOneOf marks = false) (kinds : List TokenKind) (previous : Option TokenKind)
    (unnamed : Nat) :
    ∃ previous', (unplaced (separators.map .mark ++ kind :: kinds) previous unnamed).skip marks =
      unplaced (kind :: kinds) previous' unnamed := by
  induction separators generalizing previous with
  | nil =>
    refine ⟨previous, ?_⟩
    simp [skip, unplaced, BrightScript.unplaced, skipTokens, hk]
  | cons m rest ih =>
    obtain ⟨previous', h⟩ := ih (fun m' hm => hs m' (List.mem_cons_of_mem m hm)) (some (.mark m))
    refine ⟨previous', ?_⟩
    rw [← h]
    have hm : TokenKind.isOneOf (.mark m) marks = true :=
      TokenKind.isOneOf_iff.2 ⟨m, hs m List.mem_cons_self, rfl⟩
    simp [skip, unplaced, BrightScript.unplaced, skipTokens, hm]

end Cursor

/-! ## Phrases on their own -/

open BrightScript.Parser

/-- On its own a phrase of tokens of some kinds is read up to the end of the text, without an error;
so many functions without a name are met. -/
def ReadAlone {α : Type} (p : Nat → Parser α) (kinds : List TokenKind) (a : α) (count : Nat) :
    Prop :=
  ∃ previous, p (kinds.length + 2) (.unplaced (kinds ++ [.mark .endOfText]) none 0) =
    .done a (.unplaced [.mark .endOfText] previous count)

/-- A text that ends, or goes on with a mark that ends a phrase. -/
def Fork.ofEnd (kind : TokenKind) (more : List TokenKind) (h : kind.closes = true) : Fork where
  left := unplaced [.mark .endOfText]
  right := unplaced (kind :: more)
  left_closes := ⟨_, _, rfl, rfl⟩
  right_closes := ⟨_, _, rfl, h⟩

theorem Fork.reach_ofEnd (more : List TokenKind) (h : kind.isOneOf statementEnds = true) :
    (Fork.ofEnd kind more (TokenKind.closes_of_ends h)).reach = 0 := by
  have hends : (Fork.ofEnd kind more (TokenKind.closes_of_ends h)).ends = true := by
    show (true && (kind.isOneOf statementEnds && true)) = true
    rw [h]
    rfl
  rw [Fork.reach, hends]
  rfl

/-- A phrase is read in a longer text as it is on its own. -/
theorem ReadAlone.among {α : Type} {p : Nat → Parser α} {φ : Relocation → α → α}
    {kinds more : List TokenKind} {a : α} {count : Nat} {hkind : kind.closes = true} {k : α → Nat}
    (h : ReadAlone p kinds a count) (unnamed : Nat) (previous : Option TokenKind)
    (hfollows : ∀ m, Follows m (kinds.length + 2) .inside (φ m) (p (kinds.length + 2)) (p n))
    (hforgets : Forgets .anywhere always (p n))
    (hunaware : Unaware (Fork.ofEnd kind more hkind) 1 k (p n))
    (hk : k (φ (.forgettingAfter unnamed) a) = 0) :
    ∃ previous', p n (.unplaced (kinds ++ kind :: more) previous unnamed) =
      .done (φ (.forgettingAfter unnamed) a)
        (.unplaced (kind :: more) previous' (unnamed + count)) := by
  obtain ⟨last, hread⟩ := h
  -- with another number of functions met before
  have hroom : Start.inside.Room (kinds.length + 2)
      (.unplaced (kinds ++ [.mark .endOfText]) none 0) := by
    apply Start.room_inside
    simp [Cursor.unplaced, unplaced]
  obtain ⟨-, hnumbered⟩ := hfollows (.forgettingAfter unnamed)
    (.unplaced (kinds ++ [.mark .endOfText]) none 0) rfl (Start.at_inside _) hroom
  rw [hread, Outcome.relocated, Cursor.relocated_unplaced, Cursor.relocated_unplaced,
    Nat.zero_add] at hnumbered
  -- behind another token
  have hbehind := hforgets rfl _ (previous.map (⟨·, .builtin⟩)) _ _ rfl
    (by rintro kind ⟨⟩) rfl hnumbered
  have halone : p n ((Cursor.unplaced kinds previous unnamed).followedBy
      (Fork.ofEnd kind more hkind).left) = .done (φ (.forgettingAfter unnamed) a)
        (.unplaced [.mark .endOfText] last (count + unnamed)) := by
    rw [← hbehind]
    exact congrArg (p n) (Cursor.followedBy_unplaced kinds [.mark .endOfText] previous unnamed)
  -- before another mark
  obtain ⟨t, ht, -, hright⟩ := hunaware.alike halone rfl (Nat.le_of_eq (congrArg (1 + ·) hk))
  have ht : t = .unplaced [] last (unnamed + count) := by
    apply Cursor.followedBy_injective (unplaced [.mark .endOfText])
    rw [Cursor.followedBy_unplaced, Nat.add_comm]
    exact ht.symm
  refine ⟨last, ?_⟩
  rw [ht] at hright
  rw [← Cursor.followedBy_unplaced]
  exact hright

/-! ## Simple statements -/

theorem Statement.isSimple_relocated (m : Relocation) (s : Statement) :
    (s.relocated m).isSimple = s.isSimple := by
  cases s with
  | declaration name p => rw [Statement.relocated_declaration]; rfl
  | _ => rfl

/-- A simple statement that is read on a line of its own. -/
structure Line where
  kinds : List TokenKind
  statement : Statement
  /-- How many functions without a name it holds. -/
  count : Nat
  read : ReadAlone parseStatement kinds statement count
  simple : statement.isSimple = true

/-- No statement starts with a mark that ends one. -/
theorem statement_ne_done {t : Cursor} {a : Statement} (h : c.peek.kind.closes = true) :
    (Grammar.ofBudget n).statement c ≠ .done a t := by
  have hprimary (g : Grammar) (n : Nat) : ∃ e, g.primary n c = .exit e c := by
    rw [Grammar.primary, Routine.bind_apply, Parser.peek, Routine.view_apply]
    dsimp only
    rcases TokenKind.closes_iff.1 h with h | h | h | h | h | h | h <;> (rw [h]; exact ⟨_, rfl⟩)
  cases n with
  | zero => rintro ⟨⟩
  | succ n =>
    obtain ⟨e, hprimary⟩ := hprimary (Grammar.ofBudget n) n
    have hsimple : (Grammar.ofBudget n).simpleStatement n c = .exit e c := by
      rw [Grammar.simpleStatement, here_bind, Routine.bind_apply, Parser.peek, Routine.view_apply]
      dsimp only
      rw [Routine.bind_apply, Grammar.chain, Routine.bind_apply, hprimary]
    show parseStatement (n + 1) c ≠ _
    rw [parseStatement, Grammar.statementRule, Routine.bind_apply, peekKind, Routine.view_apply]
    rcases TokenKind.closes_iff.1 h with h | h | h | h | h | h | h <;>
      (rw [h]; intro hdone; exact absurd (hsimple.symm.trans hdone) (by rintro ⟨⟩))

namespace Line

/-- The statement without places, where some functions without a name have been met before. -/
def numbered (l : Line) (unnamed : Nat) : Statement :=
  l.statement.relocated (.forgettingAfter unnamed)

theorem exists_first (l : Line) : ∃ kind more, l.kinds = kind :: more ∧ kind.closes = false := by
  obtain ⟨last, hread⟩ := l.read
  have hfirst : (Cursor.unplaced (l.kinds ++ [.mark .endOfText]) none 0).peek.kind.closes = false :=
    Bool.eq_false_iff.2 fun hcloses => statement_ne_done (n := l.kinds.length + 2) hcloses hread
  cases hkinds : l.kinds with
  | nil =>
    rw [hkinds] at hfirst
    cases hfirst
  | cons kind more =>
    rw [hkinds] at hfirst
    exact ⟨kind, more, rfl, hfirst⟩

/-- A line is read before any mark that ends statements as it is on its own. -/
theorem among (l : Line) (hn : l.kinds.length + 2 ≤ n) (unnamed : Nat) (previous : Option TokenKind)
    (hkind : kind.isOneOf statementEnds = true) (more : List TokenKind) :
    ∃ previous', (Grammar.ofBudget n).statement
        (.unplaced (l.kinds ++ kind :: more) previous unnamed) =
      .done (l.numbered unnamed) (.unplaced (kind :: more) previous' (unnamed + l.count)) := by
  obtain ⟨i, rfl⟩ : ∃ i, n = i + 1 := ⟨n - 1, by omega⟩
  have hforgets := (Tandem.statement (Seam.unclosed_nowhere .inPlace) (Nat.le_refl i)).forgets
  have hunaware := (Grammar.Unaware.ofBudget
    (.ofEnd kind more (TokenKind.closes_of_ends hkind)) (i + 1)).statement
  refine l.read.among unnamed previous (fun m => Follows.statement m hn) hforgets hunaware ?_
  rw [Fork.behind, Statement.isSimple_relocated, l.simple, if_pos rfl, Fork.reach_ofEnd more hkind]

end Line

/-! ## Conditions -/

/-- An expression that is read on its own. -/
structure Guard where
  kinds : List TokenKind
  expression : Expr
  /-- How many functions without a name it holds. -/
  count : Nat
  read : ReadAlone (parseExpression · Grammar.anyStrength) kinds expression count

namespace Guard

/-- The expression without places, where some functions without a name have been met before. -/
def numbered (x : Guard) (unnamed : Nat) : Expr :=
  x.expression.relocated (.forgettingAfter unnamed)

/-- A condition is read before a `then` as it is on its own. -/
theorem among (x : Guard) (hn : x.kinds.length + 2 ≤ n) (unnamed : Nat)
    (previous : Option TokenKind) (more : List TokenKind) :
    ∃ previous', (Grammar.ofBudget n).any
        (.unplaced (x.kinds ++ .mark .thenWord :: more) previous unnamed) =
      .done (x.numbered unnamed)
        (.unplaced (.mark .thenWord :: more) previous' (unnamed + x.count)) := by
  obtain ⟨i, rfl⟩ : ∃ i, n = i + 1 := ⟨n - 1, by omega⟩
  have hrule : Tandem (.nowhere .inPlace) i i .anywhere always _ (parseExpression (i + 1) _) _ :=
    (Nested.anywhere .inPlace (Nat.le_refl i)).expressionRule Grammar.anyStrength
  have hunaware := (Grammar.Unaware.ofBudget
    (.ofEnd (.mark .thenWord) more rfl) (i + 1)).expression Grammar.anyStrength
  exact x.read.among unnamed previous (fun m => ((Nested.anywhere m hn).expression _).follows)
    hrule.forgets hunaware rfl

end Guard

end BrightScript
