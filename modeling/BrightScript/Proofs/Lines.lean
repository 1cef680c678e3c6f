import BrightScript.Proofs.Unplaced

/-!
# Lines of a body

The statements of a body stand on one line, with colons between them, or below one another. Either
way they are read in turn: `ReadsLine` is what a step of the loop over them does, and `ReadsBodies`
says that the loop gives their trees, in order.
-/

namespace BrightScript

variable {kind : TokenKind} {m separator : Mark} {terminators : List Mark}

open BrightScript.Parser

/-! ## Bodies -/

namespace Line

def numberedAll : List Line → Nat → List Statement
  | [], _ => []
  | l :: rest, unnamed => l.numbered unnamed :: numberedAll rest (unnamed + l.count)

def countAll : List Line → Nat
  | [] => 0
  | l :: rest => l.count + countAll rest

def behind (separator : Mark) (body : List Line) : List TokenKind :=
  body.flatMap (.mark separator :: ·.kinds)

/-- The statements of one line, with colons between them. -/
def inline : List Line → List TokenKind
  | [] => []
  | l :: rest => l.kinds ++ behind .colon rest

def below (body : List Line) : List TokenKind :=
  behind .newline body ++ [.mark .newline]

theorem length_pos (l : Line) : 0 < l.kinds.length := by
  obtain ⟨kind, more, h, -⟩ := l.exists_first
  rw [h]
  exact Nat.succ_pos _

theorem length_le_behind {body : List Line} :
    body.length ≤ (behind separator body).length ∧
      ∀ l ∈ body, l.kinds.length ≤ (behind separator body).length := by
  induction body with
  | nil => simp
  | cons l rest ih =>
    have hlength : (behind separator (l :: rest)).length =
        l.kinds.length + 1 + (behind separator rest).length := by
      rw [behind, List.flatMap_cons, List.length_append]
      rfl
    rw [hlength, List.length_cons]
    refine ⟨by omega, fun l' hl => ?_⟩
    obtain rfl | hl := List.mem_cons.1 hl
    · omega
    · have := ih.2 l' hl
      omega

end Line

theorem TokenKind.isOneOf_of_not_closes {marks : List Mark} (h : kind.closes = false)
    (hm : ∀ m ∈ marks, m ∈ closers) : kind.isOneOf marks = false := by
  refine Bool.eq_false_iff.2 fun hone => ?_
  obtain ⟨m, hmem, rfl⟩ := isOneOf_iff.1 hone
  rw [closes, isOneOf_iff.2 ⟨m, hm m hmem, rfl⟩] at h
  cases h

theorem TokenKind.isEnd_of_not_closes (h : kind.closes = false) : kind.isEnd = false := by
  refine Bool.eq_false_iff.2 fun hend => ?_
  rw [is_iff.1 hend] at h
  cases h

theorem Line.skip (l : Line) (marks separators : List Mark) (hm : ∀ m ∈ marks, m ∈ closers)
    (hs : ∀ m ∈ separators, m ∈ marks) (more : List TokenKind) (previous : Option TokenKind)
    (unnamed : Nat) :
    ∃ previous', (Cursor.unplaced (separators.map .mark ++ (l.kinds ++ more)) previous unnamed).skip
        marks = .unplaced (l.kinds ++ more) previous' unnamed := by
  obtain ⟨kind, rest, hkinds, hcloses⟩ := l.exists_first
  rw [hkinds]
  exact Cursor.skip_unplaced hs (TokenKind.isOneOf_of_not_closes hcloses hm) (rest ++ more) previous
    unnamed

theorem Line.closes_peek (l : Line) (more : List TokenKind) (previous : Option TokenKind)
    (unnamed : Nat) :
    (Cursor.unplaced (l.kinds ++ more) previous unnamed).peek.kind.closes = false := by
  obtain ⟨kind, rest, hkinds, hcloses⟩ := l.exists_first
  rw [hkinds]
  exact hcloses

theorem Line.behind_ends (hs : separator ∈ statementEnds) (rest : List Line)
    (hkind : kind.isOneOf statementEnds = true) (more : List TokenKind) :
    ∃ next others, behind separator rest ++ kind :: more = next :: others ∧
      next.isOneOf statementEnds = true := by
  cases rest with
  | nil => exact ⟨kind, more, rfl, hkind⟩
  | cons l rest => exact ⟨.mark separator, _, rfl, TokenKind.isOneOf_iff.2 ⟨separator, hs, rfl⟩⟩

/-! ## Loops over statements -/

namespace Parser

variable {n : Nat} {step : List Statement → Parser (List Statement ⊕ List Statement)}

/-- The step of a loop over statements reads a line behind some separators. -/
def ReadsLine (n : Nat) (separators : List Mark)
    (step : List Statement → Parser (List Statement ⊕ List Statement)) : Prop :=
  ∀ (l : Line) (found : List Statement) (kind : TokenKind) (more : List TokenKind)
    (previous : Option TokenKind) (unnamed : Nat),
    l.kinds.length + 2 ≤ n → kind.isOneOf statementEnds = true →
    ∃ previous', step found
        (.unplaced (separators.map .mark ++ (l.kinds ++ kind :: more)) previous unnamed) =
      .done (.inl (l.numbered unnamed :: found))
        (.unplaced (kind :: more) previous' (unnamed + l.count))

/-- A loop goes through lines behind a separator each. -/
theorem ReadsLine.iterate (h : ReadsLine n [separator] step) (hs : separator ∈ statementEnds)
    (body : List Line) (hn : ∀ l ∈ body, l.kinds.length + 2 ≤ n) (budget : Nat)
    (found : List Statement) (hkind : kind.isOneOf statementEnds = true) (more : List TokenKind)
    (previous : Option TokenKind) (unnamed : Nat) :
    ∃ previous', Routine.iterate step (body.length + budget) found
        (.unplaced (Line.behind separator body ++ kind :: more) previous unnamed) =
      Routine.iterate step budget ((Line.numberedAll body unnamed).reverse ++ found)
        (.unplaced (kind :: more) previous' (unnamed + Line.countAll body)) := by
  induction body generalizing found previous unnamed with
  | nil => exact ⟨previous, by rw [List.length_nil, Nat.zero_add]; rfl⟩
  | cons l rest ih =>
    obtain ⟨next, others, hnext, hends⟩ := Line.behind_ends hs rest hkind more
    obtain ⟨previous₁, hstep⟩ :=
      h l found next others previous unnamed (hn l List.mem_cons_self) hends
    obtain ⟨previous₂, hloop⟩ := ih (fun l' hl => hn l' (List.mem_cons_of_mem l hl))
      (l.numbered unnamed :: found) previous₁ (unnamed + l.count)
    refine ⟨previous₂, ?_⟩
    have htokens : Line.behind separator (l :: rest) ++ kind :: more =
        [separator].map .mark ++ (l.kinds ++ next :: others) := by
      rw [← hnext, Line.behind, List.flatMap_cons, List.append_assoc]
      rfl
    rw [hnext] at hloop
    rw [List.length_cons, Nat.add_right_comm, htokens, Routine.iterate_succ, hstep]
    dsimp only
    rw [hloop, Line.numberedAll, Line.countAll, List.reverse_cons, List.append_assoc, Nat.add_assoc]
    rfl

end Parser

/-! ## Statements on one line -/

def lineEnds : List Mark :=
  [.newline, .endOfText, .elseWord, .elseIf, .endIf]

section
variable {n : Nat}

theorem inlineStep_apply (g : Grammar) (found : List Statement) (c : Cursor) :
    g.inlineStep found c =
      (if (c.skip [.colon]).peek.kind.isOneOf lineEnds = true then pure (.inr found.reverse)
      else g.statement >>= fun st => pure (.inl (st :: found)) :
        Parser (List Statement ⊕ List Statement)) (c.skip [.colon]) :=
  rfl

theorem readsLine_inlineStep {separators : List Mark} (hs : ∀ m ∈ separators, m ∈ [Mark.colon]) :
    ReadsLine n separators (Grammar.ofBudget n).inlineStep := by
  intro l found kind more previous unnamed hn hkind
  obtain ⟨previous₁, hskip⟩ := l.skip [.colon] separators (by decide) hs (kind :: more) previous
    unnamed
  obtain ⟨previous₂, hread⟩ := l.among hn unnamed previous₁ hkind more
  have hgo : (Cursor.unplaced (l.kinds ++ kind :: more) previous₁ unnamed).peek.kind.isOneOf
      lineEnds = false := TokenKind.isOneOf_of_not_closes (l.closes_peek ..) (by decide)
  refine ⟨previous₂, ?_⟩
  rw [inlineStep_apply, hskip, hgo, if_neg Bool.false_ne_true, Routine.bind_apply, hread]
  rfl

/-- Either way to read a body: the lines are read up to one of some marks. -/
def ReadsBodies (n : Nat) (layout : List Line → List TokenKind) (ends : List Mark)
    (p : Parser Block) : Prop :=
  ∀ (body : List Line) (m : Mark) (more : List TokenKind) (previous : Option TokenKind)
    (unnamed : Nat), m ∈ ends → (layout body).length + 2 ≤ n →
    ∃ previous', p (.unplaced (layout body ++ .mark m :: more) previous unnamed) =
      .done ⟨Line.numberedAll body unnamed, .builtin⟩
        (.unplaced (.mark m :: more) previous' (unnamed + Line.countAll body))

theorem spanned_unplaced {statements : Parser (List Statement)} {kinds kinds' : List TokenKind}
    {previous previous' : Option TokenKind} {unnamed unnamed' : Nat} {found : List Statement}
    (h : statements (.unplaced kinds previous unnamed) =
      .done found (.unplaced kinds' previous' unnamed')) :
    Grammar.spanned statements (.unplaced kinds previous unnamed) =
      .done ⟨found, .builtin⟩ (.unplaced kinds' previous' unnamed') := by
  rw [Grammar.spanned, here_bind, Routine.bind_apply, Parser.peek, Routine.view_apply]
  dsimp only
  rw [Routine.bind_apply, h, Cursor.location_peek_unplaced]
  dsimp only
  rw [Routine.bind_apply, Parser.locationFrom, Routine.view_apply]
  dsimp only
  rw [Cursor.locationFrom_unplaced]
  rfl

theorem inlineStep_stop (g : Grammar) (found : List Statement) (hm : m ∈ lineEnds)
    (more : List TokenKind) (previous : Option TokenKind) (unnamed : Nat) :
    g.inlineStep found (.unplaced (.mark m :: more) previous unnamed) =
      .done (.inr found.reverse) (.unplaced (.mark m :: more) previous unnamed) := by
  have hstay : TokenKind.isOneOf (.mark m) [.colon] = false := by
    revert m
    decide
  have hskip : (Cursor.unplaced (.mark m :: more) previous unnamed).skip [.colon] =
      .unplaced (.mark m :: more) previous unnamed := by
    simp [Cursor.skip, Cursor.unplaced, unplaced, Cursor.skipTokens, hstay]
  have hstop : TokenKind.isOneOf (.mark m) lineEnds = true := TokenKind.isOneOf_iff.2 ⟨m, hm, rfl⟩
  rw [inlineStep_apply, hskip, Cursor.peek_unplaced, hstop, if_pos rfl]
  rfl

theorem iterate_inlineStep {budget : Nat} (body : List Line) (hm : m ∈ lineEnds)
    (hn : (Line.inline body).length + 2 ≤ n) (hb : (Line.inline body).length + 2 ≤ budget)
    (more : List TokenKind) (previous : Option TokenKind) (unnamed : Nat) :
    ∃ previous', Routine.iterate (Grammar.ofBudget n).inlineStep budget []
        (.unplaced (Line.inline body ++ .mark m :: more) previous unnamed) =
      .done (Line.numberedAll body unnamed)
        (.unplaced (.mark m :: more) previous' (unnamed + Line.countAll body)) := by
  have hends : TokenKind.isOneOf (.mark m) statementEnds = true := by
    revert m
    decide
  have hcolon : Mark.colon ∈ statementEnds := by decide
  cases body with
  | nil =>
    obtain ⟨i, rfl⟩ : ∃ i, budget = i + 1 := ⟨budget - 1, by omega⟩
    refine ⟨previous, ?_⟩
    rw [Line.inline, List.nil_append, Routine.iterate_succ, inlineStep_stop _ _ hm]
    rfl
  | cons l rest =>
    obtain ⟨hcount, hlines⟩ := @Line.length_le_behind .colon rest
    have hlength : (Line.inline (l :: rest)).length =
        l.kinds.length + (Line.behind .colon rest).length := List.length_append
    have hpos := l.length_pos
    obtain ⟨i, rfl⟩ : ∃ i, budget = rest.length + (i + 1) + 1 :=
      ⟨budget - rest.length - 2, by omega⟩
    -- the first statement has no colon before it
    have hstep : ReadsLine n [] (Grammar.ofBudget n).inlineStep := readsLine_inlineStep (by decide)
    have hsteps : ReadsLine n [.colon] (Grammar.ofBudget n).inlineStep :=
      readsLine_inlineStep fun _ => id
    obtain ⟨next, others, hnext, hnextEnds⟩ := Line.behind_ends hcolon rest hends more
    obtain ⟨previous₁, hfirst⟩ := hstep l [] next others previous unnamed (by omega) hnextEnds
    have hroom : ∀ l' ∈ rest, l'.kinds.length + 2 ≤ n := by
      intro l' hl
      have := hlines l' hl
      omega
    obtain ⟨previous₂, hloop⟩ := hsteps.iterate hcolon rest hroom (i + 1) [l.numbered unnamed] hends
      more previous₁ (unnamed + l.count)
    refine ⟨previous₂, ?_⟩
    have htokens : Line.inline (l :: rest) ++ .mark m :: more =
        [].map .mark ++ (l.kinds ++ next :: others) := by
      rw [← hnext, Line.inline, List.append_assoc]
      rfl
    rw [hnext] at hloop
    rw [htokens, Routine.iterate_succ, hfirst]
    dsimp only
    rw [hloop, Routine.iterate_succ, inlineStep_stop _ _ hm, Line.numberedAll, Line.countAll,
      List.reverse_append, List.reverse_reverse, Nat.add_assoc]
    rfl

/-- The statements of one line are read up to its end or an `else`. -/
theorem readsBodies_inlineBlock :
    ReadsBodies n Line.inline lineEnds ((Grammar.ofBudget n).inlineBlock n) := by
  intro body m more previous unnamed hm hn
  obtain ⟨previous', h⟩ := iterate_inlineStep body hm hn hn more previous unnamed
  exact ⟨previous', spanned_unplaced h⟩

/-! ## Statements in blocks -/

open Grammar (branchEnds)

theorem readsLine_blockStep (ht : ∀ m ∈ terminators, m ∈ branchEnds) :
    ReadsLine n [.newline] ((Grammar.ofBudget n).blockStep terminators) := by
  intro l found kind more previous unnamed hn hkind
  have hbranch : ∀ m ∈ branchEnds, m ∈ closers := by decide
  obtain ⟨previous₁, hskip⟩ := l.skip [.newline, .colon] [.newline] (by decide) (by decide)
    (kind :: more) previous unnamed
  obtain ⟨previous₂, hread⟩ := l.among hn unnamed previous₁ hkind more
  have hfirst := l.closes_peek (kind :: more) previous₁ unnamed
  refine ⟨previous₂, blockStep_go ?_ ?_ ?_ ?_⟩
  · rw [hskip]
    exact TokenKind.isOneOf_of_not_closes hfirst fun m hm => hbranch m (ht m hm)
  · rw [hskip]
    exact TokenKind.isEnd_of_not_closes hfirst
  · rw [hskip]
    exact hread
  · obtain ⟨m, hm, hmark⟩ := TokenKind.isOneOf_iff.1 hkind
    exact TokenKind.isOneOf_iff.2 ⟨m, List.mem_append_left _ hm, hmark⟩

/-- The newline behind the last line is passed, and the terminator ends the block. -/
theorem blockStep_last (g : Grammar) (found : List Statement)
    (ht : ∀ m ∈ terminators, m ∈ branchEnds) (hm : m ∈ terminators) (more : List TokenKind)
    (previous : Option TokenKind) (unnamed : Nat) :
    ∃ previous', g.blockStep terminators found
        (.unplaced (.mark .newline :: .mark m :: more) previous unnamed) =
      .done (.inr found.reverse) (.unplaced (.mark m :: more) previous' unnamed) := by
  have hbranch : ∀ m ∈ branchEnds, TokenKind.isOneOf (.mark m) [.newline, .colon] = false := by
    decide
  have hnewline : ∀ m ∈ [Mark.newline], m ∈ [Mark.newline, .colon] := by decide
  obtain ⟨previous', hskip⟩ := Cursor.skip_unplaced hnewline (hbranch m (ht m hm)) more previous
    unnamed
  refine ⟨previous', ?_⟩
  rw [← hskip]
  refine blockStep_stop ?_
  have hskip : (Cursor.unplaced (.mark .newline :: .mark m :: more) previous unnamed).skip
    [.newline, .colon] = _ := hskip
  rw [hskip]
  exact TokenKind.isOneOf_iff.2 ⟨m, hm, rfl⟩

theorem iterate_blockStep {budget : Nat} (ht : ∀ m ∈ terminators, m ∈ branchEnds) (body : List Line)
    (hm : m ∈ terminators) (hn : (Line.below body).length + 2 ≤ n)
    (hb : (Line.below body).length + 2 ≤ budget) (more : List TokenKind)
    (previous : Option TokenKind) (unnamed : Nat) :
    ∃ previous', Routine.iterate ((Grammar.ofBudget n).blockStep terminators) budget []
        (.unplaced (Line.below body ++ .mark m :: more) previous unnamed) =
      .done (Line.numberedAll body unnamed)
        (.unplaced (.mark m :: more) previous' (unnamed + Line.countAll body)) := by
  have hnewline : TokenKind.isOneOf (.mark .newline) statementEnds = true := rfl
  have hlength : (Line.below body).length = (Line.behind .newline body).length + 1 :=
    List.length_append
  obtain ⟨hcount, hlines⟩ := @Line.length_le_behind .newline body
  obtain ⟨i, rfl⟩ : ∃ i, budget = body.length + (i + 1) := ⟨budget - body.length - 1, by omega⟩
  have hsteps : ReadsLine n [.newline] ((Grammar.ofBudget n).blockStep terminators) :=
    readsLine_blockStep ht
  have hroom : ∀ l ∈ body, l.kinds.length + 2 ≤ n := by
    intro l hl
    have := hlines l hl
    omega
  obtain ⟨previous₁, hloop⟩ := hsteps.iterate (by decide) body hroom (i + 1) [] hnewline
    (.mark m :: more) previous unnamed
  obtain ⟨previous₂, hlast⟩ := blockStep_last (Grammar.ofBudget n)
    ((Line.numberedAll body unnamed).reverse ++ []) ht hm more previous₁
    (unnamed + Line.countAll body)
  refine ⟨previous₂, ?_⟩
  rw [Line.below, List.append_assoc, List.singleton_append, hloop, Routine.iterate_succ, hlast,
    List.append_nil, List.reverse_reverse]

theorem readsBodies_block (ht : ∀ m ∈ terminators, m ∈ branchEnds) :
    ReadsBodies n Line.below terminators ((Grammar.ofBudget n).block n terminators) := by
  intro body m more previous unnamed hm hn
  obtain ⟨previous', h⟩ := iterate_blockStep ht body hm hn hn more previous unnamed
  exact ⟨previous', spanned_unplaced h⟩

end

end BrightScript
