import BrightScript.Proofs.Lines

/-!
# The two forms of a conditional

A `Choice` is what an `if` says: conditions with the simple statements under each, and what is left
for `else`. It is written on one line, with colons between the statements, or in blocks, with every
statement on a line of its own and an `end if` behind the last one. Both forms are read as one and
the same tree, apart from where its parts stand.

The forms have one grammar for their alternatives and differ only in how the body of a branch is
read. So what is said of the branches holds of any way to read bodies.
-/

namespace BrightScript

open BrightScript.Parser

/-! ## Alternatives -/

/-- A condition and the statements under it. -/
structure Branch where
  guard : Guard
  body : List Line

namespace Branch

/-- The condition, `then`, and the body. -/
def kinds (layout : List Line → List TokenKind) (b : Branch) : List TokenKind :=
  b.guard.kinds ++ .mark .thenWord :: layout b.body

def numbered (b : Branch) (unnamed : Nat) : Clause :=
  ⟨b.guard.numbered unnamed, ⟨Line.numberedAll b.body (unnamed + b.guard.count), .builtin⟩⟩

def count (b : Branch) : Nat :=
  b.guard.count + Line.countAll b.body

/-- Further branches, each behind an `else if`. -/
def others (layout : List Line → List TokenKind) (branches : List Branch) : List TokenKind :=
  branches.flatMap (.mark .elseIf :: ·.kinds layout)

def numberedAll : List Branch → Nat → List Clause
  | [], _ => []
  | b :: rest, unnamed => b.numbered unnamed :: numberedAll rest (unnamed + b.count)

def countAll : List Branch → Nat
  | [] => 0
  | b :: rest => b.count + countAll rest

theorem length_kinds (layout : List Line → List TokenKind) (b : Branch) :
    (b.kinds layout).length = b.guard.kinds.length + ((layout b.body).length + 1) :=
  List.length_append

theorem length_others (layout : List Line → List TokenKind) (b : Branch) (rest : List Branch) :
    (others layout (b :: rest)).length =
      (b.kinds layout).length + 1 + (others layout rest).length := by
  rw [others, List.flatMap_cons, List.length_append]
  rfl

theorem length_le_others {layout : List Line → List TokenKind} {branches : List Branch} :
    branches.length ≤ (others layout branches).length := by
  induction branches with
  | nil => exact Nat.le_refl 0
  | cons b rest ih =>
    rw [length_others, List.length_cons]
    omega

end Branch

variable {more : List TokenKind} {previous : Option TokenKind} {unnamed : Nat}

section
variable {n : Nat}

theorem accept_unplaced (m : Mark) :
    accept m (.unplaced (.mark m :: more) previous unnamed) =
      .done true (.unplaced more (some (.mark m)) unnamed) := by
  have hm : TokenKind.is (.mark m) m = true := TokenKind.is_iff.2 rfl
  rw [accept, Routine.change, Cursor.peek_unplaced, hm]
  rfl

theorem accept_unplaced_of_ne {m m' : Mark} (h : m ≠ m') :
    accept m' (.unplaced (.mark m :: more) previous unnamed) =
      .done false (.unplaced (.mark m :: more) previous unnamed) := by
  have hm : TokenKind.is (.mark m) m' = false :=
    Bool.eq_false_iff.2 fun his => h (TokenKind.mark.inj (TokenKind.is_iff.1 his))
  rw [accept, Routine.change, Cursor.peek_unplaced, hm]
  rfl

theorem advance_unplaced (kind : TokenKind) (more : List TokenKind) (previous : Option TokenKind)
    (unnamed : Nat) :
    Parser.advance (.unplaced (kind :: more) previous unnamed) =
      .done ⟨kind, .builtin⟩ (.unplaced more (some kind) unnamed) :=
  rfl

/-- A condition and its `then` are read in either form. -/
theorem guard_then {α : Type} (x : Guard) (hn : x.kinds.length + 2 ≤ n) (f : Expr → Parser α) :
    ((Grammar.ofBudget n).any >>= fun condition => accept .thenWord >>= fun _ => f condition)
        (.unplaced (x.kinds ++ .mark .thenWord :: more) previous unnamed) =
      f (x.numbered unnamed) (.unplaced more (some (.mark .thenWord)) (unnamed + x.count)) := by
  obtain ⟨previous', hread⟩ := x.among hn unnamed previous more
  rw [Routine.bind_apply, hread]
  dsimp only
  rw [Routine.bind_apply, accept_unplaced]

variable {layout : List Line → List TokenKind} {ends lastEnds : List Mark} {p q : Parser Block}
  {m : Mark}

theorem alternativeStep_elseIf (hp : ReadsBodies n layout ends p) (b : Branch)
    (hn : (b.kinds layout).length + 2 ≤ n) (hm : m ∈ ends) (found : List Clause × Option Block)
    (more : List TokenKind) (previous : Option TokenKind) (unnamed : Nat) :
    ∃ previous', (Grammar.ofBudget n).alternativeStep p q found
        (.unplaced (.mark .elseIf :: (b.kinds layout ++ .mark m :: more)) previous unnamed) =
      .done (.inl (b.numbered unnamed :: found.1, found.2))
        (.unplaced (.mark m :: more) previous' (unnamed + b.count)) := by
  rw [Branch.length_kinds] at hn
  obtain ⟨previous', hbody⟩ := hp b.body m more (some (.mark .thenWord))
    (unnamed + b.guard.count) hm (by omega)
  refine ⟨previous', ?_⟩
  rw [Grammar.alternativeStep, Routine.bind_apply, accept_unplaced, Branch.kinds, List.append_assoc]
  dsimp only
  rw [if_pos rfl, List.cons_append, guard_then b.guard (by omega), Routine.bind_apply, hbody,
    Branch.count, Nat.add_assoc]
  rfl

theorem alternativeStep_else (hq : ReadsBodies n layout lastEnds q) (body : List Line)
    (hn : (layout body).length + 2 ≤ n) (hm : m ∈ lastEnds) (found : List Clause × Option Block)
    (more : List TokenKind) (previous : Option TokenKind) (unnamed : Nat) :
    ∃ previous', (Grammar.ofBudget n).alternativeStep p q found
        (.unplaced (.mark .elseWord :: (layout body ++ .mark m :: more)) previous unnamed) =
      .done (.inl (found.1, some ⟨Line.numberedAll body unnamed, .builtin⟩))
        (.unplaced (.mark m :: more) previous' (unnamed + Line.countAll body)) := by
  obtain ⟨previous', hbody⟩ := hq body m more (some (.mark .elseWord)) unnamed hm hn
  have hne : Mark.elseWord ≠ .elseIf := by decide
  refine ⟨previous', ?_⟩
  rw [Grammar.alternativeStep, Routine.bind_apply, accept_unplaced_of_ne hne]
  dsimp only
  rw [if_neg Bool.false_ne_true, Routine.bind_apply, accept_unplaced]
  dsimp only
  rw [if_pos rfl, Routine.bind_apply, hbody]
  rfl

theorem alternativeStep_stop (h : m ≠ .elseIf) (h' : m ≠ .elseWord) (g : Grammar)
    (found : List Clause × Option Block) (more : List TokenKind) (previous : Option TokenKind)
    (unnamed : Nat) :
    g.alternativeStep p q found (.unplaced (.mark m :: more) previous unnamed) =
      .done (.inr (found.1.reverse, found.2)) (.unplaced (.mark m :: more) previous unnamed) := by
  rw [Grammar.alternativeStep, Routine.bind_apply, accept_unplaced_of_ne h]
  dsimp only
  rw [if_neg Bool.false_ne_true, Routine.bind_apply, accept_unplaced_of_ne h']
  rfl

/-- Branches behind `else if` are read one after the other. -/
theorem iterate_others (hp : ReadsBodies n layout ends p) (hif : .elseIf ∈ ends)
    (branches : List Branch) (hn : (Branch.others layout branches).length + 2 ≤ n) (budget : Nat)
    (found : List Clause) (lastBlock : Option Block) (hm : m ∈ ends) (more : List TokenKind)
    (previous : Option TokenKind) (unnamed : Nat) :
    ∃ previous', Routine.iterate ((Grammar.ofBudget n).alternativeStep p q)
        (branches.length + budget) (found, lastBlock)
        (.unplaced (Branch.others layout branches ++ .mark m :: more) previous unnamed) =
      Routine.iterate ((Grammar.ofBudget n).alternativeStep p q) budget
        ((Branch.numberedAll branches unnamed).reverse ++ found, lastBlock)
        (.unplaced (.mark m :: more) previous' (unnamed + Branch.countAll branches)) := by
  induction branches generalizing found previous unnamed with
  | nil => exact ⟨previous, by rw [List.length_nil, Nat.zero_add]; rfl⟩
  | cons b rest ih =>
    rw [Branch.length_others] at hn
    -- behind the branch comes another one, or the given mark
    obtain ⟨next, tokens, hnext, hends⟩ : ∃ next tokens,
        Branch.others layout rest ++ .mark m :: more = .mark next :: tokens ∧ next ∈ ends := by
      cases rest with
      | nil => exact ⟨m, more, rfl, hm⟩
      | cons b' rest => exact ⟨.elseIf, _, rfl, hif⟩
    obtain ⟨previous₁, hstep⟩ := alternativeStep_elseIf (q := q) hp b (by omega) hends
      (found, lastBlock) tokens previous unnamed
    obtain ⟨previous₂, hloop⟩ := ih (by omega) (b.numbered unnamed :: found) previous₁
      (unnamed + b.count)
    refine ⟨previous₂, ?_⟩
    have htokens : Branch.others layout (b :: rest) ++ .mark m :: more =
        .mark .elseIf :: (b.kinds layout ++ .mark next :: tokens) := by
      rw [← hnext, Branch.others, List.flatMap_cons, List.append_assoc]
      rfl
    rw [hnext] at hloop
    rw [List.length_cons, Nat.add_right_comm, htokens, Routine.iterate_succ, hstep]
    dsimp only
    rw [hloop, Branch.numberedAll, Branch.countAll, List.reverse_cons, List.append_assoc,
      Nat.add_assoc]
    rfl

end

/-- What stands behind `else`, if there is one. -/
def elseKinds (layout : List Line → List TokenKind) : Option (List Line) → List TokenKind
  | none => []
  | some body => .mark .elseWord :: layout body

def elseNumbered (last : Option (List Line)) (unnamed : Nat) : Option Block :=
  last.map fun body => ⟨Line.numberedAll body unnamed, .builtin⟩

def elseCount : Option (List Line) → Nat
  | none => 0
  | some body => Line.countAll body

/-- The alternatives of an `if` are read up to a mark that is none of them. -/
theorem iterate_alternatives {n budget : Nat} {layout : List Line → List TokenKind}
    {ends lastEnds : List Mark} {p q : Parser Block} {m : Mark} (hp : ReadsBodies n layout ends p)
    (hq : ReadsBodies n layout lastEnds q) (hif : .elseIf ∈ ends) (helse : .elseWord ∈ ends)
    (hm : m ∈ ends) (hm' : m ∈ lastEnds) (hnif : m ≠ .elseIf) (hnelse : m ≠ .elseWord)
    (branches : List Branch) (last : Option (List Line))
    (hn : (Branch.others layout branches).length + (elseKinds layout last).length + 2 ≤ n)
    (hb : n ≤ budget) (more : List TokenKind) (previous : Option TokenKind) (unnamed : Nat) :
    ∃ previous', Routine.iterate ((Grammar.ofBudget n).alternativeStep p q) budget ([], none)
        (.unplaced (Branch.others layout branches ++ (elseKinds layout last ++ .mark m :: more))
          previous unnamed) =
      .done (Branch.numberedAll branches unnamed,
          elseNumbered last (unnamed + Branch.countAll branches))
        (.unplaced (.mark m :: more) previous'
          (unnamed + Branch.countAll branches + elseCount last)) := by
  have hcount := @Branch.length_le_others layout branches
  obtain ⟨i, rfl⟩ : ∃ i, budget = branches.length + (i + 2) :=
    ⟨budget - branches.length - 2, by omega⟩
  cases last with
  | none =>
    obtain ⟨previous', hothers⟩ := iterate_others (q := q) hp hif branches (by omega) (i + 2) []
      none hm more previous unnamed
    refine ⟨previous', ?_⟩
    rw [elseKinds, List.nil_append, hothers, Routine.iterate_succ, alternativeStep_stop hnif hnelse,
      List.append_nil]
    dsimp only
    rw [List.reverse_reverse]
    rfl
  | some body =>
    rw [elseKinds, List.length_cons] at hn
    obtain ⟨previous₁, hothers⟩ := iterate_others (q := q) hp hif branches (by omega) (i + 2) []
      none helse (layout body ++ .mark m :: more) previous unnamed
    obtain ⟨previous₂, hlast⟩ := alternativeStep_else (p := p) hq body (by omega) hm'
      ((Branch.numberedAll branches unnamed).reverse ++ [], none) more previous₁
      (unnamed + Branch.countAll branches)
    refine ⟨previous₂, ?_⟩
    rw [elseKinds, List.cons_append, hothers, Routine.iterate_succ, hlast]
    dsimp only
    rw [Routine.iterate_succ, alternativeStep_stop hnif hnelse, List.append_nil]
    dsimp only
    rw [List.reverse_reverse]
    rfl

/-! ## Both forms -/

/-- What an `if` says: its branches, of which the first has a statement, and the last resort. -/
structure Choice where
  first : Branch
  others : List Branch
  last : Option (List Line)
  body_ne_nil : first.body ≠ []

namespace Choice

def kinds (layout : List Line → List TokenKind) (x : Choice) : List TokenKind :=
  .mark .ifWord ::
    (x.first.kinds layout ++ (Branch.others layout x.others ++ elseKinds layout x.last))

def oneLine (x : Choice) : List TokenKind :=
  x.kinds Line.inline

def inBlocks (x : Choice) : List TokenKind :=
  x.kinds Line.below ++ [.mark .endIf]

def numbered (x : Choice) (unnamed : Nat) : Statement :=
  .conditional (x.first.numbered unnamed).condition (x.first.numbered unnamed).block
    (Branch.numberedAll x.others (unnamed + x.first.count))
    (elseNumbered x.last (unnamed + x.first.count + Branch.countAll x.others)) .builtin

def count (x : Choice) : Nat :=
  x.first.count + Branch.countAll x.others + elseCount x.last

variable {n : Nat} {layout : List Line → List TokenKind} {m : Mark}

theorem length_kinds (layout : List Line → List TokenKind) (x : Choice) :
    (x.kinds layout).length = x.first.guard.kinds.length + ((layout x.first.body).length + 1) +
      ((Branch.others layout x.others).length + (elseKinds layout x.last).length) + 1 := by
  rw [kinds, List.length_cons, List.length_append, List.length_append, Branch.length_kinds]

/-- The head of an `if` is read in either form, and what follows it is left. -/
theorem ifHead_unplaced (x : Choice) (hn : (x.kinds layout).length + 1 ≤ n) :
    (Grammar.ofBudget n).ifHead (.unplaced (x.kinds layout ++ more) previous unnamed) =
      .done (.builtin, x.first.guard.numbered unnamed)
        (.unplaced (layout x.first.body ++
            (Branch.others layout x.others ++ (elseKinds layout x.last ++ more)))
          (some (.mark .thenWord)) (unnamed + x.first.guard.count)) := by
  rw [length_kinds] at hn
  have htokens : x.kinds layout ++ more = .mark .ifWord :: (x.first.guard.kinds ++
      .mark .thenWord :: (layout x.first.body ++
        (Branch.others layout x.others ++ (elseKinds layout x.last ++ more)))) := by
    simp [kinds, Branch.kinds]
  rw [htokens, Grammar.ifHead, Routine.bind_apply, advance_unplaced]
  dsimp only
  rw [guard_then x.first.guard (by omega)]
  rfl

/-- What comes behind the first body starts with one of the marks before which bodies end. -/
theorem exists_next (layout : List Line → List TokenKind) (x : Choice) {ends : List Mark}
    (hif : .elseIf ∈ ends) (helse : .elseWord ∈ ends) (hm : m ∈ ends) (more : List TokenKind) :
    ∃ next tokens, Branch.others layout x.others ++ (elseKinds layout x.last ++ .mark m :: more) =
      .mark next :: tokens ∧ next ∈ ends := by
  cases x.others with
  | nil =>
    cases x.last with
    | none => exact ⟨m, more, rfl, hm⟩
    | some body => exact ⟨.elseWord, _, rfl, helse⟩
  | cons b rest => exact ⟨.elseIf, _, rfl, hif⟩

/-- The branches of an `if` in either form, given how bodies are read in it. -/
theorem branches_unplaced (x : Choice) {ends lastEnds : List Mark} {p q : Parser Block}
    (hp : ReadsBodies n layout ends p) (hq : ReadsBodies n layout lastEnds q)
    (hif : .elseIf ∈ ends) (helse : .elseWord ∈ ends) (hm : m ∈ ends) (hm' : m ∈ lastEnds)
    (hnif : m ≠ .elseIf) (hnelse : m ≠ .elseWord) (hn : (x.kinds layout).length + 1 ≤ n)
    (more : List TokenKind) (previous : Option TokenKind) (unnamed : Nat)
    (f : Block → List Clause → Option Block → Parser Statement) :
    ∃ previous', (p >>= fun thenBranch => (Grammar.ofBudget n).alternatives n p q >>= fun found =>
          f thenBranch found.1 found.2)
        (.unplaced (layout x.first.body ++
            (Branch.others layout x.others ++ (elseKinds layout x.last ++ .mark m :: more)))
          previous (unnamed + x.first.guard.count)) =
      f (x.first.numbered unnamed).block (Branch.numberedAll x.others (unnamed + x.first.count))
        (elseNumbered x.last (unnamed + x.first.count + Branch.countAll x.others))
        (.unplaced (.mark m :: more) previous' (unnamed + x.count)) := by
  rw [length_kinds] at hn
  obtain ⟨next, tokens, hnext, hends⟩ := x.exists_next layout hif helse hm more
  obtain ⟨previous₁, hbody⟩ := hp x.first.body next tokens previous
    (unnamed + x.first.guard.count) hends (by omega)
  obtain ⟨previous₂, halternatives⟩ := iterate_alternatives hp hq hif helse hm hm' hnif hnelse
    x.others x.last (by omega) (Nat.le_refl n) more previous₁ (unnamed + x.first.count)
  refine ⟨previous₂, ?_⟩
  rw [hnext] at halternatives ⊢
  have hcount : unnamed + x.first.guard.count + Line.countAll x.first.body =
      unnamed + x.first.count := by rw [Branch.count, Nat.add_assoc]
  rw [Routine.bind_apply, hbody, hcount]
  dsimp only
  rw [Routine.bind_apply, Grammar.alternatives, halternatives]
  dsimp only
  rw [count, Nat.add_assoc unnamed, Nat.add_assoc, Branch.numbered]

theorem located_unplaced (make : Location → Statement) :
    (locationFrom .builtin >>= fun l => pure (make l)) (.unplaced more previous unnamed) =
      .done (make .builtin) (.unplaced more previous unnamed) := by
  rw [Routine.bind_apply, locationFrom, Routine.view_apply]
  dsimp only
  rw [Cursor.locationFrom_unplaced]
  rfl

theorem conditional_of_ifHead {g : Grammar} {c t : Cursor} {head : Location × Expr}
    (h : g.ifHead c = .done head t) :
    g.conditional n c = (if t.peek.kind.isOneOf [.newline, .colon] = true then g.blockForm n head
      else g.inlineForm n head) t := by
  rw [Grammar.conditional, Routine.bind_apply, h]
  rfl

/-- An `if` is read by the rule for it. -/
theorem statement_kinds (x : Choice) (more : List TokenKind) (previous : Option TokenKind)
    (unnamed : Nat) :
    parseStatement (n + 1) (.unplaced (x.kinds layout ++ more) previous unnamed) =
      (Grammar.ofBudget n).conditional n (.unplaced (x.kinds layout ++ more) previous unnamed) := by
  rw [parseStatement]
  rfl

theorem parse_oneLine (x : Choice) (hn : x.oneLine.length + 1 ≤ n)
    (hm : m ∈ [Mark.newline, .endOfText]) (more : List TokenKind) (previous : Option TokenKind)
    (unnamed : Nat) :
    ∃ previous', parseStatement (n + 1)
        (.unplaced (x.oneLine ++ .mark m :: more) previous unnamed) =
      .done (x.numbered unnamed) (.unplaced (.mark m :: more) previous' (unnamed + x.count)) := by
  have hends : ∀ m ∈ [Mark.newline, .endOfText],
      m ∈ lineEnds ∧ m ≠ .elseIf ∧ m ≠ .elseWord ∧ m ≠ .endIf := by decide
  obtain ⟨hline, hnif, hnelse, hnend⟩ := hends m hm
  have hbody : ReadsBodies n Line.inline lineEnds ((Grammar.ofBudget n).inlineBlock n) :=
    readsBodies_inlineBlock
  obtain ⟨previous', hbranches⟩ := x.branches_unplaced hbody hbody (by decide) (by decide) hline
    hline hnif hnelse hn more (some (.mark .thenWord)) unnamed fun thenBranch elseIfs elseBranch => do
      let _ ← accept .endIf
      return .conditional (x.first.guard.numbered unnamed) thenBranch elseIfs elseBranch
        (← locationFrom .builtin)
  refine ⟨previous', ?_⟩
  -- a statement behind `then` makes it this form
  have hform (tokens : List TokenKind) : (Cursor.unplaced (Line.inline x.first.body ++ tokens)
      (some (.mark .thenWord)) (unnamed + x.first.guard.count)).peek.kind.isOneOf
        [.newline, .colon] = false := by
    obtain ⟨l, rest, hlines⟩ := List.exists_cons_of_ne_nil x.body_ne_nil
    rw [hlines, Line.inline, List.append_assoc]
    exact TokenKind.isOneOf_of_not_closes (l.closes_peek ..) (by decide)
  rw [oneLine, statement_kinds, conditional_of_ifHead (x.ifHead_unplaced hn), hform,
    if_neg Bool.false_ne_true]
  refine Eq.trans hbranches ?_
  rw [Routine.bind_apply, accept_unplaced_of_ne hnend]
  exact located_unplaced ..

theorem parse_inBlocks (x : Choice) (hn : x.inBlocks.length ≤ n) (more : List TokenKind)
    (previous : Option TokenKind) (unnamed : Nat) :
    ∃ previous', parseStatement (n + 1) (.unplaced (x.inBlocks ++ more) previous unnamed) =
      .done (x.numbered unnamed) (.unplaced more previous' (unnamed + x.count)) := by
  have hn : (x.kinds Line.below).length + 1 ≤ n := by
    rw [inBlocks, List.length_append] at hn
    exact hn
  obtain ⟨previous', hbranches⟩ := x.branches_unplaced (readsBodies_block (n := n) fun _ => id)
    (readsBodies_block (by decide)) (by decide) (by decide) (m := .endIf) (by decide)
    (List.mem_singleton_self _) (by decide) (by decide) hn more (some (.mark .thenWord)) unnamed
    fun thenBranch elseIfs elseBranch => do
      let _ ← expect .endIf
      return .conditional (x.first.guard.numbered unnamed) thenBranch elseIfs elseBranch
        (← locationFrom .builtin)
  refine ⟨some (.mark .endIf), ?_⟩
  -- a newline behind `then` makes it this form
  have hform (tokens : List TokenKind) : (Cursor.unplaced (Line.below x.first.body ++ tokens)
      (some (.mark .thenWord)) (unnamed + x.first.guard.count)).peek.kind.isOneOf
        [.newline, .colon] = true := by
    cases x.first.body <;> rfl
  rw [inBlocks, List.append_assoc, statement_kinds, conditional_of_ifHead (x.ifHead_unplaced hn),
    hform, if_pos rfl]
  have hexpect : expect .endIf (.unplaced (.mark .endIf :: more) previous' (unnamed + x.count)) =
      .done ⟨.mark .endIf, .builtin⟩
        (.unplaced more (some (.mark .endIf)) (unnamed + x.count)) := rfl
  refine Eq.trans hbranches ?_
  rw [Routine.bind_apply, hexpect]
  exact located_unplaced ..

end Choice

/-- What is read of a text without places is read of every text of the same tokens, with places. -/
theorem statement_of_unplaced {c : Cursor} {kinds kinds' : List TokenKind} {budget unnamed : Nat}
    {tree : Statement} (hc : c.Sees kinds) (hb : c.rest.length < budget)
    (h : ∃ previous, parseStatement budget
        (.unplaced kinds (c.previous.map Token.kind) c.unnamed) =
      .done tree (.unplaced kinds' previous unnamed)) :
    ∃ st t, parseStatement budget c = .done st t ∧ t.Sees kinds' ∧ t.unnamed = unnamed ∧
      st.relocated .forgetting = tree := by
  obtain ⟨previous, h⟩ := h
  have hfinal : c.final.kind.isEnd = true := by
    rw [hc.final]
    rfl
  have hfollows := (Follows.statement .forgetting (Nat.le_refl budget) c hfinal (Start.at_inside c)
    (Start.room_inside hb)).2
  have hfollows : parseStatement budget (c.relocated .forgetting) =
    (parseStatement budget c).relocated .forgetting (Statement.relocated .forgetting) := hfollows
  rw [hc.relocated, h] at hfollows
  cases hp : parseStatement budget c with
  | done st t =>
    rw [hp, Outcome.relocated] at hfollows
    obtain ⟨htree, ht⟩ := Outcome.done.inj hfollows
    obtain ⟨hsees, hunnamed⟩ := Cursor.sees_of_relocated ht.symm
    exact ⟨st, t, rfl, hsees, hunnamed, htree.symm⟩
  | exit | exhausted => rw [hp] at hfollows; cases hfollows

/-- The two forms of an `if`, wherever they stand, are read as one tree up to locations, if as many
functions without a name come before. Every statement of the bodies and every condition is one that
is read on its own. Behind the form on one line the line ends; what stands behind `end if` is left
open. -/
theorem Choice.forms_agree (x : Choice) {c d : Cursor} {m : Mark} {after after' : List TokenKind}
    {budget budget' : Nat} (hm : m ∈ [Mark.newline, .endOfText])
    (hc : c.Sees (x.oneLine ++ .mark m :: after)) (hd : d.Sees (x.inBlocks ++ after'))
    (hunnamed : d.unnamed = c.unnamed) (hb : c.rest.length < budget)
    (hb' : d.rest.length < budget') :
    ∃ st t st' t', parseStatement budget c = .done st t ∧ t.Sees (.mark m :: after) ∧
      parseStatement budget' d = .done st' t' ∧ t'.Sees after' ∧ t'.unnamed = t.unnamed ∧
      st'.relocated .forgetting = st.relocated .forgetting ∧
      st.relocated .forgetting = x.numbered c.unnamed := by
  obtain ⟨n, rfl⟩ : ∃ n, budget = n + 1 := ⟨budget - 1, by omega⟩
  obtain ⟨n', rfl⟩ : ∃ n', budget' = n' + 1 := ⟨budget' - 1, by omega⟩
  have hlength := congrArg List.length hc.rest
  have hlength' := congrArg List.length hd.rest
  rw [List.length_map, List.length_append] at hlength hlength'
  rw [List.length_cons] at hlength
  obtain ⟨st, t, hst, ht, hcount, htree⟩ :=
    statement_of_unplaced hc hb (x.parse_oneLine (by omega) hm after _ _)
  obtain ⟨st', t', hst', ht', hcount', htree'⟩ :=
    statement_of_unplaced hd hb' (x.parse_inBlocks (by omega) after' _ _)
  rw [hunnamed] at hcount' htree'
  exact ⟨st, t, st', t', hst, ht, hst', ht', hcount'.trans hcount.symm, htree'.trans htree.symm,
    htree⟩

/-! ## A conditional in both forms -/

theorem exists_tokens {file source : String} {kinds : List TokenKind}
    (h : (Token.scan file source).map (List.map Token.kind) = .ok kinds) :
    ∃ tokens, Token.scan file source = .ok tokens ∧ tokens.map Token.kind = kinds := by
  cases hscan : Token.scan file source with
  | ok tokens =>
    rw [hscan] at h
    exact ⟨tokens, rfl, Except.ok.inj h⟩
  | error errors =>
    rw [hscan] at h
    cases h

theorem Cursor.sees_ofTokens {tokens : List Token} {kinds : List TokenKind}
    (h : tokens.map Token.kind = kinds ++ [.mark .endOfText]) :
    (Cursor.ofTokens tokens).Sees (kinds ++ [.mark .endOfText]) where
  rest := h
  final := by
    have hlast := congrArg List.getLast? h
    rw [List.getLast?_map, List.getLast?_concat] at hlast
    obtain ⟨t, ht, hkind⟩ := Option.map_eq_some_iff.1 hlast
    show (tokens.getLastD _).kind = _
    rw [List.getLastD_eq_getLast?, ht]
    exact hkind
  errors := rfl

/-- The assignment `y = f(2)`. -/
def callLine : Line where
  kinds := [.identifier "y", .mark .equal, .identifier "f", .mark .leftParen, .integer 2,
    .mark .rightParen]
  statement := .assignment ⟨"y", .builtin⟩ (.call (.reference ⟨"f", .builtin⟩)
    [.literal (.integer 2) .builtin] false .builtin .builtin) .builtin
  count := 0
  read := ⟨some (.mark .rightParen), rfl⟩
  simple := rfl

/-- The assignment `z = function() : end function`, which has a colon of its own. -/
def unnamedLine : Line where
  kinds := [.identifier "z", .mark .equal, .mark .functionWord, .mark .leftParen, .mark .rightParen,
    .mark .colon, .mark .endFunction]
  statement := .assignment ⟨"z", .builtin⟩
    (.procedure ⟨"$anon_0", [], .dynamic, false, ⟨[], .builtin⟩, .builtin⟩) .builtin
  count := 1
  read := ⟨some (.mark .endFunction), rfl⟩
  simple := rfl

def returnLine : Line where
  kinds := [.mark .returnWord]
  statement := .returning none .builtin
  count := 0
  read := ⟨some (.mark .returnWord), rfl⟩
  simple := rfl

/-- The jump `goto w`. -/
def gotoLine : Line where
  kinds := [.mark .gotoWord, .identifier "w"]
  statement := .goto ⟨"w", .builtin⟩ .builtin
  count := 0
  read := ⟨some (.identifier "w"), rfl⟩
  simple := rfl

/-- The condition `x = 1`. -/
def equalGuard : Guard where
  kinds := [.identifier "x", .mark .equal, .integer 1]
  expression :=
    .binary (.reference ⟨"x", .builtin⟩) .equal (.literal (.integer 1) .builtin) .builtin
  count := 0
  read := ⟨some (.integer 1), rfl⟩

/-- The condition `x`. -/
def nameGuard : Guard where
  kinds := [.identifier "x"]
  expression := .reference ⟨"x", .builtin⟩
  count := 0
  read := ⟨some (.identifier "x"), rfl⟩

/-- Two statements under `x = 1`, a `return` under `x`, and a jump. -/
def threeWays : Choice where
  first := ⟨equalGuard, [callLine, unnamedLine]⟩
  others := [⟨nameGuard, [returnLine]⟩]
  last := some [gotoLine]
  body_ne_nil := List.cons_ne_nil _ _

/-- The form of `threeWays` on one line, as a text. -/
def threeWaysLine : String :=
  "if x = 1 then y = f(2) : z = function() : end function else if x then return else goto w"

/-- The form of `threeWays` with blocks, as a text. -/
def threeWaysBlocks : String :=
  "if x = 1 then\ny = f(2)\nz = function() : end function\nelse if x then\nreturn\n" ++
    "else\ngoto w\nend if"

theorem Choice.forms_agree_threeWays :
    ∃ tokens tokens' st t st' t', Token.scan "a" threeWaysLine = .ok tokens ∧
      Token.scan "b" threeWaysBlocks = .ok tokens' ∧
      parseStatement (tokens.length + 1) (.ofTokens tokens) = .done st t ∧
      parseStatement (tokens'.length + 1) (.ofTokens tokens') = .done st' t' ∧
      st'.relocated .forgetting = st.relocated .forgetting ∧
      st.relocated .forgetting = threeWays.numbered 0 := by
  have hline : (Token.scan "a" threeWaysLine).map (List.map Token.kind) =
      .ok (threeWays.oneLine ++ [.mark .endOfText]) := by with_unfolding_all rfl
  have hblocks : (Token.scan "b" threeWaysBlocks).map (List.map Token.kind) =
      .ok (threeWays.inBlocks ++ [.mark .endOfText]) := by with_unfolding_all rfl
  obtain ⟨tokens, hscan, hkinds⟩ := exists_tokens hline
  obtain ⟨tokens', hscan', hkinds'⟩ := exists_tokens hblocks
  obtain ⟨st, t, st', t', hst, -, hst', -, -, hsame, htree⟩ := threeWays.forms_agree
    (List.mem_cons_of_mem _ List.mem_cons_self) (Cursor.sees_ofTokens hkinds)
    (Cursor.sees_ofTokens hkinds') rfl (Nat.lt_succ_self _) (Nat.lt_succ_self _)
  exact ⟨tokens, tokens', st, t, st', t', hscan, hscan', hst, hst', hsame, htree⟩

end BrightScript
