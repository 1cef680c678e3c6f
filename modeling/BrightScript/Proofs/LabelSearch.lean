import BrightScript.Proofs.Signals

/-!
# Looking for a label

While a label is looked for, statements are searched and not executed. The search enters blocks,
branches, loop bodies and catch blocks (`Statement.searched`), and neither `try` blocks nor the
bodies of functions. Statements in which it does not come to the label leave the session exactly as
it was: nothing is evaluated, written or asked. Behind the label execution goes on as if it had
started there. So a `goto` to a label that its function does not offer fails where it stands.

The search needs a budget, as all execution does; `Statement.depth` says how large it has to be.
-/

namespace BrightScript

variable {s : Session} {label : String} {statement : Statement} {n : Nat}

namespace Statement

def searched : Statement → List Block
  | .block body => [body]
  | .conditional _ thenBranch elseIfs elseBranch _ =>
    thenBranch :: elseIfs.map Clause.block ++ elseBranch.toList
  | .tryCatch _ _ catchBlock _ => [catchBlock]
  | .forLoop _ _ _ _ body _ | .forEach _ _ body _ | .whileLoop _ body _ => [body]
  | _ => []

/-- The statements one level below a statement, as far as they are searched. -/
def inner (statement : Statement) : List Statement :=
  statement.searched.flatMap Block.statements

/-- The search for a label comes to it in a statement: the statement is the label, in any case of
letters, or the search comes to it one level below. -/
inductive Offers (label : String) : Statement → Prop
  | label {name : Identifier} : Text.sameWord name.name label = true → Offers label (.label name)
  | inside {statement below : Statement} :
      below ∈ statement.inner → Offers label below → Offers label statement

theorem sizeOf_searched {block : Block} (h : block ∈ statement.searched) :
    sizeOf block < sizeOf statement := by
  cases statement with
  | conditional condition thenBranch elseIfs elseBranch location =>
    simp only [searched, List.cons_append, List.mem_cons, List.mem_append, List.mem_map,
      Option.mem_toList] at h
    rcases h with rfl | ⟨clause, hclause, rfl⟩ | helse
    · simp
      omega
    · have hlist := List.sizeOf_lt_of_mem hclause
      obtain ⟨clauseCondition, clauseBlock⟩ := clause
      simp at hlist ⊢
      omega
    · subst helse
      simp
      omega
  | block =>
    obtain rfl := List.mem_singleton.1 h
    simp
  | tryCatch | forLoop | forEach | whileLoop =>
    obtain rfl := List.mem_singleton.1 h
    simp
    omega
  | _ => cases h

theorem sizeOf_inner {below : Statement} (h : below ∈ statement.inner) :
    sizeOf below < sizeOf statement := by
  obtain ⟨⟨statements, location⟩, hblock, hbelow⟩ := List.mem_flatMap.1 h
  have hsearched := sizeOf_searched hblock
  have hlist := List.sizeOf_lt_of_mem hbelow
  simp at hsearched hlist
  omega

/-- The number of levels that the search for a label goes down in a statement, itself included. -/
def depth (statement : Statement) : Nat :=
  (statement.inner.attach.map fun below => depth below.1).foldr max 0 + 1
termination_by sizeOf statement
decreasing_by exact sizeOf_inner below.2

theorem depth_le_succ : statement.depth ≤ n + 1 ↔ ∀ below ∈ statement.inner, below.depth ≤ n := by
  have bound (depths : List Nat) : depths.foldr max 0 ≤ n ↔ ∀ d ∈ depths, d ≤ n := by
    induction depths with
    | nil => simp
    | cons d rest ih => rw [List.foldr_cons, Nat.max_le, List.forall_mem_cons, ih]
  rw [depth, Nat.add_le_add_iff_right, bound, List.forall_mem_map]
  exact ⟨fun h below hbelow => h ⟨below, hbelow⟩ (List.mem_attach _ _),
    fun h below _ => h below.1 below.2⟩

theorem depth_pos (statement : Statement) : 0 < statement.depth := by
  rw [depth]
  omega

end Statement

namespace Evaluator

variable {ev : Evaluator}

/-! ## Passing over statements -/

theorem executeAll_append (before after : List Statement) :
    ev.executeAll (before ++ after) = (do ev.executeAll before; ev.executeAll after) := by
  induction before with
  | nil => rfl
  | cons statement rest ih =>
    show (ev.execute statement >>= fun _ => ev.executeAll (rest ++ after)) = _
    rw [ih]
    exact (bind_assoc _ _ _).symm

theorem executeAll_of_forall {statements : List Statement}
    (h : ∀ statement ∈ statements, ev.execute statement s = .done () s) :
    ev.executeAll statements s = .done () s := by
  induction statements with
  | nil => rfl
  | cons statement rest ih =>
    obtain ⟨hfirst, hrest⟩ := List.forall_mem_cons.1 h
    rw [executeAll, Routine.bind_apply, hfirst]
    exact ih hrest

theorem searchBlocks_of_forall {blocks : List Block} (hs : s.scopes.pending.isSome = true)
    (h : ∀ block ∈ blocks, ev.executeBlock block s = .done () s) :
    ev.searchBlocks blocks s = .done () s := by
  induction blocks with
  | nil => rfl
  | cons block rest ih =>
    obtain ⟨hfirst, hrest⟩ := List.forall_mem_cons.1 h
    rw [searchBlocks, Routine.bind_apply, hfirst]
    dsimp only
    rw [searching, Routine.bind_apply, Routine.view_apply, hs]
    exact ih hrest

/-- A statement is passed over if it is not the label and its blocks are passed over. No condition,
bound or collection of a loop is evaluated, since the label is still looked for behind the body. -/
theorem search_of_forall {budget : Nat} (hs : s.scopes.pending.isSome = true)
    (hlabel : ∀ name, statement = .label name → Text.fold name.name ≠ label)
    (h : ∀ block ∈ statement.searched, ev.executeBlock block s = .done () s) :
    ev.search budget label statement s = .done () s := by
  have still (goOn : Run Unit) : (do if ← searching then return else goOn : Run Unit) s =
      .done () s := by
    rw [searching, Routine.bind_apply, Routine.view_apply, hs]
    rfl
  cases statement with
  | label name =>
    rw [search, if_neg (hlabel name rfl)]
    rfl
  | block body => exact h body List.mem_cons_self
  | conditional condition thenBranch elseIfs elseBranch location =>
    exact searchBlocks_of_forall hs h
  | tryCatch tryBlock binding catchBlock location => exact h catchBlock List.mem_cons_self
  | forLoop _ _ _ _ body | forEach _ _ body | whileLoop _ body =>
    rw [search, searchLoop, inLoop, Routine.attempt_bind_apply, h body List.mem_cons_self]
    exact still _
  | _ => rfl

/-! ## The search -/

/-- The statements that a search for a label passes over, given the budget to go down in them. -/
def Skipped (n : Nat) (label : String) (statements : List Statement) : Prop :=
  ∀ statement ∈ statements, statement.depth ≤ n ∧ ¬ statement.Offers label

theorem execute_of_not_offers (hs : s.scopes.pending = some (Text.fold label))
    (hdepth : statement.depth ≤ n) (hlabel : ¬ statement.Offers label) :
    BrightScript.execute n statement s = .done () s := by
  -- Each level of blocks takes one from the budget, so the induction is on the budget.
  induction n generalizing statement with
  | zero =>
    have := statement.depth_pos
    omega
  | succ n ih =>
    have hpassed : ∀ below ∈ statement.inner, BrightScript.execute n below s = .done () s := by
      intro below hbelow
      have hdepth := Statement.depth_le_succ.1 hdepth below hbelow
      exact ih hdepth fun hoffers => hlabel (.inside hbelow hoffers)
    show Evaluator.statement (ofBudget n) n statement s = _
    rw [statement_of_pending hs]
    refine search_of_forall (by rw [hs]; rfl) ?_ ?_
    · rintro name rfl hname
      exact hlabel (.label ((Text.sameWord_iff _ _).2 hname))
    · intro block hblock
      refine executeAll_of_forall fun below hbelow => hpassed below ?_
      exact List.mem_flatMap.2 ⟨block, hblock, hbelow⟩

theorem executeAll_of_skipped {statements : List Statement}
    (hs : s.scopes.pending = some (Text.fold label)) (h : Skipped n label statements) :
    (ofBudget n).executeAll statements s = .done () s :=
  executeAll_of_forall fun statement hmem =>
    execute_of_not_offers hs (h statement hmem).1 (h statement hmem).2

def arrived (s : Session) : Session :=
  { s with scopes := s.scopes.setPending none }

theorem execute_label {name : Identifier} (hn : 0 < n)
    (hs : s.scopes.pending = some (Text.fold label))
    (hname : Text.sameWord name.name label = true) :
    BrightScript.execute n (.label name) s = .done () (arrived s) := by
  obtain ⟨m, rfl⟩ := Nat.exists_eq_add_of_lt hn
  rw [Nat.zero_add]
  show Evaluator.statement (ofBudget m) m (.label name) s = _
  rw [statement_of_pending hs, search, if_pos ((Text.sameWord_iff _ _).1 hname)]
  rfl

/-- Behind the label execution goes on as if it had started there. -/
theorem executeAll_of_label {before after : List Statement} {name : Identifier} (hn : 0 < n)
    (hs : s.scopes.pending = some (Text.fold label)) (hbefore : Skipped n label before)
    (hname : Text.sameWord name.name label = true) :
    (ofBudget n).executeAll (before ++ [.label name] ++ after) s =
      (ofBudget n).executeAll after (arrived s) := by
  have hfound : (ofBudget n).executeAll [.label name] s = .done () (arrived s) := by
    have hexecute : (ofBudget n).execute (.label name) s = .done () (arrived s) :=
      execute_label hn hs hname
    rw [executeAll, Routine.bind_apply, hexecute]
    rfl
  rw [executeAll_append, executeAll_append, Routine.bind_apply, Routine.bind_apply,
    executeAll_of_skipped hs hbefore]
  dsimp only
  rw [hfound]

/-! ## Labels that are not there -/

/-- The runs of a body that a call makes are the passes of its loop, as long as the budget of the
loop lasts. -/
theorem Pass.iterate_add {body : Procedure} {t : Session} {last : Location}
    (h : Pass ev body s last t) :
    ∃ passes, ∀ rest, Routine.iterate (ev.runBody body) (rest + passes) body.location s =
      Routine.iterate (ev.runBody body) rest last t := by
  induction h with
  | start => exact ⟨0, fun _ => rfl⟩
  | again _ hgoto ih =>
    obtain ⟨passes, hpasses⟩ := ih
    refine ⟨passes + 1, fun rest => ?_⟩
    have hbudget : rest + (passes + 1) = rest + 1 + passes := by omega
    rw [hbudget, hpasses, Routine.iterate_succ, runBody_of_goto hgoto]

theorem runProcedure_of_not_offered {body : Procedure} {args : List Value} {s₁ t u : Session}
    {last location : Location}
    (hargs : (ofBudget n).bindParameters body.parameters args s = .done () s₁)
    (hpass : Pass (ofBudget n) body s₁ last t)
    (hgoto : (ofBudget n).executeBlock body.body t = .exit (.goto label location) u)
    (hbody : Skipped n label body.body.statements) :
    ∃ enough, ∀ budget, enough ≤ budget →
      ((ofBudget n).runProcedure budget body args s).FailsWith 14 location := by
  obtain ⟨passes, hpasses⟩ := (hpass.again hgoto).iterate_add
  refine ⟨passes + 1, fun budget hbudget => ?_⟩
  obtain ⟨rest, rfl⟩ : ∃ rest, budget = rest + 1 + passes := ⟨budget - (passes + 1), by omega⟩
  have hsearch : (ofBudget n).executeBlock body.body (lookingFor u label) =
      .done () (lookingFor u label) := executeAll_of_skipped rfl hbody
  rw [runProcedure, Routine.bind_apply, hargs]
  dsimp only
  rw [Routine.bind_apply, hpasses, Routine.iterate_succ, runBody_of_done hsearch]
  exact ⟨_, _, rfl, rfl, rfl⟩

end Evaluator

/-- For every budget and label. While the label is looked for: a list of statements that do not
offer it leaves the session exactly as it was; and if the label stands behind such a list, all comes
to the same as executing what follows the label with no label looked for. And a `goto` to the label
that leaves a run of a procedure's body fails with error 14 where it stands if the body does not
offer the label. The budget has to suffice for the levels of the statements that are searched, and
for the runs of the body. -/
theorem label_search (n : Nat) (label : String) :
    (∀ (before : List Statement) (s : Session), s.scopes.pending = some (Text.fold label) →
      Evaluator.Skipped n label before →
      (Evaluator.ofBudget n).executeAll before s = .done () s) ∧
    (∀ (before after : List Statement) (name : Identifier) (s : Session), 0 < n →
      s.scopes.pending = some (Text.fold label) → Evaluator.Skipped n label before →
      Text.sameWord name.name label = true →
      (Evaluator.ofBudget n).executeAll (before ++ [.label name] ++ after) s =
        (Evaluator.ofBudget n).executeAll after
          { s with scopes := s.scopes.setPending none }) ∧
    (∀ (body : Procedure) (args : List Value) (s s₁ t u : Session) (last location : Location),
      (Evaluator.ofBudget n).bindParameters body.parameters args s = .done () s₁ →
      Evaluator.Pass (Evaluator.ofBudget n) body s₁ last t →
      (Evaluator.ofBudget n).executeBlock body.body t = .exit (.goto label location) u →
      Evaluator.Skipped n label body.body.statements →
      ∃ enough, ∀ budget, enough ≤ budget →
        ((Evaluator.ofBudget n).invoke budget (.procedure body) args s).FailsWith 14 location) := by
  refine ⟨?_, ?_, ?_⟩
  · intro before s hs hbefore
    exact Evaluator.executeAll_of_skipped hs hbefore
  · intro before after name s hn hs hbefore hname
    exact Evaluator.executeAll_of_label hn hs hbefore hname
  · intro body args s s₁ t u last location hargs hpass hgoto hbody
    exact Evaluator.runProcedure_of_not_offered hargs hpass hgoto hbody

/-- An endless loop around a label. -/
def endlessHome : Statement :=
  .whileLoop (.literal (.boolean true) .builtin) ⟨[.label ⟨"home", .builtin⟩], .builtin⟩ .builtin

theorem skipped_endlessHome : Evaluator.Skipped 2 "away" [endlessHome] := by
  intro statement hmem
  obtain rfl := List.mem_singleton.1 hmem
  have hbelow : ∀ below ∈ endlessHome.inner,
      below.depth ≤ 1 ∧ ¬ below.Offers "away" := by
    intro below hbelow
    obtain rfl := List.mem_singleton.1 hbelow
    refine ⟨Statement.depth_le_succ.2 (fun _ h => nomatch h), ?_⟩
    rintro (hname | ⟨h, -⟩)
    · exact absurd hname (by decide)
    · cases h
  refine ⟨Statement.depth_le_succ.2 fun below h => (hbelow below h).1, ?_⟩
  rintro (_ | ⟨h, hoffers⟩)
  exact (hbelow _ h).2 hoffers

theorem label_search_past_loop :
    (Evaluator.ofBudget 2).executeAll [endlessHome]
        (Evaluator.lookingFor (.new .standard) "away") =
      .done () (Evaluator.lookingFor (.new .standard) "away") ∧
    (Evaluator.ofBudget 2).executeAll
        ([endlessHome] ++ [.label ⟨"Away", .builtin⟩] ++ [.ending .builtin])
        (Evaluator.lookingFor (.new .standard) "away") =
      (Evaluator.ofBudget 2).executeAll [.ending .builtin]
        (Evaluator.arrived (Evaluator.lookingFor (.new .standard) "away")) ∧
    ∃ enough, ∀ budget, enough ≤ budget →
      ((Evaluator.ofBudget 2).invoke budget (.procedure strayGoto) []
        (.new .standard)).FailsWith 14 .builtin := by
  obtain ⟨hskip, hfound, hgoto⟩ := label_search 2 "away"
  refine ⟨hskip _ _ rfl skipped_endlessHome, ?_, ?_⟩
  · exact hfound _ _ _ _ (by decide) rfl skipped_endlessHome (by decide)
  · refine hgoto strayGoto [] (.new .standard) _ _ _ _ .builtin rfl .start rfl ?_
    intro statement hmem
    obtain rfl := List.mem_singleton.1 hmem
    refine ⟨Statement.depth_le_succ.2 (fun _ h => nomatch h), ?_⟩
    rintro (_ | ⟨h, -⟩)
    cases h

end BrightScript
