import BrightScript.Proofs.GotoExits
import BrightScript.Syntax.Program

/-!
# Going on with a `for each`

A `goto` into the body of a `for each` finishes the pass it lands in, and then the loop goes on with
the element that the session has noted. What is noted is the element after the one of the outermost
loop that the `goto` left, whichever loop this was. If it left none, it is what an earlier `goto`
noted and no loop has used up. The main result puts the parts together: how the `goto` leaves the
body of its procedure, how the next run of the body comes to the loop, and what the loop goes on
with.
-/

namespace BrightScript

/-! ## The run that a search leads to -/

/-- What follows a run that is not looked at: another one, unless it was left. -/
def Run.onward (f : Unit → Run Unit) : Except Signal Unit → Run Unit
  | .ok () => f ()
  | .error signal => Routine.leave signal

theorem Run.attempt_onward (x : Run Unit) (f : Unit → Run Unit) (s : Session) :
    (Routine.attempt x >>= onward f) s = (x >>= f) s := by
  rw [Routine.attempt_bind_apply, Routine.bind_apply]
  cases x s with
  | _ => rfl

/-- While a label is looked for, a run is another one followed by what depends on the result of that
one only. -/
def Run.Begins (label : String) (x first : Run Unit) : Prop :=
  ∃ rest : Except Signal Unit → Run Unit, ∀ s : Session,
    s.scopes.pending = some (Text.fold label) → x s = (Routine.attempt first >>= rest) s

namespace Run.Begins

variable {label : String} {x y first : Run Unit}

theorem refl : Begins label x x := by
  refine ⟨onward Pure.pure, fun s _ => ?_⟩
  rw [attempt_onward, bind_pure]

theorem congr (h : Begins label x first)
    (heq : ∀ s : Session, s.scopes.pending = some (Text.fold label) → y s = x s) :
    Begins label y first := by
  obtain ⟨rest, hrest⟩ := h
  exact ⟨rest, fun s hs => (heq s hs).trans (hrest s hs)⟩

theorem attempt (h : Begins label x first) (f : Except Signal Unit → Run Unit) :
    Begins label (Routine.attempt x >>= f) first := by
  obtain ⟨rest, hrest⟩ := h
  refine ⟨fun result => Routine.attempt (rest result) >>= f, fun s hs => ?_⟩
  rw [Routine.attempt_bind_apply, Routine.attempt_bind_apply, hrest s hs,
    Routine.attempt_bind_apply]
  cases first s with
  | exhausted => rfl
  | done a t =>
    dsimp only
    rw [Routine.attempt_bind_apply]
  | exit signal t =>
    dsimp only
    rw [Routine.attempt_bind_apply]

theorem bind (h : Begins label x first) (f : Unit → Run Unit) : Begins label (x >>= f) first :=
  (h.attempt (onward f)).congr fun s _ => (attempt_onward x f s).symm

end Run.Begins

namespace Evaluator

/-- The search for a label in a list of statements comes to a statement, which is then executed
under a budget of its own: it stands in the list or in a block that is searched, and what is
searched before it does not offer the label. -/
inductive Finds (label : String) : Nat → List Statement → Nat → Statement → Prop
  | here {n : Nat} {statement : Statement} {before after : List Statement}
      (hbefore : Skipped n label before) :
      Finds label n (before ++ statement :: after) n statement
  | inside {n k : Nat} {outer statement : Statement} {before after : List Statement} {block : Block}
      {earlier later : List Block} (hbefore : Skipped (n + 1) label before)
      (hblocks : outer.searched = earlier ++ block :: later)
      (hearlier : ∀ b ∈ earlier, Skipped n label b.statements)
      (h : Finds label n block.statements k statement) :
      Finds label (n + 1) (before ++ outer :: after) k statement

variable {label : String}

theorem executeAll_begins {n : Nat} {statement : Statement} {before after : List Statement}
    {first : Run Unit} (hbefore : Skipped n label before)
    (h : Run.Begins label (BrightScript.execute n statement) first) :
    Run.Begins label ((ofBudget n).executeAll (before ++ statement :: after)) first := by
  refine (h.bind fun _ => (ofBudget n).executeAll after).congr fun s hs => ?_
  rw [executeAll_append, Routine.bind_apply, executeAll_of_skipped hs hbefore]
  rfl

theorem searchBlocks_begins {n : Nat} {block : Block} {earlier later : List Block}
    {first : Run Unit} (hearlier : ∀ b ∈ earlier, Skipped n label b.statements)
    (h : Run.Begins label ((ofBudget n).executeBlock block) first) :
    Run.Begins label ((ofBudget n).searchBlocks (earlier ++ block :: later)) first := by
  induction earlier with
  | nil => exact h.bind _
  | cons b rest ih =>
    obtain ⟨hb, hrest⟩ := List.forall_mem_cons.1 hearlier
    refine (ih hrest).congr fun s hs => ?_
    have hskipped : (ofBudget n).executeBlock b s = .done () s := executeAll_of_skipped hs hb
    rw [List.cons_append, searchBlocks, Routine.bind_apply, hskipped]
    dsimp only
    rw [searching, Routine.bind_apply, Routine.view_apply, hs]
    rfl

theorem execute_begins {n : Nat} {outer : Statement} {block : Block} {earlier later : List Block}
    {first : Run Unit} (hblocks : outer.searched = earlier ++ block :: later)
    (hearlier : ∀ b ∈ earlier, Skipped n label b.statements)
    (h : Run.Begins label ((ofBudget n).executeBlock block) first) :
    Run.Begins label (BrightScript.execute (n + 1) outer) first := by
  -- All forms but the branches of an `if` are searched in one block.
  have only {body : Block} (hone : [body] = earlier ++ block :: later) : body = block := by
    have hmem : block ∈ [body] := by
      rw [hone]
      exact List.mem_append_right _ (.head _)
    exact (List.mem_singleton.1 hmem).symm
  have hsearch : Run.Begins label ((ofBudget n).search n (Text.fold label) outer) first := by
    cases outer with
    | conditional condition thenBranch elseIfs elseBranch location =>
      show Run.Begins label ((ofBudget n).searchBlocks
        (Statement.conditional condition thenBranch elseIfs elseBranch location).searched) first
      rw [hblocks]
      exact searchBlocks_begins hearlier h
    | block body =>
      obtain rfl := only hblocks
      exact h
    | tryCatch tryBlock binding catchBlock location =>
      obtain rfl := only hblocks
      exact h
    | forLoop counter start final step body location =>
      obtain rfl := only hblocks
      exact h.attempt _
    | forEach item target body location =>
      obtain rfl := only hblocks
      exact h.attempt _
    | whileLoop condition body location =>
      obtain rfl := only hblocks
      exact h.attempt _
    | _ => exact absurd hblocks.symm (List.append_ne_nil_of_right_ne_nil _ (List.cons_ne_nil _ _))
  exact hsearch.congr fun s hs => statement_of_pending hs

/-- The run of a list of statements begins, while the label is looked for, with the statement that
the search comes to. -/
theorem Finds.begins {n k : Nat} {statements : List Statement} {statement : Statement}
    (h : Finds label n statements k statement) :
    Run.Begins label ((ofBudget n).executeAll statements) (BrightScript.execute k statement) := by
  induction h with
  | here hbefore => exact executeAll_begins hbefore .refl
  | inside hbefore hblocks hearlier _ ih =>
    exact executeAll_begins hbefore (execute_begins hblocks hearlier ih)

/-! ## Going on -/

/-- The pass that began behind a label in the body of a loop has come to its end. -/
def Lands (n : Nat) (body : Block) (s w : Session) : Prop :=
  (ofBudget n).executeBlock body s = .done () w ∧ w.scopes.pending = none ∨
    ∃ location, (ofBudget n).executeBlock body s = .exit (.continueFor location) w

/-- The passes over all elements from an index on. The variable runs through the others first. -/
def passesFrom (ev : Evaluator) (item : Identifier) (body : Block) (index : Nat)
    (elements : List Value) : Run Unit := do
  (elements.take index).forM (Run.bindLocal item)
  ev.forEachPasses item body 0 index (elements.drop index)

theorem forEachPasses_of_le {ev : Evaluator} {item : Identifier} {body : Block} {skip index : Nat}
    (h : skip ≤ index) (elements : List Value) :
    ev.forEachPasses item body skip index elements =
      ev.forEachPasses item body 0 index elements := by
  induction elements generalizing index with
  | nil => rfl
  | cons element rest ih =>
    have hrest := ih (Nat.le_succ_of_le h)
    rw [forEachPasses, forEachPasses, if_neg (Nat.not_lt.2 h), if_neg (Nat.not_lt_zero _), hrest]

theorem forEachPasses_add (ev : Evaluator) (item : Identifier) (body : Block) (count index : Nat)
    (elements : List Value) :
    ev.forEachPasses item body (index + count) index elements = (do
      (elements.take count).forM (Run.bindLocal item)
      ev.forEachPasses item body 0 (index + count) (elements.drop count)) := by
  induction count generalizing index elements with
  | zero => exact forEachPasses_of_le (Nat.le_refl _) elements
  | succ count ih =>
    cases elements with
    | nil => rfl
    | cons element rest =>
      have hrest := ih (index + 1) rest
      rw [Nat.add_right_comm, Nat.add_assoc] at hrest
      rw [forEachPasses, if_pos (by omega), hrest]
      exact (bind_assoc _ _ _).symm

/-- A `for each` that a `goto` landed in goes on with the element that the session has noted by
then, which is forgotten. -/
theorem execute_forEach_of_lands {n : Nat} {item : Identifier} {target : Expr} {body : Block}
    {place : Location} {s w w' : Session} {collection : Value} {elements : List Value}
    (hs : s.scopes.pending.isSome = true) (hbody : Lands n body s w)
    (htarget : BrightScript.evaluate n target w = .done collection w')
    (helements : w'.heap.elements? collection = some elements) :
    BrightScript.execute (n + 1) (.forEach item target body place) s =
      (ofBudget n).passesFrom item body (w'.resumeAt.getD 0) elements
        { w' with resumeAt := none } := by
  have goesOn : (ofBudget n).forEach item target body true w =
      (ofBudget n).passesFrom item body (w'.resumeAt.getD 0) elements
        { w' with resumeAt := none } := by
    have hevaluate : (ofBudget n).evaluate target w = .done collection w' := htarget
    rw [forEach, Routine.bind_apply, hevaluate]
    dsimp only
    rw [Routine.bind_apply, Routine.view_apply, helements]
    have hpasses := forEachPasses_add (ofBudget n) item body (w'.resumeAt.getD 0) 0 elements
    rw [Nat.zero_add] at hpasses
    rw [passesFrom, ← hpasses]
    rfl
  obtain ⟨label, hlabel⟩ := Option.isSome_iff_exists.1 hs
  show (ofBudget n).statement n (.forEach item target body place) s = _
  rw [statement_of_pending hlabel, search, searchLoop, inLoop, Routine.attempt_bind_apply]
  obtain ⟨hrun, hfound⟩ | ⟨location, hrun⟩ := hbody
  · rw [hrun]
    dsimp only
    rw [searching, Routine.bind_apply, Routine.view_apply, hfound]
    exact goesOn
  · rw [hrun]
    exact goesOn

end Evaluator

/-- A `goto` leaves the body of a procedure. Then the next run of the body looks for the label, and
the `goto` left a statement of the body as `Leaves` says. If the search comes to a `for each`, this
run begins with it. If the pass in the body of the loop comes to an end, the loop goes on with the
element noted by then. Unless something was noted or used up since the `goto`, this is the element
after the one of the outermost loop it left, so the right one if it is this loop; and if the `goto`
left no loop, it is the one noted before, so the first one if nothing was noted. -/
theorem forEach_resumption {n : Nat} {procedure : Procedure} {s t u : Session}
    {last location : Location} {label : String}
    (hpass : Evaluator.Pass (.ofBudget n) procedure s last t)
    (hgoto : (Evaluator.ofBudget n).executeBlock procedure.body t =
      .exit (.goto label location) u) :
    Evaluator.Pass (.ofBudget n) procedure s location (Evaluator.lookingFor u label) ∧
    ∃ statement ∈ procedure.body.statements, ∃ exits g,
      Evaluator.Leaves label location n statement exits g u ∧
      u.resumeAt = (exits.head?.map fun e => e.index + 1).or g.resumeAt ∧
      ∀ (k : Nat) (item : Identifier) (target : Expr) (body : Block) (place : Location),
        Evaluator.Finds label n procedure.body.statements (k + 1)
          (.forEach item target body place) →
        Run.Begins label ((Evaluator.ofBudget n).executeBlock procedure.body)
          (execute (k + 1) (.forEach item target body place)) ∧
        ∀ (w v : Session) (collection : Value) (elements : List Value),
          Evaluator.Lands k body (Evaluator.lookingFor u label) w →
          evaluate k target w = .done collection v →
          v.heap.elements? collection = some elements →
          ∃ index, index = v.resumeAt.getD 0 ∧
            execute (k + 1) (.forEach item target body place) (Evaluator.lookingFor u label) =
              (Evaluator.ofBudget k).passesFrom item body index elements
                { v with resumeAt := none } ∧
            (v.resumeAt = u.resumeAt →
              (∀ e inner, exits = e :: inner → index = e.index + 1) ∧
              (exits = [] → index = g.resumeAt.getD 0)) := by
  obtain ⟨-, statement, hmem, exits, g, hleaves⟩ := Evaluator.leavesBlock_of_goto hgoto
  have hnoted := hleaves.resumeAt
  refine ⟨hpass.again hgoto, statement, hmem, exits, g, hleaves, hnoted, ?_⟩
  intro k item target body place hfinds
  refine ⟨hfinds.begins, fun w v collection elements hlands htarget helements => ?_⟩
  refine ⟨_, rfl, Evaluator.execute_forEach_of_lands rfl hlands htarget helements, fun hkept => ?_⟩
  rw [hkept, hnoted]
  refine ⟨?_, ?_⟩
  · rintro e inner rfl
    rfl
  · rintro rfl
    rfl

/-- A body that is left for the label at its end. -/
def againBody : Block :=
  ⟨[.goto ⟨"again", .builtin⟩ .builtin, .label ⟨"again", .builtin⟩], .builtin⟩

def oneAndTwo : Expr :=
  .arrayLiteral [.literal (.integer 1) .builtin, .literal (.integer 2) .builtin] .builtin

def againLoop : Statement :=
  .forEach ⟨"x", .builtin⟩ oneAndTwo againBody .builtin

def againSub : Procedure :=
  ⟨"f", [], .void, true, ⟨[againLoop], .builtin⟩, .builtin⟩

/-- The loop is left in the pass over its first element and goes on with the second one. -/
theorem forEach_resumption_againLoop : ∃ (u w v : Session) (collection : Value),
    (Evaluator.ofBudget 4).executeBlock againSub.body (.new .standard) =
      .exit (.goto "again" .builtin) u ∧
    Evaluator.Lands 3 againBody (Evaluator.lookingFor u "again") w ∧
    evaluate 3 oneAndTwo w = .done collection v ∧
    v.heap.elements? collection = some [.integer 1, .integer 2] ∧
    execute 4 againLoop (Evaluator.lookingFor u "again") =
      (Evaluator.ofBudget 3).passesFrom ⟨"x", .builtin⟩ againBody 1 [.integer 1, .integer 2]
        { v with resumeAt := none } := by
  -- The runs up to the element it goes on with are carried out.
  obtain ⟨u, w, v, collection, hu, hw, hv, helements, hindex⟩ :
      ∃ (u w v : Session) (collection : Value),
        (Evaluator.ofBudget 4).executeBlock againSub.body (.new .standard) =
          .exit (.goto "again" .builtin) u ∧
        Evaluator.Lands 3 againBody (Evaluator.lookingFor u "again") w ∧
        evaluate 3 oneAndTwo w = .done collection v ∧
        v.heap.elements? collection = some [.integer 1, .integer 2] ∧ v.resumeAt.getD 0 = 1 :=
    ⟨_, _, _, _, rfl, .inl ⟨rfl, rfl⟩, rfl, rfl, rfl⟩
  have hpass : Evaluator.Pass (.ofBudget 4) againSub (.new .standard) againSub.location
    (.new .standard) := .start
  obtain ⟨_, _, _, _, _, _, _, hloops⟩ := forEach_resumption hpass hu
  have hfinds : Evaluator.Finds "again" 4 ([] ++ [againLoop]) 4 againLoop :=
    .here fun _ h => nomatch h
  obtain ⟨_, hgoesOn⟩ := hloops 3 _ _ _ _ hfinds
  obtain ⟨index, rfl, hrun, _⟩ := hgoesOn w v collection _ hw hv helements
  rw [hindex] at hrun
  exact ⟨u, w, v, collection, hu, hw, hv, helements, hrun⟩

/-- What a script with a main sub writes. -/
def outputOf (lines : List String) : Option String :=
  (parse "main.brs" ("\n".intercalate lines)).toOption.bind fun statements =>
    ((Session.new .standard).exec 14 statements []).map fun (_, t) => t.stdout

/-- After a `goto` from outside of all loops a loop is to go on with its first element. It goes on
with its last one, since another loop was left at its second element before. After a `goto` within
two loops the inner one is to go on with twenty, and then there is nothing left to do. It goes on
with thirty, by the index of the outer loop, which then starts again. -/
theorem forEach_resumption_confused :
    outputOf ["sub main()", "y = 0", "for each x in [1, 2, 3]", "if x = 2 then goto out", "end for",
        "out:", "goto inside", "for each y in [10, 20, 30]", "inside:", "print y", "end for",
        "end sub"] =
      some " 0\n 30\n" ∧
    outputOf ["sub main()", "n = 0", "for each x in [1, 2]", "for each y in [10, 20, 30]", "again:",
        "print y", "n = n + 1", "if n = 4 then goto again", "end for", "end for", "end sub"] =
      some " 10\n 20\n 30\n 10\n 10\n 30\n 10\n 20\n 30\n 10\n 20\n 30\n" := by
  decide +kernel

end BrightScript
