import BrightScript.Proofs.Barriers
import BrightScript.Proofs.Frames
import BrightScript.Proofs.LabelSearch

/-!
# Where a thrown error goes

A `throw` raises an error once its value is worked out. Inside a `try` nothing stops that error
before the `try`: it goes through statements, expressions and calls as it is, no debugger is asked
and nothing is recorded. So the innermost `try` around a `throw`, in the same function or in one
that called it, catches the error that the `throw` raised. That is shown by comparing a run with one
that gives up at the `throw` (`Evaluator.beforeThrow`), unless it is in the block of another `try`
further in, where it is caught there.
-/

namespace BrightScript

variable {α : Type} {s : Session} {st : Statement} {rest : List Statement} {location : Location}

/-- A value that is thrown at a place, and the session in which it was worked out. -/
structure Throw where
  value : Value
  place : Location
  session : Session

def Throw.error (thrown : Throw) : ScriptError :=
  (Thrown.ofValue thrown.session.heap thrown.value).toError thrown.place thrown.session.stack

/-- A statement is a `throw`, it is come to, and its value is worked out. -/
def Statement.Throws (n : Nat) (statement : Statement) (s : Session) (thrown : Throw) : Prop :=
  ∃ (value : Expr) (t : Session), statement = .throwing value thrown.place ∧
    s.scopes.pending = none ∧ Evaluator.approach statement s = .done () t ∧
      evaluate n value t = .done thrown.value thrown.session

namespace Evaluator

/-- What a statement does, with the block of a `try` executed as usual. -/
def performSheltered (ev : Evaluator) (n : Nat) : Statement → Run Unit
  | .tryCatch tryBlock binding catchBlock _ =>
    Run.catching ((ofBudget n).executeBlock tryBlock) (ev.catchError binding catchBlock)
  | st => ev.perform n st

/-- Executes a statement, with the block of a `try` executed as usual. -/
def sheltered (ev : Evaluator) (n : Nat) (st : Statement) : Run Unit :=
  fun s =>
    match s.scopes.pending with
    | some label => ev.search n label st s
    | none => (approach st >>= fun _ => ev.performSheltered n st) s

open Classical in
/-- Evaluation under a budget that gives up at a `throw`, unless the block of a `try` further in
stands around it. -/
noncomputable def beforeThrow (thrown : Throw) : (n : Nat) → Evaluator
  | 0 => ofBudget 0
  | n + 1 =>
    ⟨(beforeThrow thrown n).expression n, fun st s =>
      if st.Throws n s thrown then .exhausted else (beforeThrow thrown n).sheltered n st s⟩

/-- A block that is executed in a session comes to a `throw`, in its own statements or in the
functions that it calls, and no `try` inside of the block stands around it. -/
def Throws (n : Nat) (block : Block) (s : Session) (thrown : Throw) : Prop :=
  (beforeThrow thrown n).executeBlock block s ≠ (ofBudget n).executeBlock block s

end Evaluator

/-! ## Errors that are going to be caught -/

/-- Inside a `try`, and so is everything that is run there. -/
def Contract.trying : Contract fun _ => True :=
  Invariant.contract {
    inv s := s.tryMode = true
    admissible := .trivial
    holds := fun {s} _ => .trivial s
    update := fun hf hs => (Session.SameFrames.update hf _).tryMode.trans hs
    serviced := fun h hs => (congrArg Core.tryMode h.core).trans hs
    raise := fun _ hs => (congrArg Core.tryMode (Session.core_note _ _)).trans hs
    tried := fun _ => rfl
    untried := fun hs _ => hs
    unhelped := id
    rewound := id
    entered := fun _ => id
    returnedTo := fun _ => id }

/-- A run that is left by the error of a `throw`. -/
def Barrier.thrown (thrown : Throw) : Barrier where
  left signal _ := signal = .error thrown.error
  marks _ := False
  of_marks h := h.elim
  not_jump h := by rw [h]; rfl
  printed h := h

theorem Barrier.passed_thrown {thrown : Throw} (o : Outcome Signal Session α) :
    (Barrier.thrown thrown).Passed o :=
  fun _ _ _ h => h

/-- No debugger is asked about an error inside a `try`. -/
theorem Run.crash_of_tryMode (signal : Signal) (hs : s.tryMode = true) :
    (Run.crash signal : Run α) s = .exit signal s := by
  cases signal with
  | error e =>
    have hcrashes : ¬ Run.crashes s e = true := by simp [Run.crashes, hs]
    rw [Run.crash_error_apply, if_neg hcrashes]
  | _ => rfl

theorem Run.raise_of_tryMode {e : ScriptError} (hs : s.tryMode = true)
    (he : e.backtrace.isSome = true) : (Run.raise e : Run α) s = .exit (.error e) s := by
  obtain ⟨frames, hframes⟩ := Option.isSome_iff_exists.1 he
  have htraced : s.traced e = e := by
    rw [Session.traced, hframes, Option.getD_some, ← hframes]
  have hnote : s.note e = s := if_pos hs
  show Outcome.exit (Signal.error (s.traced e)) (s.note (s.traced e)) = _
  rw [htraced, hnote]

namespace Evaluator

variable {thrown : Throw}

/-- A statement is come to in the `try` mode of the session before. -/
theorem tryMode_of_approach {t : Session} (h : approach st s = .done () t) :
    t.tryMode = s.tryMode := by
  obtain ⟨t', ht', hcore⟩ | ⟨location, t', ht', -⟩ := approach_cases st s
  · rw [ht'] at h
    cases h
    exact congrArg Core.tryMode hcore
  · rw [ht'] at h
    cases h

/-- Runs inside a `try` that give up at a `throw`. -/
def throwWalk (thrown : Throw) : Walk fun _ => True :=
  .barred Contract.trying (.thrown thrown)

/-- A call passes on the error of a `throw` in its body. -/
theorem throwWalk_calls : (throwWalk thrown).Calls := by
  intro frame? returns context call x x' hx
  refine ⟨Contract.trying.simulation.calls hx.1, fun s hs => ?_⟩
  unfold Run.calling
  split
  · exact .refl (Barrier.passed_thrown _)
  · rw [Run.handle_inCall_apply, Run.handle_inCall_apply, Routine.handle, Routine.handle]
    have hinv : (s.entered (context.getD s.scopes.rootM) frame?).tryMode = true := hs
    obtain ⟨heq, -⟩ | ⟨heq, signal, t, hleft, hsignal⟩ := hx.2 _ hinv
    · rw [heq]
      exact .refl (Barrier.passed_thrown _)
    · have ht : t.tryMode = true := by
        have hends := (hx.1 _ hinv).2
        rw [hleft] at hends
        exact hends.2.1
      obtain rfl : signal = .error thrown.error := hsignal
      rw [heq, hleft]
      dsimp only
      rw [Run.crash_of_tryMode _ ht]
      exact .inr ⟨rfl, _, _, rfl, rfl⟩

/-- A `throw` that is come to inside a `try` leaves the run. -/
theorem exit_of_throws {n : Nat} (hs : s.tryMode = true) (h : st.Throws n s thrown) :
    BrightScript.execute (n + 1) st s = .exit (.error thrown.error) thrown.session := by
  obtain ⟨value, t, rfl, hpending, hcome, hvalue⟩ := h
  have ht : t.tryMode = true := (tryMode_of_approach hcome).trans hs
  have hsession : thrown.session.tryMode = true := by
    have hends := Contract.trying.evaluate n value ht
    rw [hvalue] at hends
    exact hends.2.1
  rw [BrightScript.execute]
  show (ofBudget n).statement n (.throwing value thrown.place) s = _
  rw [statement_of_pending_none _ n _ hpending, Routine.bind_apply, hcome]
  dsimp only
  show (BrightScript.evaluate n value >>= fun v => Run.throwValue v thrown.place) t = _
  rw [Routine.bind_apply, hvalue]
  exact Run.raise_of_tryMode hsession rfl

section Sheltered

variable {n : Nat} {ev : Evaluator} (h : (throwWalk thrown).Related ev (ofBudget n))
include h

/-- The handler of a `try` may give up; its block is the same on both sides. -/
theorem bars_catching (block : Block) (binding : Identifier) (catchBlock : Block)
    (hs : s.tryMode = true) :
    (Barrier.thrown thrown).Bars
      (Run.catching ((ofBudget n).executeBlock block) (ev.catchError binding catchBlock) s)
      ((ofBudget n).tryCatch block binding catchBlock s) := by
  rw [tryCatch, Run.catching, Run.catching]
  rcases (ofBudget n).executeBlock block (s.withTry true) with ⟨_, t⟩ | ⟨signal, t⟩ | _
  · exact .refl (Barrier.passed_thrown _)
  · cases signal with
    | error e =>
      exact ((throwWalk thrown).catchError h trivial binding catchBlock fun _ _ => trivial).2 _ hs
    | _ => exact .refl (Barrier.passed_thrown _)
  · exact .refl (Barrier.passed_thrown _)

theorem bars_performSheltered (st : Statement) (hs : s.tryMode = true) :
    (Barrier.thrown thrown).Bars (ev.performSheltered n st s) ((ofBudget n).perform n st s) := by
  have hother (hplain : st.endsSignals = false) :
      (Barrier.thrown thrown).Bars (ev.perform n st s) ((ofBudget n).perform n st s) := by
    refine ((throwWalk thrown).perform h n st fun hends => ?_).2 s hs
    rw [hplain] at hends
    cases hends
  cases st with
  | tryCatch tryBlock binding catchBlock location =>
    exact bars_catching h tryBlock binding catchBlock hs
  | returning value location =>
    have hleave (v : Option Value) : (throwWalk thrown).rel .statement (fun _ : Unit => True)
        (Routine.leave (.returning v location)) (Routine.leave (.returning v location)) :=
      ⟨Contract.trying.simulation.returning fun _ _ => trivial,
        fun _ _ => .refl (Barrier.passed_thrown _)⟩
    exact ((throwWalk thrown).first ((throwWalk thrown).returnValue h value)
      fun v _ => hleave v).2 s hs
  | _ => exact hother rfl

theorem bars_sheltered (st : Statement) (hs : s.tryMode = true) :
    (Barrier.thrown thrown).Bars (ev.sheltered n st s) ((ofBudget n).statement n st s) := by
  unfold sheltered
  cases hpending : s.scopes.pending with
  | some label =>
    rw [statement_of_pending hpending]
    exact ((throwWalk thrown).search h n label st).2 s hs
  | none =>
    rw [statement_of_pending_none _ n _ hpending]
    refine .bind (.refl (Barrier.passed_thrown _)) fun a t ht => ?_
    exact bars_performSheltered h st ((tryMode_of_approach ht).trans hs)

end Sheltered

/-- Inside a `try`, evaluation that gives up at a `throw` is evaluation up to there. -/
theorem related_beforeThrow (n : Nat) :
    (throwWalk thrown).Related (beforeThrow thrown n) (ofBudget n) := by
  induction n with
  | zero => exact ⟨fun _ => (throwWalk thrown).giveUp,
      fun _ => (throwWalk thrown).ofExpression (throwWalk thrown).giveUp⟩
  | succ n ih =>
    refine ⟨(throwWalk thrown).expressionOfCalls ih trivial throwWalk_calls n, fun st => ?_⟩
    refine ⟨(Contract.trying.simulation.ofBudget (n + 1)).execute st, fun s hs => ?_⟩
    by_cases hthrows : st.Throws n s thrown
    · exact .inr ⟨if_pos hthrows, _, _, exit_of_throws hs hthrows, rfl⟩
    · have heq : (beforeThrow thrown (n + 1)).execute st s =
          (beforeThrow thrown n).sheltered n st s := if_neg hthrows
      rw [heq]
      exact bars_sheltered ih st hs

/-- A block inside a `try` is left by the error of a `throw` that it comes to. -/
theorem Throws.exit {n : Nat} {block : Block} (hs : s.tryMode = true)
    (h : Throws n block s thrown) :
    ∃ t, (ofBudget n).executeBlock block s = .exit (.error thrown.error) t := by
  obtain ⟨heq, -⟩ | ⟨-, signal, t, hleft, hsignal⟩ :=
    ((throwWalk thrown).executeBlock (related_beforeThrow n) block).2 s hs
  · exact absurd heq h
  · obtain rfl : signal = .error thrown.error := hsignal
    exact ⟨t, hleft⟩

/-- A block whose first statement does not come to its end. -/
theorem executeBlock_of_head {ev : Evaluator} {o : Outcome Signal Session Unit}
    (ho : ev.execute st s = o) (hne : ∀ a t, o ≠ .done a t) :
    ev.executeBlock ⟨st :: rest, location⟩ s = o := by
  show (ev.execute st >>= fun _ => ev.executeAll rest) s = _
  rw [Routine.bind_apply, ho]
  cases o with
  | done a t => exact absurd rfl (hne a t)
  | _ => rfl

/-- A block that begins with a `throw`. -/
theorem throws_of_head {n : Nat} {thrown : Throw} (hs : s.tryMode = true)
    (h : st.Throws n s thrown) : Throws (n + 1) ⟨st :: rest, location⟩ s thrown := by
  have hreal : (ofBudget (n + 1)).execute st s = .exit (.error thrown.error) thrown.session :=
    exit_of_throws hs h
  have hstop : (beforeThrow thrown (n + 1)).execute st s = .exhausted := if_pos h
  unfold Throws
  rw [executeBlock_of_head hreal (fun _ _ h => by cases h),
    executeBlock_of_head hstop (fun _ _ h => by cases h)]
  simp

/-- A block that begins with a `try` whose handler comes to a `throw`. -/
theorem throws_of_handler {n : Nat} {tryBlock catchBlock : Block} {binding : Identifier}
    {place : Location} {t v w : Session} {e : ScriptError} (hpending : s.scopes.pending = none)
    (hcome : approach (.tryCatch tryBlock binding catchBlock place) s = .done () t)
    (hexit : (ofBudget n).executeBlock tryBlock (t.withTry true) = .exit (.error e) v)
    (hbound : (Run.caught e >>= Run.bindLocal binding) (v.withTry t.tryMode) = .done () w)
    (hw : w.tryMode = true) (h : Throws n catchBlock w thrown) :
    Throws (n + 1) ⟨.tryCatch tryBlock binding catchBlock place :: rest, location⟩ s thrown := by
  obtain ⟨hstop, signal, u, hreal, -⟩ :=
    (((throwWalk thrown).executeBlock (related_beforeThrow n) catchBlock).2 w hw).resolve_left
      fun heq => h heq.1
  have hcatch (ev : Evaluator) : ev.catchError binding catchBlock e (v.withTry t.tryMode) =
      ev.executeBlock catchBlock w := by
    show (Run.caught e >>= fun x => Run.bindLocal binding x >>= fun _ => ev.executeBlock catchBlock)
      (v.withTry t.tryMode) = _
    rw [← bind_assoc, Routine.bind_apply, hbound]
  have hnot : ¬ (Statement.tryCatch tryBlock binding catchBlock place).Throws n s thrown := by
    rintro ⟨_, _, hst, -⟩
    cases hst
  have hreal' : (ofBudget (n + 1)).execute (.tryCatch tryBlock binding catchBlock place) s =
      .exit signal u := by
    show (ofBudget n).statement n _ s = _
    rw [statement_of_pending_none _ n _ hpending, Routine.bind_apply, hcome]
    show (ofBudget n).tryCatch tryBlock binding catchBlock t = _
    rw [tryCatch, Run.catching, hexit]
    exact (hcatch _).trans hreal
  have hstop' : (beforeThrow thrown (n + 1)).execute
      (.tryCatch tryBlock binding catchBlock place) s = .exhausted := by
    refine (if_neg hnot).trans ?_
    rw [sheltered, hpending]
    dsimp only
    rw [Routine.bind_apply, hcome]
    show Run.catching _ _ t = _
    rw [Run.catching, hexit]
    exact (hcatch _).trans hstop
  unfold Throws
  rw [executeBlock_of_head hreal' (fun _ _ h => by cases h),
    executeBlock_of_head hstop' (fun _ _ h => by cases h)]
  simp

/-- A `try` catches the error of a `throw` that its block comes to. -/
theorem Throws.tryCatch {n : Nat} {tryBlock : Block} (h : Throws n tryBlock (s.withTry true) thrown)
    (binding : Identifier) (catchBlock : Block) :
    ∃ t, (ofBudget n).tryCatch tryBlock binding catchBlock s =
      (ofBudget n).catchError binding catchBlock thrown.error t := by
  obtain ⟨t, ht⟩ := h.exit rfl
  refine ⟨t.withTry s.tryMode, ?_⟩
  rw [Evaluator.tryCatch, Run.catching, ht]

end Evaluator

end BrightScript
