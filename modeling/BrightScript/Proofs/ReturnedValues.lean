import BrightScript.Proofs.Barriers
import BrightScript.Proofs.Steady

/-!
# What a call returns

A `return` is executed where the run comes to it and its value is worked out. From then on the call
is settled: whatever loops, branches, `try` blocks and searches for labels stand around the
statement, the signal of the `return` leaves the body, and the call makes of it the value in the
declared kind or an error. That is shown by comparing the run of the body with one that gives up at
such a `return` (`Evaluator.beforeReturn`). Only the statements of the call itself are looked at:
a `return` of another function that the body calls ends there.
-/

namespace BrightScript

/-! ## Values of a declared kind -/

namespace Value

theorem isObject_of_coerce? {v w : Value} (h : v.coerce? .interface = some w) :
    w.isObject = true := by
  rw [coerce?_interface] at h
  obtain ⟨hobject, heq⟩ := Option.ite_none_right_eq_some.1 h
  cases heq
  exact hobject

theorem eq_of_coerce?_dynamic {v w : Value} (h : v.coerce? .dynamic = some w) : w = v := by
  rw [coerce?_dynamic] at h
  exact (Option.some.inj h).symm

end Value

/-! ## Executed returns -/

/-- A statement is a `return` at a place, it is come to, and the value it returns is worked out. -/
def Statement.Returns (n : Nat) (statement : Statement) (s : Session) (value? : Option Value)
    (place : Location) : Prop :=
  ∃ (value : Option Expr) (t u : Session), statement = .returning value place ∧
    s.scopes.pending = none ∧ Evaluator.approach statement s = .done () t ∧
      (Evaluator.ofBudget n).returnValue value t = .done value? u

/-- A run that is left by a `return` at a place. -/
def Barrier.returned (value? : Option Value) (place : Location) : Barrier where
  left signal _ := signal = .returning value? place
  marks signal := signal = .returning value? place
  of_marks h := ⟨value?, place, h⟩
  not_jump h := by rw [h]; rfl
  printed h := h

namespace Evaluator

open Classical in
/-- Execution under a budget that gives up at a `return` of the current call. -/
noncomputable def beforeReturn (value? : Option Value) (place : Location) :
    (n : Nat) → Statement → Run Unit
  | 0 => BrightScript.execute 0
  | n + 1 => fun st s =>
    if st.Returns n s value? place then .exhausted
    else (executing n (beforeReturn value? place n)).statement n st s

/-- The body of a procedure executes a `return`, in a call that starts it in a session. -/
def ExecutesReturn (n budget : Nat) (body : Procedure) (args : List Value) (s : Session)
    (value? : Option Value) (place : Location) : Prop :=
  (executing n (beforeReturn value? place n)).runProcedure budget body args s ≠
    (ofBudget n).runProcedure budget body args s

/-- The body of a procedure comes to its end, in its first run or in one after a `goto`. -/
def ComesToEnd (n : Nat) (body : Procedure) (args : List Value) (s : Session) : Prop :=
  ∃ (s₁ t u : Session) (last : Location),
    (ofBudget n).bindParameters body.parameters args s = .done () s₁ ∧
      Pass (ofBudget n) body s₁ last t ∧ (ofBudget n).executeBlock body.body t = .done () u ∧
        u.scopes.pending = none

section Barred

variable {value? : Option Value} {place : Location}

/-- Runs that give up at a `return`. -/
def returnWalk (value? : Option Value) (place : Location) : Walk fun _ => True :=
  .barred Contract.signals (.returned value? place)

theorem barred_evaluate (n : Nat) (e : Expr) :
    (returnWalk value? place).rel .expression (fun _ => True) (BrightScript.evaluate n e)
      (BrightScript.evaluate n e) := by
  refine ⟨(Contract.signals.simulation.ofBudget n).evaluate e,
    fun s hs => .refl fun signal t ht hmarks => ?_⟩
  have hends := Contract.signals.evaluate n e hs
  rw [ht] at hends
  have hfinal : signal.isFinal = true := hends.2.2 rfl
  obtain rfl : signal = .returning value? place := hmarks
  cases hfinal

/-- A `try` lets a `return` through. -/
theorem barred_catching {x x' : Run Unit} {h h' : ScriptError → Run Unit}
    (hx : (returnWalk value? place).performs x x')
    (hh : ∀ e, (returnWalk value? place).performs (h e) (h' e)) :
    (returnWalk value? place).performs (Run.catching x h)
      (Run.catching x' h') := by
  refine ⟨hx.1.catching fun e _ => (hh e).1, fun s _ => ?_⟩
  rw [Run.catching, Run.catching]
  obtain ⟨heq, hpassed⟩ | ⟨heq, signal, t, hleft, hsignal⟩ := hx.2 (s.withTry true) trivial
  · rw [heq]
    cases hxs : x' (s.withTry true) with
    | done a t => exact .refl (Barrier.passed_done _ _)
    | exit signal t =>
      cases signal with
      | error e => exact (hh e).2 _ trivial
      | _ =>
        refine .refl fun signal' t' h => ?_
        cases h
        exact hpassed _ t hxs
    | exhausted => exact .refl Barrier.passed_exhausted
  · rw [heq, hleft]
    obtain rfl : signal = .returning value? place := hsignal
    exact .inr ⟨rfl, _, _, rfl, rfl⟩

/-- A `return` that is come to leaves the run if its value is worked out. -/
theorem statement_returning (ev : Evaluator) (n : Nat) (value : Option Expr) {s : Session}
    (hpending : s.scopes.pending = none) :
    ev.statement n (.returning value place) s =
      (approach (.returning value place) >>= fun _ => ev.returnValue value >>= fun v =>
        Routine.leave (.returning v place)) s :=
  ev.statement_of_pending_none n _ hpending

theorem exit_of_returns {n : Nat} {st : Statement} {s : Session}
    (h : st.Returns n s value? place) :
    ∃ u, BrightScript.execute (n + 1) st s = .exit (.returning value? place) u := by
  obtain ⟨value, t, u, rfl, hpending, hcome, hvalue⟩ := h
  refine ⟨u, ?_⟩
  rw [BrightScript.execute]
  show (ofBudget n).statement n (.returning value place) s = _
  rw [statement_returning _ n value hpending, Routine.bind_apply, hcome]
  dsimp only
  rw [Routine.bind_apply, hvalue]
  rfl

theorem returns_of_exit {n : Nat} {value : Option Expr} {spot : Location} {s u : Session}
    (h : BrightScript.execute (n + 1) (.returning value spot) s =
      .exit (.returning value? place) u) :
    (Statement.returning value spot).Returns n s value? place := by
  replace h : (ofBudget n).statement n (.returning value spot) s = _ := h
  cases hpending : s.scopes.pending with
  | some label =>
    rw [statement_of_pending hpending] at h
    cases h
  | none =>
    rw [statement_returning _ n value hpending, Routine.bind_apply] at h
    obtain ⟨t, ht, -⟩ | ⟨location, t, ht, -⟩ := approach_cases (.returning value spot) s
    · rw [ht] at h
      have hends := (Contract.signals.simulation.returnValue
        (Contract.signals.simulation.ofBudget n) value t trivial).2
      obtain hv | ⟨v, w, hv, h⟩ := Routine.bind_eq_exit.1 h
      · -- The value is an expression, and no `return` leaves an expression.
        rw [hv] at hends
        cases hends.2.2 rfl
      · cases h
        exact ⟨value, t, u, rfl, hpending, ht, hv⟩
    · rw [ht] at h
      cases h

theorem beforeReturn_succ (n : Nat) {st : Statement} {s : Session}
    (h : ¬ st.Returns n s value? place) :
    beforeReturn value? place (n + 1) st s =
      (executing n (beforeReturn value? place n)).statement n st s :=
  if_neg h

/-- Execution that gives up at a `return` is execution up to there. -/
theorem barred_beforeReturn (n : Nat) (st : Statement) :
    (returnWalk value? place).performs (beforeReturn value? place n st)
      (BrightScript.execute n st) := by
  induction n generalizing st with
  | zero => exact (returnWalk value? place).ofExpression (returnWalk value? place).giveUp
  | succ n ih =>
    have related : (returnWalk value? place).Related
        (executing n (beforeReturn value? place n)) (ofBudget n) :=
      ⟨barred_evaluate n, ih⟩
    refine ⟨(Contract.signals.simulation.ofBudget (n + 1)).execute st, fun s _ => ?_⟩
    by_cases hreturns : st.Returns n s value? place
    · obtain ⟨u, hu⟩ := exit_of_returns hreturns
      exact .inr ⟨if_pos hreturns, _, u, hu, rfl⟩
    rw [beforeReturn_succ n hreturns]
    cases st with
    | returning value spot =>
      -- Nothing below a `return` is a statement, so both runs are the same.
      refine .inl ⟨rfl, fun signal u hu hmarks => hreturns ?_⟩
      obtain rfl : signal = .returning value? place := hmarks
      exact returns_of_exit hu
    | tryCatch tryBlock binding catchBlock location =>
      have caught : (returnWalk value? place).performs
          ((executing n (beforeReturn value? place n)).tryCatch tryBlock binding catchBlock)
          ((ofBudget n).tryCatch tryBlock binding catchBlock) := by
        rw [tryCatch, tryCatch]
        exact barred_catching ((returnWalk value? place).executeBlock related tryBlock)
          fun e => (returnWalk value? place).catchError related trivial binding catchBlock
            fun _ _ => trivial
      exact ((returnWalk value? place).statement related n
        (.tryCatch tryBlock binding catchBlock location) fun _ => caught).2 s trivial
    | _ => exact ((returnWalk value? place).statement related n _ fun h => by cases h).2 s trivial

theorem related_beforeReturn (n : Nat) :
    (returnWalk value? place).Related (executing n (beforeReturn value? place n)) (ofBudget n) :=
  ⟨barred_evaluate n, barred_beforeReturn n⟩

/-- A body executes a `return` exactly if it is left by it. -/
theorem executesReturn_iff {n budget : Nat} {body : Procedure} {args : List Value} {s : Session} :
    ExecutesReturn n budget body args s value? place ↔
      ∃ u, (ofBudget n).runProcedure budget body args s = .exit (.returning value? place) u := by
  have hbars := ((returnWalk value? place).runProcedure (related_beforeReturn n) budget body
    (fun v (_ : v ∈ args) => trivial)).2 s trivial
  unfold ExecutesReturn
  obtain ⟨heq, hpassed⟩ | ⟨heq, signal, u, hu, hsignal⟩ := hbars
  · refine ⟨fun hne => absurd heq hne, ?_⟩
    rintro ⟨u, hu⟩
    exact absurd rfl (hpassed _ u hu)
  · obtain rfl : signal = .returning value? place := hsignal
    refine ⟨fun _ => ⟨u, hu⟩, fun _ => ?_⟩
    rw [heq, hu]
    simp

end Barred

/-! ## Bodies that come to their end -/

/-- The last run of a body came to its end. -/
theorem pass_of_iterate_done {ev : Evaluator} {body : Procedure} {s t u : Session}
    {start last : Location} {budget : Nat} (hpass : Pass ev body s start t)
    (h : Routine.iterate (ev.runBody body) budget start t = .done last u) :
    ∃ t', Pass ev body s last t' ∧ ev.executeBlock body.body t' = .done () u := by
  induction budget generalizing start t with
  | zero => cases h
  | succ budget ih =>
    rw [Routine.iterate_succ] at h
    cases hblock : ev.executeBlock body.body t with
    | done a t' =>
      rw [runBody_of_done hblock] at h
      cases h
      exact ⟨t, hpass, hblock⟩
    | exit signal t' =>
      cases signal with
      | goto label location =>
        rw [runBody_of_goto hblock] at h
        exact ih (hpass.again hblock) h
      | _ =>
        rw [runBody, Routine.attempt_bind_apply, hblock] at h
        cases h
    | exhausted =>
      rw [runBody, Routine.attempt_bind_apply, hblock] at h
      cases h

theorem comesToEnd_of_done {n budget : Nat} {body : Procedure} {args : List Value} {s u : Session}
    {v : Value} (h : (ofBudget n).runProcedure budget body args s = .done v u) :
    v = .invalid ∧ ComesToEnd n body args s := by
  obtain ⟨⟨⟩, s₁, hargs, h⟩ := Routine.bind_eq_done.1 h
  obtain ⟨last, t, hloop, h⟩ := Routine.bind_eq_done.1 h
  obtain ⟨t', hpass, hblock⟩ := pass_of_iterate_done .start hloop
  rw [Routine.bind_apply, Routine.view_apply] at h
  dsimp only at h
  cases hpending : t.scopes.pending with
  | some label =>
    rw [hpending] at h
    cases h
  | none =>
    rw [hpending] at h
    cases h
    exact ⟨rfl, s₁, t', u, last, hargs, hpass, hblock, hpending⟩

end Evaluator

/-! ## Calls -/

def Session.started (s : Session) (c : Callable) (body : Procedure) (context : Option AssocRef)
    (location : Location) : Session :=
  s.entered (context.getD s.scopes.rootM) (Evaluator.frameOf? c body.signature location)

/-- Only a `return` gives a call that a signal left a value. -/
theorem Run.of_leaveCall_done {returns : Kind} {signal : Signal} {v : Value} {s t : Session}
    (h : Run.leaveCall returns signal s = .done v t) :
    (∃ place, signal = .returning none place ∧ returns = .void ∧ v = .invalid) ∨
      ∃ x place, signal = .returning (some x) place ∧ returns ≠ .void ∧
        x.coerce? returns = some v := by
  cases signal with
  | returning value? place =>
    cases value? with
    | none =>
      simp only [Run.leaveCall, Run.returned] at h
      split at h
      · next hvoid =>
        cases h
        exact .inl ⟨place, rfl, hvoid, rfl⟩
      · cases h
    | some x =>
      simp only [Run.leaveCall, Run.returned] at h
      split at h
      · cases h
      · next hvoid =>
        cases hw : x.coerce? returns with
        | some w =>
          rw [hw] at h
          cases h
          exact .inr ⟨x, place, rfl, hvoid, hw⟩
        | none =>
          rw [hw] at h
          cases h
  | _ => cases h

namespace Evaluator

variable {n budget : Nat} {c : Callable} {body : Procedure} {args given : List Value}
  {context : Option AssocRef} {location closing : Location} {s t : Session}

theorem firstSatisfied_procedure (hc : c.target = .procedure body)
    (hgiven : body.signature.satisfy? args = some given) :
    firstSatisfied args 0 c.overloads = some ⟨0, body.signature, given⟩ := by
  rw [Callable.overloads, hc, Target.overloads, firstSatisfied, hgiven]

theorem exists_given_of_call_done (hc : c.target = .procedure body) {v : Value}
    (h : (ofBudget n).call budget c args context location closing s = .done v t) :
    s.isFull = false ∧ ∃ given, body.signature.satisfy? args = some given := by
  cases hgiven : body.signature.satisfy? args with
  | none =>
    rw [call, Run.call, Run.dispatch, Callable.overloads, hc, Target.overloads, firstSatisfied,
      hgiven] at h
    cases h
  | some given =>
    refine ⟨?_, given, rfl⟩
    rw [call_procedure_eq _ _ (by rw [hc]; rfl) (firstSatisfied_procedure hc hgiven)] at h
    split at h
    · cases h
    · next hroom => exact decide_eq_false hroom

/-- A call of a procedure with room on the stack, whose arguments fit, runs the body and looks at
the signal that leaves it. -/
theorem call_eq_of_given (hc : c.target = .procedure body)
    (hgiven : body.signature.satisfy? args = some given) (hroom : s.isFull = false) :
    (ofBudget n).call budget c args context location closing s =
      Routine.handle
        (Run.inCall (context.getD s.scopes.rootM) (frameOf? c body.signature location)
          (Routine.handle ((ofBudget n).runProcedure budget body given) Run.crash))
        (Run.leaveCall body.returns) s := by
  rw [call_procedure_eq _ _ (by rw [hc]; rfl) (firstSatisfied_procedure hc hgiven),
    if_neg (of_decide_eq_false hroom), hc]
  rfl

/-- A call whose body executes a `return` makes of it what the declared kind demands. -/
theorem endsCall_of_executesReturn (hc : c.target = .procedure body)
    (hgiven : body.signature.satisfy? args = some given) (hroom : s.isFull = false)
    {value? : Option Value} {place : Location}
    (h : ExecutesReturn n budget body given (s.started c body context location) value? place) :
    ∃ t, (Signal.returning value? place).EndsCall body.returns t
      ((ofBudget n).call budget c args context location closing s) := by
  obtain ⟨u, hu⟩ := executesReturn_iff.1 h
  refine ⟨u.returnedTo s (frameOf? c body.signature location), ?_⟩
  have hbody : Routine.handle ((ofBudget n).runProcedure budget body given) Run.crash
      (s.started c body context location) = .exit (.returning value? place) u := by
    rw [Routine.handle, hu]
    rfl
  rw [call_eq_of_given hc hgiven hroom, Run.handle_inCall_apply]
  rw [Session.started] at hbody
  rw [hbody]
  exact Run.endsCall_leaveCall _ _ _

/-- Where the value of a call comes from. -/
theorem cases_of_call_done (hc : c.target = .procedure body)
    (hgiven : body.signature.satisfy? args = some given) (hroom : s.isFull = false) {v : Value}
    (h : (ofBudget n).call budget c args context location closing s = .done v t) :
    let start := s.started c body context location
    (∃ x place, ExecutesReturn n budget body given start (some x) place ∧ body.returns ≠ .void ∧
      x.coerce? body.returns = some v) ∨
    (∃ place, ExecutesReturn n budget body given start none place ∧ body.returns = .void ∧
      v = .invalid) ∨
    (ComesToEnd n body given start ∧ v = .invalid) := by
  intro start
  rw [call_eq_of_given hc hgiven hroom, Run.handle_inCall_apply] at h
  cases hbody : Routine.handle ((ofBudget n).runProcedure budget body given) Run.crash
      (s.entered (context.getD s.scopes.rootM) (frameOf? c body.signature location)) with
  | done w u =>
    rw [hbody] at h
    cases h
    obtain ⟨hv, hend⟩ := comesToEnd_of_done (Run.eq_done_of_crashing hbody)
    exact .inr (.inr ⟨hend, hv⟩)
  | exit signal u =>
    rw [hbody] at h
    obtain ⟨place, rfl, hvoid, hv⟩ | ⟨x, place, rfl, hvoid, hv⟩ := Run.of_leaveCall_done h
    · have hreturn := executesReturn_iff.2 ⟨u, Run.eq_exit_of_crashing rfl hbody⟩
      exact .inr (.inl ⟨place, hreturn, hvoid, hv⟩)
    · have hreturn := executesReturn_iff.2 ⟨u, Run.eq_exit_of_crashing rfl hbody⟩
      exact .inl ⟨x, place, hreturn, hvoid, hv⟩
  | exhausted =>
    rw [hbody] at h
    cases h

end Evaluator

/-! ## Returned values -/

/-- A call of a procedure, from any session and under every budget:

* If it has a value, its body either executed a `return` with a value, which is the value of the
  call in the declared kind, or executed a `return` without one in a procedure that returns nothing,
  or came to its end. In the last two cases the value is `invalid`.
* If its body executes a `return`, wherever that stands, the call has the value that the declared
  kind makes of it, or fails: with error 170 if nothing is to be returned, 24 if the value cannot be
  turned into the kind, and 169 if a value is missing. -/
theorem returned_values (n budget : Nat) (c : Callable) (body : Procedure)
    (hc : c.target = .procedure body) (args : List Value) (context : Option AssocRef)
    (location closing : Location) (s : Session) :
    let result := (Evaluator.ofBudget n).call budget c args context location closing s
    let start := s.started c body context location
    (∀ v t, result = .done v t →
      s.isFull = false ∧ ∃ given, body.signature.satisfy? args = some given ∧
        ((∃ x place, Evaluator.ExecutesReturn n budget body given start (some x) place ∧
            body.returns ≠ .void ∧ x.coerce? body.returns = some v ∧
            (body.returns ≠ .dynamic → body.returns ≠ .interface → v.kind = body.returns) ∧
            (body.returns = .interface → v.isObject = true) ∧
            (body.returns = .dynamic → v = x)) ∨
          (∃ place, Evaluator.ExecutesReturn n budget body given start none place ∧
            body.returns = .void ∧ v = .invalid) ∨
          (Evaluator.ComesToEnd n body given start ∧ v = .invalid))) ∧
    (∀ given, s.isFull = false → body.signature.satisfy? args = some given →
      (∀ x place, Evaluator.ExecutesReturn n budget body given start (some x) place →
        if body.returns = .void then result.FailsWith 170 place
        else
          match x.coerce? body.returns with
          | some w => ∃ t, result = .done w t
          | none => result.FailsWith 24 place) ∧
      ∀ place, Evaluator.ExecutesReturn n budget body given start none place →
        if body.returns = .void then ∃ t, result = .done .invalid t
        else result.FailsWith 169 place) := by
  refine ⟨?_, ?_⟩
  · intro v t h
    obtain ⟨hroom, given, hgiven⟩ := Evaluator.exists_given_of_call_done hc h
    refine ⟨hroom, given, hgiven, ?_⟩
    obtain ⟨x, place, hreturn, hvoid, hv⟩ | hrest :=
      Evaluator.cases_of_call_done hc hgiven hroom h
    · refine .inl ⟨x, place, hreturn, hvoid, hv, ?_, ?_, ?_⟩
      · exact fun hdynamic hinterface => Value.kind_of_coerce? hv hdynamic hinterface
      · intro hinterface
        rw [hinterface] at hv
        exact Value.isObject_of_coerce? hv
      · intro hdynamic
        rw [hdynamic] at hv
        exact Value.eq_of_coerce?_dynamic hv
    · exact .inr hrest
  · intro given hroom hgiven
    have hends {value? : Option Value} {place : Location}
        (hreturn : Evaluator.ExecutesReturn n budget body given _ value? place) :
        ∃ t, (Signal.returning value? place).EndsCall body.returns t
          ((Evaluator.ofBudget n).call budget c args context location closing s) :=
      Evaluator.endsCall_of_executesReturn hc hgiven hroom hreturn
    refine ⟨fun x place hreturn => ?_, fun place hreturn => ?_⟩
    · obtain ⟨t, h⟩ := hends hreturn
      by_cases hvoid : body.returns = .void
      · simpa [Signal.EndsCall, hvoid] using h
      · simp only [Signal.EndsCall, hvoid, if_false] at h ⊢
        cases hw : x.coerce? body.returns with
        | some w =>
          rw [hw] at h
          exact ⟨t, h⟩
        | none =>
          rw [hw] at h
          exact h
    · obtain ⟨t, h⟩ := hends hreturn
      by_cases hvoid : body.returns = .void
      · simp only [Signal.EndsCall, hvoid, if_true] at h ⊢
        exact ⟨t, h⟩
      · simpa [Signal.EndsCall, hvoid] using h

/-- A function that returns from a `try` in a loop. -/
def nestedReturn (returns : Kind) (value : Option Expr) : Procedure :=
  let inner : Statement :=
    .tryCatch ⟨[.returning value .builtin], .builtin⟩ ⟨"e", .builtin⟩ ⟨[], .builtin⟩ .builtin
  let loop : Statement :=
    .whileLoop (.literal (.boolean true) .builtin) ⟨[inner], .builtin⟩ .builtin
  ⟨"f", [], returns, false, ⟨[loop], .builtin⟩, .builtin⟩

/-- A text where a number is to be returned, a value where none is, none where one is, and a number
that is returned as it is. -/
theorem returned_values_of_nestedReturn :
    let call (body : Procedure) := (Evaluator.ofBudget 4).call 4
      ⟨.declared "f", .procedure body, none⟩ [] none .builtin .builtin (.new .standard)
    (call (nestedReturn .integer (some (.literal (.string "x") .builtin)))).FailsWith 24 .builtin ∧
    (call (nestedReturn .void (some (.literal (.string "x") .builtin)))).FailsWith 170 .builtin ∧
    (call (nestedReturn .integer none)).FailsWith 169 .builtin ∧
    ∃ t, call (nestedReturn .integer (some (.literal (.integer 7) .builtin))) =
      .done (.integer 7) t := by
  have hcalls (body : Procedure) := (returned_values 4 4 ⟨.declared "f", .procedure body, none⟩ body
    rfl [] none .builtin .builtin (.new .standard)).2 []
  refine ⟨?_, ?_, ?_, ?_⟩
  · exact (hcalls (nestedReturn .integer (some (.literal (.string "x") .builtin))) rfl rfl).1
      (.string "x") .builtin (Evaluator.executesReturn_iff.2 ⟨_, rfl⟩)
  · exact (hcalls (nestedReturn .void (some (.literal (.string "x") .builtin))) rfl rfl).1
      (.string "x") .builtin (Evaluator.executesReturn_iff.2 ⟨_, rfl⟩)
  · exact (hcalls (nestedReturn .integer none) rfl rfl).2 .builtin
      (Evaluator.executesReturn_iff.2 ⟨_, rfl⟩)
  · exact (hcalls (nestedReturn .integer (some (.literal (.integer 7) .builtin))) rfl rfl).1
      (.integer 7) .builtin (Evaluator.executesReturn_iff.2 ⟨_, rfl⟩)

end BrightScript
