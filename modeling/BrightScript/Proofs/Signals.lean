import BrightScript.Proofs.Contract

/-!
# Signals end at calls

A signal that jumps (out of a loop, to a label, out of a function) never leaves an expression. Only
errors and the end of the run do. What a call makes of the signal that left the body is stated
signal by signal: `return` becomes the value of the call or an error about the value, a jump out of
a loop becomes its own error at the place of the jump, and a `goto` whose label is not in the body
becomes an error at the place of the `goto`. So a script that fails does so with an error and with
no other signal.
-/

namespace BrightScript

variable {s t u : Session} {location last : Location} {signal : Signal} {body : Procedure}
  {budget : Nat} {args : List Value}

def Contract.signals : Contract fun _ => True where
  inv _ := True
  keep _ _ _ := True
  left g _ signal _ := g = .expression → signal.isFinal = true
  admissible := .trivial
  holds := fun {s} _ => .trivial s
  refl := trivial
  trans _ _ := trivial
  trans_left _ h := h
  keep_statement _ := trivial
  keep_body _ := trivial
  left_statement _ h := by cases h
  left_body _ h := by cases h
  keep_of_left _ _ := trivial
  update _ _ := ⟨trivial, trivial⟩
  serviced _ _ := ⟨trivial, trivial⟩
  raise _ _ := ⟨trivial, fun _ => rfl⟩
  stray _ _ _ _ := rfl
  leave _ _ h := by cases h
  quit _ _ := rfl
  left_serviced h _ := h
  crash _ _ _ _ := rfl
  tried _ := trivial
  untried _ _ := trivial
  keep_untried _ _ := trivial
  keep_caught _ _ := trivial
  left_untried _ _ _ h := by cases h
  unhelped _ := ⟨trivial, trivial⟩
  left_unhelped h := h
  rewound _ := trivial
  left_rewound h := h
  entered _ _ := trivial
  returnedTo _ _ _ := ⟨trivial, trivial⟩
  left_returnedTo _ _ hf _ := ⟨trivial, fun _ => hf⟩

/-- A run that failed with the error of a number, at a place. -/
def Outcome.FailsWith {α : Type} (o : Outcome Signal Session α) (number : Int32)
    (location : Location) : Prop :=
  ∃ e t, o = .exit (.error e) t ∧ e.number? = some number ∧ e.location = location

theorem Run.fault_failsWith {α : Type} (f : Fault) (location : Location) (s : Session) :
    ((Run.fault f location : Run α) s).FailsWith f.number location :=
  ⟨_, _, rfl, rfl, rfl⟩

theorem Location.union_self (l : Location) : l.union l = l := by
  cases l
  simp [union, Position.earlier, Position.later, Span.union]

theorem Run.cast_failsWith {α : Type} (target value : Kind) (location : Location) (s : Session) :
    ((Run.raise (.cast ⟨target, location⟩ ⟨value, location⟩) : Run α) s).FailsWith
      Fault.typeMismatch.number location := by
  refine ⟨_, _, rfl, rfl, ?_⟩
  show Operand.span ⟨target, location⟩ (some ⟨value, location⟩) = location
  simp only [Operand.span, if_true]
  exact location.union_self

/-! ## What a call makes of a signal -/

/-- What a call that returns values of a kind makes of the signal that left its body, given the
session after the call. -/
def Signal.EndsCall (signal : Signal) (returns : Kind) (t : Session)
    (o : Outcome Signal Session Value) : Prop :=
  match signal with
  | .returning none location =>
    if returns = .void then o = .done .invalid t else o.FailsWith 169 location
  | .returning (some v) location =>
    if returns = .void then o.FailsWith 170 location
    else
      match v.coerce? returns with
      | some w => o = .done w t
      | none => o.FailsWith 24 location
  | .exitFor location => o.FailsWith 165 location
  | .exitWhile location => o.FailsWith 175 location
  | .continueFor location => o.FailsWith 141 location
  | .continueWhile location => o.FailsWith 142 location
  | .goto _ location => o.FailsWith 14 location
  | .ending _ | .debugExit _ | .error _ => o = .exit signal t

theorem Run.endsCall_leaveCall (returns : Kind) (signal : Signal) (t : Session) :
    signal.EndsCall returns t (Run.leaveCall returns signal t) := by
  cases signal with
  | returning value? location =>
    cases value? with
    | none =>
      simp only [Signal.EndsCall, Run.leaveCall, Run.returned]
      split
      · rfl
      · exact Run.fault_failsWith _ _ _
    | some v =>
      simp only [Signal.EndsCall, Run.leaveCall, Run.returned]
      split
      · exact Run.fault_failsWith _ _ _
      · cases v.coerce? returns with
        | some w => rfl
        | none => exact Run.cast_failsWith _ _ _ _
  | exitFor | exitWhile | continueFor | continueWhile | goto => exact Run.fault_failsWith _ _ _
  | ending | debugExit | error => rfl

namespace Evaluator

variable {ev : Evaluator}

/-- A call with room on the stack ends as the signal that left its body demands. -/
theorem call_of_exit {c : Callable} {chosen : Satisfied} {context : Option AssocRef}
    {closing : Location}
    (hchosen : firstSatisfied args 0 c.overloads = some chosen)
    (hroom : (c.target.isProcedure && s.isFull) = false)
    (hbody : Routine.handle (ev.invoke budget c.target chosen.args) Run.crash
      (s.entered (context.getD s.scopes.rootM) (frameOf? c chosen.signature location)) =
        .exit signal t) :
    ev.call budget c args context location closing s =
      Run.leaveCall chosen.signature.returns signal
        (t.returnedTo s (frameOf? c chosen.signature location)) := by
  rw [ev.call_of_satisfied hchosen, Run.calling, isSome_frameOf?, if_neg (by rw [hroom]; decide),
    Run.handle_inCall_apply, hbody]

/-! ## Gotos -/

def lookingFor (s : Session) (label : String) : Session :=
  { s with scopes := s.scopes.setPending (some (Text.fold label)) }

/-- The runs of a body that a call makes: the first one from the start, and one more after each run
that a `goto` left. A run comes with the place of the `goto` before it and the session it starts
in. -/
inductive Pass (ev : Evaluator) (body : Procedure) (s : Session) : Location → Session → Prop
  | start : Pass ev body s body.location s
  | again {last location : Location} {label : String} {t u : Session} :
      Pass ev body s last t → ev.executeBlock body.body t = .exit (.goto label location) u →
        Pass ev body s location (lookingFor u label)

theorem runBody_of_goto {label : String}
    (h : ev.executeBlock body.body t = .exit (.goto label location) u) :
    ev.runBody body last t = .done (.inl location) (lookingFor u label) := by
  rw [runBody, Routine.attempt_bind_apply, h]
  rfl

theorem runBody_of_done (h : ev.executeBlock body.body t = .done () u) :
    ev.runBody body last t = .done (.inr last) u := by
  rw [runBody, Routine.attempt_bind_apply, h]
  rfl

/-- The loop over the runs of a body goes on at each of them. -/
theorem Pass.iterate_eq (h : Pass ev body s last t) (budget : Nat) :
    ∃ rest, Routine.iterate (ev.runBody body) budget body.location s =
      Routine.iterate (ev.runBody body) rest last t := by
  induction h with
  | start => exact ⟨budget, rfl⟩
  | again _ hgoto ih =>
    obtain ⟨rest, hrest⟩ := ih
    cases rest with
    | zero => exact ⟨0, hrest⟩
    | succ rest =>
      refine ⟨rest, ?_⟩
      rw [hrest, Routine.iterate_succ, runBody_of_goto hgoto]

/-- A `goto` whose label is not found by the next run of the body fails where it stands. -/
theorem runProcedure_of_unresolved {s₁ v : Session} {label : String}
    (hargs : ev.bindParameters body.parameters args s = .done () s₁)
    (hpass : Pass ev body s₁ last t)
    (hgoto : ev.executeBlock body.body t = .exit (.goto label location) u)
    (hsearch : ev.executeBlock body.body (lookingFor u label) = .done () v)
    (hpending : v.scopes.pending.isSome = true) :
    ev.runProcedure budget body args s = .exhausted ∨
      (ev.runProcedure budget body args s).FailsWith 14 location := by
  obtain ⟨rest, hrest⟩ := (hpass.again hgoto).iterate_eq budget
  rw [runProcedure, Routine.bind_apply, hargs]
  dsimp only
  rw [Routine.bind_apply, hrest]
  cases rest with
  | zero => exact .inl rfl
  | succ rest =>
    rw [Routine.iterate_succ, runBody_of_done hsearch]
    dsimp only
    rw [Routine.bind_apply, Routine.view_apply]
    dsimp only
    rw [if_pos hpending]
    exact .inr ⟨_, _, rfl, rfl, rfl⟩

end Evaluator

/-! ## Scripts -/

/-- A signal that ends a script is an error. -/
theorem Run.finish_eq_exit {signal' : Signal} (h : Run.finish signal s = .exit signal' t) :
    ∃ e, signal' = .error e := by
  cases signal with
  | returning | ending | debugExit => cases h
  | error e => cases h; exact ⟨e, rfl⟩
  | _ => cases h; exact ⟨_, rfl⟩

theorem Run.script_eq_exit {statements : List Statement}
    (h : Run.script budget statements args s = .exit signal t) : ∃ e, signal = .error e := by
  rw [Run.script_apply] at h
  split at h
  · cases h
  · exact Run.finish_eq_exit h
  · cases h

/-- A jump that leaves a script is its error. -/
theorem Run.finish_failsWith {f : Fault} (h : signal.escape? = some (f, location)) (t : Session) :
    (Run.finish signal t).FailsWith f.number location := by
  cases signal with
  | returning | ending | debugExit | error => cases h
  | _ => cases h; exact Run.fault_failsWith _ _ _

/-! ## The boundary of calls -/

/-- Under every budget: expressions and calls are left by final signals only, a call makes of the
signal that left its body what `Signal.EndsCall` says, a `goto` that does not find its label fails
with error 14 where it stands, a jump that leaves a script is its error, and a failed script failed
with an error. -/
theorem signals_end_at_calls (n budget : Nat) :
    (∀ (e : Expr) (s t : Session) (signal : Signal),
      evaluate n e s = .exit signal t → signal.isFinal = true) ∧
    (∀ (c : Callable) (args : List Value) (context : Option AssocRef)
        (location closing : Location) (s t : Session) (signal : Signal),
      (Evaluator.ofBudget n).call budget c args context location closing s = .exit signal t →
        signal.isFinal = true) ∧
    (∀ (c : Callable) (args : List Value) (chosen : Satisfied) (context : Option AssocRef)
        (location closing : Location) (s t : Session) (signal : Signal),
      firstSatisfied args 0 c.overloads = some chosen →
      (c.target.isProcedure && s.isFull) = false →
      Routine.handle ((Evaluator.ofBudget n).invoke budget c.target chosen.args) Run.crash
        (s.entered (context.getD s.scopes.rootM)
          (Evaluator.frameOf? c chosen.signature location)) = .exit signal t →
      signal.EndsCall chosen.signature.returns
        (t.returnedTo s (Evaluator.frameOf? c chosen.signature location))
        ((Evaluator.ofBudget n).call budget c args context location closing s)) ∧
    (∀ (body : Procedure) (args : List Value) (s s₁ t u v : Session) (last location : Location)
        (label : String),
      (Evaluator.ofBudget n).bindParameters body.parameters args s = .done () s₁ →
      Evaluator.Pass (Evaluator.ofBudget n) body s₁ last t →
      (Evaluator.ofBudget n).executeBlock body.body t = .exit (.goto label location) u →
      (Evaluator.ofBudget n).executeBlock body.body (Evaluator.lookingFor u label) = .done () v →
      v.scopes.pending.isSome = true →
      (Evaluator.ofBudget n).invoke budget (.procedure body) args s = .exhausted ∨
        ((Evaluator.ofBudget n).invoke budget (.procedure body) args s).FailsWith 14 location) ∧
    (∀ (statements : List Statement) (args : List Value) (s t : Session) (signal : Signal)
        (f : Fault) (location : Location),
      Run.program n statements args s = .exit signal t → signal.escape? = some (f, location) →
        (Run.script n statements args s).FailsWith f.number location) ∧
    (∀ (statements : List Statement) (args : List Value) (s t : Session) (e : ScriptError),
      s.exec n statements args = some (.error e, t) →
        Run.script n statements args s = .exit (.error e) t) := by
  refine ⟨?_, ?_, ?_, ?_, ?_, ?_⟩
  · intro e s t signal h
    have hends := Contract.signals.evaluate n e (s := s) trivial
    rw [h] at hends
    exact hends.2.2 rfl
  · intro c args context location closing s t signal h
    have hends := Contract.signals.call n budget (c := c) trivial
      (fun v (_ : v ∈ args) => trivial) context location closing (s := s) trivial
    rw [h] at hends
    exact hends.2.2 rfl
  · intro c args chosen context location closing s t signal hchosen hroom hbody
    rw [Evaluator.call_of_exit hchosen hroom hbody]
    exact Run.endsCall_leaveCall _ _ _
  · intro body args s s₁ t u v last location label hargs hpass hgoto hsearch hpending
    exact Evaluator.runProcedure_of_unresolved hargs hpass hgoto hsearch hpending
  · intro statements args s t signal f location hprogram hescape
    rw [Run.script_apply, hprogram]
    exact Run.finish_failsWith hescape t
  · intro statements args s t e h
    unfold Session.exec at h
    cases hs : Run.script n statements args s with
    | done finish u => rw [hs] at h; cases h
    | exit signal u =>
      obtain ⟨e', rfl⟩ := Run.script_eq_exit hs
      rw [hs] at h
      cases h
      rfl
    | exhausted => rw [hs] at h; cases h

def strayExit : Callable :=
  .ofDeclaration "f" ⟨"f", [], .void, true, ⟨[.exitFor .builtin], .builtin⟩, .builtin⟩

def strayGoto : Procedure :=
  ⟨"g", [], .void, true, ⟨[.goto ⟨"away", .builtin⟩ .builtin], .builtin⟩, .builtin⟩

theorem signals_end_at_calls_of_strays :
    ((Evaluator.ofBudget 2).call 3 strayExit [] none .builtin .builtin
      (.new .standard)).FailsWith 165 .builtin ∧
    ((Evaluator.ofBudget 2).invoke 3 (.procedure strayGoto) []
      (.new .standard)).FailsWith 14 .builtin := by
  obtain ⟨-, -, hcall, hgoto, -, -⟩ := signals_end_at_calls 2 3
  constructor
  · exact hcall strayExit [] ⟨0, .of [] .void, []⟩ none .builtin .builtin (.new .standard) _
      (.exitFor .builtin) rfl rfl rfl
  · refine (hgoto strayGoto [] (.new .standard) _ _ _ _ _ .builtin "away" rfl .start rfl rfl
      rfl).resolve_left ?_
    exact fun h => by cases h

end BrightScript
