import BrightScript.Proofs.Transparency

/-!
# Errors handed to the debugger

A session can ask that errors which nothing catches are handed to the debugger. This is done where
an error leaves the statements of a script or the body of a call. So an error with which a script
fails is handed over if it left the statements or the body of the entry function, and it is handed
over once: afterwards no further error is. An error that is made of what the statements or the entry
function were left with (a jump that has no target, a `return` whose value does not fit), or that is
raised instead of the call of the entry function, leaves nothing of this kind and is not handed
over.
-/

namespace BrightScript

variable {n : Nat} {args : List Value}

/-! ## What left the outermost body -/

/-- The signal that leaves the body of the entry function, if there is one and it is run. -/
def Session.entrySignal? (s : Session) (n : Nat) (args : List Value) : Option Signal :=
  match s.entry? with
  | none => none
  | some c =>
    match firstSatisfied (if c.takesArguments then args else []) 0 c.overloads with
    | none => none
    | some chosen =>
      if c.target.isProcedure && s.isFull then none
      else
        let frame? := Evaluator.frameOf? c chosen.signature (c.target.location?.getD .builtin)
        match (Evaluator.ofBudget n).invoke n c.target chosen.args
            (s.entered s.scopes.rootM frame?) with
        | .exit signal _ => some signal
        | _ => none

/-- The signal that leaves the statements of a script or, when these come to their end, the body of
its entry function. -/
def Session.bodySignal? (s : Session) (n : Nat) (statements : List Statement)
    (args : List Value) : Option Signal :=
  match (Evaluator.ofBudget n).executeAll statements s with
  | .done () t => if t.options.entryPoint then t.entrySignal? n args else none
  | .exit signal _ => some signal
  | .exhausted => none

/-! ## Bodies that hand over their errors -/

namespace Shadow

variable {c : Shadow} {s s' t : Session} {α : Type} {e : ScriptError}

theorem Beside.handed_eq {handed : Option ScriptError} (h : c.Beside handed s s') :
    s.handed = handed.toList ++ c.breaks.filterMap Break.error := by
  obtain ⟨d, rfl, hd⟩ := h
  exact hd.handed

theorem Beside.crashes (h : c.Beside none s s') (harmed : c.armed = true)
    (htry : s.tryMode = false) (he : e.isFault = true) : Run.crashes s e = true := by
  obtain ⟨d, rfl, hd⟩ := h
  have hstop : s.options.stopOnCrash = true := by
    rw [show s.options.stopOnCrash = _ from hd.armed, harmed]
    rfl
  simp [Run.crashes, hstop, htry, he]

theorem beside_of_crashing {x x' : Run α} {signal : Signal} (hx' : c.InStep x x')
    (hs : c.Beside none s s') (hsignal : signal.isFinal = false)
    (h : Routine.handle x Run.crash s = .exit signal t) :
    x s = .exit signal t ∧ ∃ t', c.Beside none t t' := by
  have hxs := Run.eq_exit_of_crashing hsignal h
  refine ⟨hxs, ?_⟩
  have hfollows := hx' s s' hs
  rw [hxs] at hfollows
  generalize x' s' = o' at hfollows
  cases hfollows with
  | exit _ ht => exact ⟨_, ht⟩
  | crashed | ended => cases hsignal

section Uncaught

-- A run that was not yet interrupted by an error, where errors are not caught and are to be handed
-- to the debugger.
variable (hs : c.Beside none s s') (htry : s.tryMode = false) (harmed : c.armed = true)
  (he : e.isFault = true)
include hs htry harmed he

/-- An error that leaves a body where nothing catches it has been handed to the debugger. -/
theorem handed_of_crashing {g : Grade} {Q : α → Prop} {x x' : Run α}
    (hx : (Contract.frames False).Keeps g Q x x) (hx' : c.InStep x x')
    (h : Routine.handle x Run.crash s = .exit (.error e) t) :
    (∃ u, x s = .exit (.error e) u) ∧ ∃ t', c.Beside (some e) t t' := by
  rcases Run.crashing_eq_exit h with ⟨e', u, hxs, hcrash, -⟩ | ⟨-, hno⟩
  case inr => exact absurd rfl (hno e)
  have hsame : e' = e := by
    obtain ⟨v, hv | hv⟩ := Run.crash_error_cases (α := α) e' u <;> rw [hv] at hcrash <;> cases hcrash
    rfl
  subst hsame
  refine ⟨⟨u, hxs⟩, ?_⟩
  have hends := (hx s False.elim).2
  have hfollows := hx' s s' hs
  rw [hxs] at hends hfollows
  generalize x' s' = o' at hfollows
  cases hfollows with
  | exit _ hu =>
    have htry' : u.tryMode = false := (Contract.sameFrames_of_ends hends rfl).tryMode.trans htry
    rcases hu.crashed (hu.crashes harmed htry' he) with ⟨v, heq, hv, -⟩ | ⟨v, heq, -⟩ <;>
      rw [hcrash] at heq <;> cases heq
    exact ⟨_, hv⟩
  | crashed hu _ =>
    rw [hu.crash_again] at hcrash
    cases hcrash
    exact ⟨_, hu⟩

/-- An error that leaves a call has been handed to the debugger if it left the body. Otherwise it is
an error of the call itself, made of what the body was left with. -/
theorem handed_of_inCall {g : Grade} {Q : Value → Prop} {x x' : Run Value} {m : AssocRef}
    {frame? : Option Frame} {returns : Kind} (hx : (Contract.frames False).Keeps g Q x x)
    (hx' : c.InStep x x')
    (h : Routine.handle (Run.inCall m frame? (Routine.handle x Run.crash))
      (Run.leaveCall returns) s = .exit (.error e) t) :
    ((∃ u, x (s.entered m frame?) = .exit (.error e) u) ∧ ∃ t', c.Beside (some e) t t') ∨
      ((∃ signal u, x (s.entered m frame?) = .exit signal u ∧ signal.isFinal = false) ∧
        ∃ t', c.Beside none t t') := by
  have hentered : c.Beside none (s.entered m frame?) (s'.entered m frame?) := by
    obtain ⟨d, rfl, hd⟩ := hs
    exact ⟨d, rfl, hd⟩
  have hreturned {handed : Option ScriptError} {u u' : Session} (h : c.Beside handed u u') :
      c.Beside handed (u.returnedTo s frame?) (u'.returnedTo s frame?) :=
    h.map (f := (·.returnedTo s frame?)) (fun _ => rfl) rfl
  rw [Run.handle_inCall_apply] at h
  cases hbody : Routine.handle x Run.crash (s.entered m frame?) with
  | done | exhausted => rw [hbody] at h; cases h
  | exit signal u =>
    rw [hbody] at h
    dsimp only at h
    rcases Run.leaveCall_cases returns signal with ⟨-, heq⟩ | ⟨hfinal, ⟨v, heq⟩ | ⟨e', heq⟩⟩ <;>
      rw [heq] at h <;> cases h
    · obtain ⟨hleft, u', hu⟩ := handed_of_crashing hentered htry harmed he hx hx' hbody
      exact .inl ⟨hleft, _, hreturned hu⟩
    · obtain ⟨hleft, u', hu⟩ := beside_of_crashing hx' hentered hfinal hbody
      exact .inr ⟨⟨signal, u, hleft, hfinal⟩, _, (hreturned hu).note _⟩

/-- An error that leaves the call of the entry function has been handed to the debugger if it left
the body, and only then. -/
theorem handed_of_callEntry (h : Run.callEntry n args s = .exit (.error e) t) :
    (s.entrySignal? n args = some (.error e) ∧ ∃ t', c.Beside (some e) t t') ∨
      ((∀ signal, s.entrySignal? n args = some signal → signal.isFinal = false) ∧
        ∃ t', c.Beside none t t') := by
  rw [Run.callEntry, Evaluator.callEntry, Routine.bind_apply, Routine.view_apply] at h
  unfold Session.entrySignal?
  dsimp only at h
  cases hentry : s.entry? with
  | none => rw [hentry] at h; cases h
  | some callee =>
    rw [hentry] at h
    dsimp only [Evaluator.call, Run.call, Run.dispatch] at h ⊢
    cases hchosen : firstSatisfied (if callee.takesArguments then args else []) 0
        callee.overloads with
    | none =>
      rw [hchosen] at h
      cases h
      exact .inr ⟨fun _ heq => (by cases heq), _, hs.note _⟩
    | some chosen =>
      rw [hchosen] at h
      dsimp only at h ⊢
      rw [Run.calling, Evaluator.isSome_frameOf?] at h
      split at h
      · next hfull =>
        rw [if_pos hfull]
        cases h
        exact .inr ⟨fun _ heq => (by cases heq), _, hs.note _⟩
      · next hroom =>
        rw [if_neg hroom]
        have hinvoke := c.simulation.invoke (c.simulation.ofBudget n) n (c := callee)
          (fun _ => trivial) trivial fun v (_ : v ∈ chosen.args) => trivial
        rcases handed_of_inCall hs htry harmed he hinvoke.1 hinvoke.2 h with
          ⟨⟨u, hleft⟩, hhanded⟩ | ⟨⟨signal, u, hleft, hfinal⟩, hnot⟩
        · refine .inl ⟨?_, hhanded⟩
          dsimp only [Option.getD_none] at hleft
          rw [hleft]
        · refine .inr ⟨?_, hnot⟩
          dsimp only [Option.getD_none] at hleft
          rw [hleft]
          intro signal' heq
          cases heq
          exact hfinal

end Uncaught

end Shadow

/-! ## Scripts -/

theorem Session.exec_eq_error {s t : Session} {statements : List Statement} {e : ScriptError}
    (h : s.exec n statements args = some (.error e, t)) :
    Run.program n statements args s = .exit (.error e) t ∨
      ∃ signal u, Run.program n statements args s = .exit signal u ∧ signal.isJump = true ∧
        t = u.note e := by
  rw [Session.exec, Run.script_apply] at h
  cases hp : Run.program n statements args s with
  | done v u => rw [hp] at h; cases h
  | exhausted => rw [hp] at h; cases h
  | exit signal u =>
    rw [hp] at h
    cases signal with
    | returning | ending | debugExit => cases h
    | error e' => cases h; exact .inl rfl
    | _ => cases h; exact .inr ⟨_, u, rfl, rfl, rfl⟩

theorem Run.program_eq_exit {s t : Session} {statements : List Statement} {signal : Signal}
    (h : Run.program n statements args s = .exit signal t) :
    Routine.handle ((Evaluator.ofBudget n).executeAll statements) Run.crash s = .exit signal t ∨
      ∃ u, (Evaluator.ofBudget n).executeAll statements s = .done () u ∧
        u.options.entryPoint = true ∧ Run.callEntry n args u = .exit signal t := by
  rw [Run.program, Evaluator.program] at h
  obtain hx | ⟨a, u, hx, h⟩ := Routine.bind_eq_exit.1 h
  · exact .inl hx
  · rw [Routine.bind_apply, Routine.view_apply] at h
    dsimp only at h
    split at h
    · next hentry => exact .inr ⟨u, Run.eq_done_of_crashing hx, hentry, h⟩
    · cases h

theorem Run.isFinal_of_callEntry {s t : Session} {signal : Signal}
    (h : Run.callEntry n args s = .exit signal t) : signal.isFinal = true := by
  have hends := (Contract.signals.simulation.callEntry n (fun v (_ : v ∈ args) => trivial) s
    trivial).2
  rw [h] at hends
  exact hends.2.2 rfl

/-- Take any script that fails with an error of the language in a session which asks that errors are
handed to the debugger, whatever the debugger decides. If the error left the statements of the
script or the body of its entry function, it has been handed to the debugger, as the only error in
this run. Otherwise these were left with another signal that is no end of the run, or the body of
the entry function was not run; then no error has been handed to the debugger. -/
theorem errors_handed_once (n : Nat) (statements : List Statement) (args : List Value)
    (s t : Session) (e : ScriptError) (htry : s.tryMode = false)
    (harmed : s.options.stopOnCrash = true)
    (hfailed : s.exec n statements args = some (.error e, t)) (he : e.isFault = true) :
    (s.bodySignal? n statements args = some (.error e) ∧ t.handed = e :: s.handed) ∨
      ((∀ signal, s.bodySignal? n statements args = some signal → signal.isFinal = false) ∧
        t.handed = s.handed) := by
  let c := Shadow.ofStart True s
  have hs : c.Beside none s s.undisturbed := Shadow.beside_undisturbed True (.inl trivial)
  have hbody := c.simulation.executeAll (c.simulation.ofBudget n) statements
  have hends := (hbody.1 s False.elim).2
  have hfollows := hbody.2 s _ hs
  rw [Session.bodySignal?]
  rcases Session.exec_eq_error hfailed with hp | ⟨jump, u, hp, hjump, rfl⟩ <;>
    rcases Run.program_eq_exit hp with hleft | ⟨v, hdone, hentry, hcall⟩
  · obtain ⟨⟨v, hv⟩, t', ht⟩ := Shadow.handed_of_crashing hs htry harmed he hbody.1 hbody.2 hleft
    rw [hv]
    exact .inl ⟨rfl, ht.handed_eq⟩
  · rw [hdone] at hends hfollows
    rw [hdone]
    dsimp only
    rw [if_pos hentry]
    have htry' : v.tryMode = false := (Contract.sameFrames_of_ends hends rfl).tryMode.trans htry
    generalize (Evaluator.ofBudget n).executeAll statements s.undisturbed = o at hfollows
    cases hfollows with
    | done _ hv =>
      rcases Shadow.handed_of_callEntry hv htry' harmed he hcall with
        ⟨hsignal, t', ht⟩ | ⟨hsignal, t', ht⟩
      · exact .inl ⟨hsignal, ht.handed_eq⟩
      · exact .inr ⟨hsignal, ht.handed_eq⟩
  · have hfinal := Signal.isFinal_of_isJump hjump
    obtain ⟨hx, u', hu⟩ := Shadow.beside_of_crashing hbody.2 hs hfinal hleft
    rw [hx]
    refine .inr ⟨fun signal heq => ?_, (hu.note e).handed_eq⟩
    cases heq
    exact hfinal
  · have hfinal := Run.isFinal_of_callEntry hcall
    rw [Signal.isFinal_of_isJump hjump] at hfinal
    cases hfinal

/-- A jump that leaves a script is an error that is not handed to the debugger. -/
theorem stray_jump_not_handed :
    ∃ (e : ScriptError) (t : Session),
      (Session.new { Options.standard with entryPoint := false, stopOnCrash := true }).exec 2
        [.exitFor .builtin] [] = some (.error e, t) ∧
      e.isFault = true ∧ t.handed = [] :=
  ⟨_, _, rfl, rfl, rfl⟩

theorem errors_handed_once_of_failingScript :
    ∃ (e : ScriptError) (t : Session),
      (Session.new { Options.standard with entryPoint := false, stopOnCrash := true }).exec 3
        failingScript [] = some (.error e, t) ∧ t.handed = [e] := by
  have hrun : ∃ (e : ScriptError) (t : Session),
      (Session.new { Options.standard with entryPoint := false, stopOnCrash := true }).exec 3
        failingScript [] = some (.error e, t) ∧ e.isFault = true := ⟨_, _, rfl, rfl⟩
  obtain ⟨e, t, hrun, hfault⟩ := hrun
  rcases errors_handed_once 3 failingScript [] _ t e rfl rfl hrun hfault with
    ⟨-, hhanded⟩ | ⟨hbody, -⟩
  · exact ⟨e, t, hrun, hhanded⟩
  · cases hbody _ rfl

end BrightScript
