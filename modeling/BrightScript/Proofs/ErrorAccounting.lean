import BrightScript.Proofs.Receivers

/-!
# Recorded errors

An error is recorded where it is raised, unless a `try` is open there, and never again on its way
out. So a script that does not fail leaves the log alone, a script that fails adds exactly the error
it fails with, and one that the debugger ends at an error has added that error. What is raised under
a `try` is not recorded, and what is recorded is not caught.

The one error that is never recorded is that of a method on an object of another component. Where
all values are sound there is no such method: only a host can bring one in.
-/

namespace BrightScript

/-- Whether an error is that of a method on an object of another component. -/
def ScriptError.IsStray (e : ScriptError) : Prop :=
  ∃ (m : Method) (receiver : Value) (location : Location),
    receiver.component? ≠ some m.component ∧
      e = Library.strayError m.component receiver location

/-- What the log shows of a signal that left a run, given the errors that may be missing in it. -/
def Session.Accounts (missing : ScriptError → Prop) (s : Session) (signal : Signal) (t : Session) :
    Prop :=
  match signal with
  | .error e => t.log = (s.note e).log ∨ missing e ∧ t.log = s.log
  | .debugExit _ =>
    t.log = s.log ∨ s.tryMode = false ∧ ∃ e location, t.log = s.log.record e ∧
      t.breaks.head? = some ⟨location, "crash", some e⟩
  | _ => t.log = s.log

/-- Neither the log nor the mode of errors changed. -/
structure Session.SameLog (s t : Session) : Prop where
  log : t.log = s.log
  tryMode : t.tryMode = s.tryMode

/-- A signal left the run, with the log to show for it and the mode of errors as before. -/
structure Session.Accounted (missing : ScriptError → Prop) (s : Session) (signal : Signal)
    (t : Session) : Prop where
  accounts : s.Accounts missing signal t
  tryMode : t.tryMode = s.tryMode

theorem Session.SameLog.trans {s t u : Session} (h : s.SameLog t) (h' : t.SameLog u) :
    s.SameLog u :=
  ⟨h'.log.trans h.log, h'.tryMode.trans h.tryMode⟩

theorem Session.SameLog.log_note {s t : Session} (h : s.SameLog t) (e : ScriptError) :
    (t.note e).log = (s.note e).log := by
  unfold Session.note
  rw [h.tryMode]
  split
  · exact h.log
  · exact congrArg (·.record e) h.log

theorem Session.log_note_of_tryMode {s : Session} (h : s.tryMode = true) (e : ScriptError) :
    (s.note e).log = s.log := by
  rw [Session.note, if_pos h]

theorem Session.log_note_of_not_tryMode {s : Session} (h : s.tryMode = false) (e : ScriptError) :
    (s.note e).log = s.log.record e := by
  rw [Session.note, if_neg (by rw [h]; decide)]

namespace Session.Accounted

variable {missing : ScriptError → Prop} {s t u : Session} {signal : Signal}

theorem after (h : s.SameLog t) (h' : t.Accounted missing signal u) :
    s.Accounted missing signal u := by
  refine ⟨?_, h'.tryMode.trans h.tryMode⟩
  have haccounts := h'.accounts
  cases signal with
  | error e =>
    exact haccounts.imp (·.trans (h.log_note e)) (And.imp_right (·.trans h.log))
  | debugExit location =>
    unfold Accounts at haccounts ⊢
    rw [h.log, h.tryMode] at haccounts
    exact haccounts
  | _ => exact Eq.trans haccounts h.log

/-- A change that leaves the log, the mode of errors and the breaks alone. -/
theorem before (h : s.Accounted missing signal t) (h' : t.SameLog u)
    (hb : u.breaks = t.breaks) : s.Accounted missing signal u := by
  refine ⟨?_, h'.tryMode.trans h.tryMode⟩
  have haccounts := h.accounts
  cases signal with
  | error | debugExit =>
    unfold Accounts at haccounts ⊢
    rw [h'.log, hb]
    exact haccounts
  | _ => exact h'.log.trans haccounts

theorem sameLog (h : s.Accounted missing signal t) (hf : signal.isFinal = false) : s.SameLog t := by
  refine ⟨?_, h.tryMode⟩
  have haccounts := h.accounts
  cases signal with
  | ending | debugExit | error => cases hf
  | _ => exact haccounts

theorem leave (hs : ∀ e, signal ≠ .error e) : s.Accounted missing signal s := by
  refine ⟨?_, rfl⟩
  cases signal with
  | error e => exact absurd rfl (hs e)
  | debugExit => exact .inl rfl
  | _ => rfl

/-- An error that nothing catches, handed to the debugger, which ends the run. -/
theorem crash {e : ScriptError} (h : s.Accounted missing (.error e) t)
    (hc : Run.crashes t e = true) :
    s.Accounted missing (.debugExit t.location)
      (t.disarmed.consult (t.crashBreak e)).2.disarmed := by
  have served := Session.Serviced.crashed t e
  have htry : s.tryMode = false := by
    rw [← h.tryMode]
    simp only [Run.crashes, Bool.and_eq_true, Bool.not_eq_true'] at hc
    exact hc.1.1
  refine ⟨?_, (congrArg Core.tryMode served.core).trans h.tryMode⟩
  obtain hlog | ⟨-, hlog⟩ := h.accounts
  · refine .inr ⟨htry, e, t.location, ?_, ?_⟩
    · rw [served.log, ← Session.log_note_of_not_tryMode htry]
      exact hlog
    · show (t.disarmed.consult (t.crashBreak e)).2.breaks.head? = _
      rw [Session.breaks_consult]
      rfl
  · exact .inl (served.log.trans hlog)

/-- Nothing that happens under a `try` is recorded. -/
theorem sameLog_of_tried (h : (s.withTry true).Accounted missing signal t) :
    s.SameLog (t.withTry s.tryMode) := by
  refine ⟨?_, rfl⟩
  have haccounts := h.accounts
  cases signal with
  | error e =>
    exact haccounts.elim (·.trans (Session.log_note_of_tryMode rfl e)) (·.2)
  | debugExit location =>
    rcases haccounts with hlog | ⟨htry, -⟩
    · exact hlog
    · cases htry
  | _ => exact haccounts

theorem returnedTo {m : AssocRef} {frame? : Option Frame}
    (h : (s.entered m frame?).Accounted missing signal t) :
    s.Accounted missing signal (t.returnedTo s frame?) := by
  have entered : s.SameLog (s.entered m frame?) := ⟨rfl, rfl⟩
  exact (after entered h).before ⟨rfl, rfl⟩ rfl

end Session.Accounted

theorem Session.SameLog.serviced {s t : Session} (h : s.Serviced t) : s.SameLog t :=
  ⟨h.log, congrArg Core.tryMode h.core⟩

theorem Session.SameLog.update {P : Value → Prop} {g : Grade} {f : Session → Session}
    (h : Update P True g f) (s : Session) : s.SameLog (f s) := by
  cases h <;> exact ⟨rfl, rfl⟩

/-! ## The contract -/

/-- The log shows how runs end, but for the errors of stray methods that some kind of values
allows. -/
def Contract.accounting {P : Value → Prop} (hP : Admissible P) (missing : ScriptError → Prop)
    (hmissing : ∀ {i m receiver context location},
      P (.function ⟨i, .method m receiver, context⟩) → receiver.component? ≠ some m.component →
        missing (Library.strayError m.component receiver location)) : Contract P where
  inv s := s.Holds P
  keep _ s t := s.SameLog t
  left _ s signal t := s.Accounted missing signal t
  admissible := hP
  holds hs := hs
  refl := ⟨rfl, rfl⟩
  trans h h' := h.trans h'
  trans_left h h' := .after h h'
  keep_statement h := h
  keep_body h := h
  left_statement h := h
  left_body h := h
  keep_of_left hf h := h.sameLog hf
  update hf hs := ⟨hs.update hf, .update hf _⟩
  serviced h hs := ⟨hs.ofCore h.core, .serviced h⟩
  raise _ hs :=
    ⟨hs.ofCore (Session.core_note _ _), .inl rfl, congrArg Core.tryMode (Session.core_note _ _)⟩
  stray hm hr _ := ⟨.inr ⟨hmissing hm hr, rfl⟩, rfl⟩
  leave hs _ := .leave hs
  quit _ := ⟨.inl rfl, rfl⟩
  left_serviced h h' :=
    ⟨h.accounts.imp h'.log.trans (And.imp_right h'.log.trans),
      (congrArg Core.tryMode h'.core).trans h.tryMode⟩
  crash h _ hc := h.crash hc
  tried hs := ⟨hs.heap, hs.scopes⟩
  untried _ ht := ⟨ht.heap, ht.scopes⟩
  keep_untried _ h := ⟨h.log, rfl⟩
  keep_caught _ h := h.sameLog_of_tried
  left_untried _ hs h := .after h.sameLog_of_tried (.leave hs)
  unhelped hs := ⟨hs.withoutHelpers, rfl, rfl⟩
  left_unhelped h := h.before ⟨rfl, rfl⟩ rfl
  rewound hs := ⟨hs.heap, hs.scopes⟩
  left_rewound h := h.before ⟨rfl, rfl⟩ rfl
  entered _ hs := hs.entered _ _
  returnedTo hs ht h := ⟨hs.returnedTo ht _, h.log, h.tryMode⟩
  left_returnedTo hs ht _ h := ⟨hs.returnedTo ht _, h.returnedTo⟩

/-- Where all values are sound no error is missing. -/
def Contract.soundAccounting : Contract Value.Sound :=
  accounting .sound (fun _ => False) fun hm hr => hr hm.1

def Contract.fullAccounting : Contract fun _ => True :=
  accounting .trivial ScriptError.IsStray fun _ hr => ⟨_, _, _, hr, rfl⟩

/-- While a `try` is open, nothing that an expression or a statement does is recorded. -/
theorem Contract.log_eq_of_tryMode {g : Grade} {α : Type} {Q : α → Prop} {s t : Session}
    {o : Outcome Signal Session α} (h : fullAccounting.Ends g Q s o) (hs : s.tryMode = true)
    (ho : o.state? = some t) : t.log = s.log := by
  cases o with
  | done a u => cases ho; exact h.2.2.log
  | exit signal u =>
    cases ho
    have hopen : s.withTry true = s := by rw [← hs]; rfl
    have haccounted : (s.withTry true).Accounted ScriptError.IsStray signal t := hopen ▸ h.2.2
    exact haccounted.sameLog_of_tried.log
  | exhausted => cases ho

/-- The block of a `try` leaves the log alone, however it ends. -/
theorem Evaluator.log_catching {n : Nat} {block : Block} {s t : Session}
    (h : (Run.catching ((ofBudget n).executeBlock block) (fun _ => pure ()) s).state? = some t) :
    t.log = s.log := by
  have hends := (Contract.fullAccounting.simulation.executeBlock
    (Contract.fullAccounting.simulation.ofBudget n) block (s.withTry true) (.trivial _)).2
  unfold Run.catching at h
  rcases hb : (ofBudget n).executeBlock block (s.withTry true) with ⟨_, u⟩ | ⟨signal, u⟩ | _
  · rw [hb] at h hends
    cases h
    exact hends.2.2.log
  · rw [hb] at h hends
    have hlog := hends.2.2.sameLog_of_tried.log
    cases signal <;> cases h <;> exact hlog
  · rw [hb] at h
    cases h

/-! ## Scripts -/

/-- Under every budget, between runs, and with any arguments: a script that completes or ends
leaves the log alone; one that fails adds exactly the error it fails with; one that the debugger
ends adds at most the error it was ended at. Nothing is recorded while a `try` is open, so that no
recorded error is caught. There is one exception: the error of a method that a host brings in
unbound, or bound to an object of another component, is not recorded. -/
theorem errors_recorded_once (n : Nat) :
    (∀ (statements : List Statement) (args : List Value) (s t : Session)
        (r : Except ScriptError Finish),
      s.BetweenRuns (fun _ => True) → s.exec n statements args = some (r, t) →
      match r with
      | .ok ⟨_, .completed⟩ | .ok ⟨_, .endStatement⟩ => t.log = s.log
      | .ok ⟨_, .debugExit⟩ =>
        t.log = s.log ∨ ∃ e location, t.log = s.log.record e ∧
          t.log.errors = s.log.errors ++ [e] ∧
          t.breaks.head? = some ⟨location, "crash", some e⟩
      | .error e =>
        t.log = s.log.record e ∧ t.log.errors = s.log.errors ++ [e] ∨
          t.log = s.log ∧ e.IsStray ∧ ¬ (s.Holds Value.Sound ∧ ∀ v ∈ args, v.Sound)) ∧
    (∀ (e : Expr) (s t : Session), s.tryMode = true →
      (evaluate n e s).state? = some t → t.log = s.log) ∧
    (∀ (statement : Statement) (s t : Session), s.tryMode = true →
      (execute n statement s).state? = some t → t.log = s.log) ∧
    (∀ (block : Block) (s t : Session),
      (Run.catching ((Evaluator.ofBudget n).executeBlock block) (fun _ => pure ()) s).state? =
        some t → t.log = s.log) := by
  refine ⟨?_, ?_, ?_, ?_⟩
  · intro statements args s t r hs h
    have htry := hs.clean.tryMode
    have hends := (Contract.fullAccounting.exec (fun _ _ => trivial) (.trivial s) h).ends
    rcases r with e | ⟨v, _ | _ | _⟩
    · have recorded (hlog : t.log = (s.note e).log) :
          t.log = s.log.record e ∧ t.log.errors = s.log.errors ++ [e] := by
        rw [Session.log_note_of_not_tryMode htry] at hlog
        exact ⟨hlog, congrArg ErrorLog.errors hlog⟩
      by_cases hsound : s.Holds Value.Sound ∧ ∀ v ∈ args, v.Sound
      · have hsoundly := (Contract.soundAccounting.exec hsound.2 hsound.1 h).ends
        exact .inl (recorded (hsoundly.2.accounts.resolve_right And.left))
      · exact hends.2.accounts.imp recorded fun ⟨hstray, hlog⟩ => ⟨hlog, hstray, hsound⟩
    · exact hends.2.log
    · obtain ⟨-, location, haccounted⟩ := hends
      exact haccounted.accounts
    · obtain ⟨-, location, haccounted⟩ := hends
      rcases haccounted.accounts with hlog | ⟨-, e, stop, hlog, hbreak⟩
      · exact .inl hlog
      · exact .inr ⟨e, stop, hlog, congrArg ErrorLog.errors hlog, hbreak⟩
  · exact fun e s t htry =>
      Contract.log_eq_of_tryMode (Contract.fullAccounting.evaluate n e (.trivial s)) htry
  · exact fun st s t htry =>
      Contract.log_eq_of_tryMode (Contract.fullAccounting.execute n st (.trivial s)) htry
  · exact fun block s t h => Evaluator.log_catching h

/-- A script that leaves a loop it is not in fails, with its error recorded. -/
theorem errors_recorded_once_of_exitFor :
    ∃ e t, (Session.new { Options.standard with entryPoint := false }).exec 2
      [.exitFor .builtin] [] = some (.error e, t) ∧ t.log.errors = [e] := by
  refine ⟨_, _, rfl, ?_⟩
  obtain ⟨-, herrors⟩ | ⟨-, -, hunsound⟩ := (errors_recorded_once 2).1 [.exitFor .builtin] [] _ _ _
    (.new { Options.standard with entryPoint := false }) rfl
  · exact herrors
  · exact absurd ⟨.new .sound _, fun _ h => by cases h⟩ hunsound

/-- `sub main(f)`, which calls `f`. -/
def callingArgument : Statement :=
  .declaration ⟨"main", .builtin⟩ ⟨"main", [⟨⟨"f", .builtin⟩, .dynamic, none⟩], .void, true,
    ⟨[.expression (.call (.reference ⟨"f", .builtin⟩) [] false .builtin .builtin)], .builtin⟩,
    .builtin⟩

/-- The method `count` of arrays, bound to nothing. -/
def unboundCount : Value :=
  .function ⟨.fresh 0, .method (.array .count) .invalid, none⟩

/-- A host passes a method that is bound to nothing. Calling it fails, and nothing is recorded. -/
theorem error_unrecorded_of_unboundCount :
    ((Session.new .standard).exec 8 [callingArgument] [unboundCount]).map
      (fun (r, t) => (r.toOption.isNone, t.log.errors.length)) = some (true, 0) := by
  decide +kernel

end BrightScript
