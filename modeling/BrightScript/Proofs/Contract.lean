import BrightScript.Proofs.Simulation.Statement

/-!
# Contracts

A contract says what every run does to the session it starts in: which sessions it may start in and
ends in (`inv`), how a session with a result compares to the one at the start (`keep`), and how one
that a signal left compares to it (`left`). The fields of `Contract` are facts about single changes
of a session. They make the contract a simulation of runs by equal runs, so that it holds of the
evaluation of every expression and the execution of every statement (`Contract.evaluate`,
`Contract.execute`), of calls, and of whole scripts. An `Invariant` is a contract that compares
nothing.
-/

namespace BrightScript

variable {s t : Session} {signal : Signal} {args : List Value} {budget : Nat}
  {statements : List Statement} {location : Location}

/-- Whether a signal goes through calls: an error, or the end of the run. -/
def Signal.isFinal : Signal → Bool
  | .ending _ | .debugExit _ | .error _ => true
  | _ => false

theorem Signal.isFinal_of_isJump (h : signal.isJump = true) : signal.isFinal = false := by
  cases signal with
  | returning | ending | debugExit | error => cases h
  | _ => rfl

def Text.Begins (a b : String) : Prop :=
  ∃ rest, b = a ++ rest

/-- The questions that a provider of the host was asked, the latest first. -/
def Suspension.asked : Suspension → List Bool
  | .host _ asked => asked
  | _ => []

/-- A session grew into another one: what was written, recorded and asked is still there. -/
structure Session.Grows (s t : Session) : Prop where
  stdout : Text.Begins s.stdout t.stdout
  stderr : Text.Begins s.stderr t.stderr
  console : Text.Begins s.console t.console
  errors : s.log.errors <+: t.log.errors
  breaks : s.breaks <:+ t.breaks
  asked : s.suspension.asked <:+ t.suspension.asked

/-- What a host, a debugger or a `print` does to a session: the rules read nothing of it, nothing is
recorded, and what was written stays. -/
structure Session.Serviced (s t : Session) : Prop where
  core : t.core = s.core
  log : t.log = s.log
  grows : s.Grows t

/-- The options, with the debugger no longer called for errors. -/
def Session.disarmed (s : Session) : Session :=
  { s with options := { s.options with stopOnCrash := false } }

def Session.crashBreak (s : Session) (e : ScriptError) : Break :=
  ⟨s.location, "crash", some e⟩

/-! ## Writing and pausing -/

namespace Session

theorem core_write (s : Session) (channel : Channel) (text : String) :
    (s.write channel text).core = s.core := by
  cases channel <;> rfl

theorem log_write (s : Session) (channel : Channel) (text : String) :
    (s.write channel text).log = s.log := by
  cases channel <;> rfl

theorem breaks_write (s : Session) (channel : Channel) (text : String) :
    (s.write channel text).breaks = s.breaks := by
  cases channel <;> rfl

theorem breaks_consult (s : Session) (pause : Break) :
    (s.consult pause).2.breaks = pause :: s.breaks := by
  rw [consult]
  exact breaks_write _ _ _

end Session

/-! ## What stays -/

theorem Text.Begins.refl (a : String) : Text.Begins a a :=
  ⟨"", String.append_empty.symm⟩

theorem Text.Begins.trans {a b c : String} (h : Text.Begins a b) (h' : Text.Begins b c) :
    Text.Begins a c := by
  obtain ⟨rest, rfl⟩ := h
  obtain ⟨rest', rfl⟩ := h'
  exact ⟨rest ++ rest', String.append_assoc⟩

namespace Session.Grows

theorem refl (s : Session) : s.Grows s :=
  ⟨.refl _, .refl _, .refl _, List.prefix_rfl, List.suffix_rfl, List.suffix_rfl⟩

theorem trans {u : Session} (h : s.Grows t) (h' : t.Grows u) : s.Grows u :=
  ⟨h.stdout.trans h'.stdout, h.stderr.trans h'.stderr, h.console.trans h'.console,
    h.errors.trans h'.errors, h.breaks.trans h'.breaks, h.asked.trans h'.asked⟩

theorem write (s : Session) (channel : Channel) (text : String) :
    s.Grows (s.write channel text) := by
  cases channel with
  | stdout => exact { refl s with stdout := ⟨text, rfl⟩ }
  | stderr => exact { refl s with stderr := ⟨text, rfl⟩ }
  | console => exact { refl s with console := ⟨text, rfl⟩ }

theorem note (s : Session) (e : ScriptError) : s.Grows (s.note e) := by
  unfold Session.note
  split
  · exact refl s
  · exact { refl s with errors := List.prefix_append _ _ }

theorem poll (s : Session) (debugMode : Bool) :
    s.Grows { s with suspension := (s.suspension.poll debugMode).2 } := by
  refine { refl s with asked := ?_ }
  rcases hs : s.suspension with _ | _ | ⟨answer, asked⟩
  · exact List.nil_suffix
  · exact List.nil_suffix
  · exact List.suffix_cons _ _

theorem consult (s : Session) (pause : Break) : s.Grows (s.consult pause).2 := by
  have noted (d : Debugger) : s.Grows { s with breaks := pause :: s.breaks, debugger := d } :=
    { refl s with breaks := List.suffix_cons _ _ }
  rw [Session.consult]
  exact (noted _).trans (write _ _ _)

end Session.Grows

namespace Session.Serviced

theorem trans {u : Session} (h : s.Serviced t) (h' : t.Serviced u) : s.Serviced u :=
  ⟨h'.core.trans h.core, h'.log.trans h.log, h.grows.trans h'.grows⟩

theorem write (s : Session) (channel : Channel) (text : String) :
    s.Serviced (s.write channel text) :=
  ⟨s.core_write channel text, s.log_write channel text, .write s channel text⟩

theorem poll (s : Session) :
    s.Serviced { s with suspension := (s.suspension.poll s.debugMode).2 } :=
  ⟨rfl, rfl, .poll s s.debugMode⟩

theorem debugMode (s : Session) (debugMode : Bool) :
    s.Serviced { s with debugMode := debugMode } :=
  ⟨rfl, rfl, { Grows.refl s with }⟩

theorem disarmed (s : Session) : s.Serviced s.disarmed :=
  ⟨rfl, rfl, { Grows.refl s with }⟩

theorem consult (s : Session) (pause : Break) : s.Serviced (s.consult pause).2 := by
  refine ⟨?_, ?_, .consult s pause⟩
  · rw [Session.consult]
    exact Session.core_write _ _ _
  · rw [Session.consult]
    exact Session.log_write _ _ _

theorem crashed (s : Session) (e : ScriptError) :
    s.Serviced (s.disarmed.consult (s.crashBreak e)).2.disarmed :=
  ((disarmed s).trans (consult _ _)).trans (disarmed _)

end Session.Serviced

namespace Session.Holds

variable {P : Value → Prop}

theorem ofCore (hs : s.Holds P) (h : t.core = s.core) : t.Holds P := by
  have heap : t.heap = s.heap := congrArg Core.heap h
  have scopes : t.scopes = s.scopes := congrArg Core.scopes h
  exact ⟨heap ▸ hs.heap, scopes ▸ hs.scopes⟩

theorem update {lax : Prop} {g : Grade} {f : Session → Session} (h : Update P lax g f)
    (hs : s.Holds P) : (f s).Holds P := by
  cases h with
  | heap hf => exact ⟨hf _ hs.heap, hs.scopes⟩
  | location | identity | readClock | complain | resume | advance | debug => exact ⟨hs.heap, hs.scopes⟩
  | bind name hv => exact ⟨hs.heap, hs.scopes.bind hv name⟩
  | @declare name body hname hv =>
    have hdeclared : (s.scopes.declare name body).Holds P := by
      obtain h | ⟨-, h⟩ := s.scopes.declare_cases name body
      · rw [h]
        exact hs.scopes
      · rw [h]
        exact hs.scopes.defineModule hv _ _
    exact ⟨hs.heap, hdeclared⟩
  | arrive | seek => exact ⟨hs.heap, hs.scopes.setPending _⟩

theorem withoutHelpers (hs : s.Holds P) : (Run.withoutHelpers s).Holds P :=
  ⟨hs.heap, (hs.scopes.removeLocal _).removeLocal _⟩

theorem entered (hs : s.Holds P) (m : AssocRef) (frame? : Option Frame) :
    (s.entered m frame?).Holds P :=
  ⟨hs.heap, hs.scopes.fresh m⟩

theorem returnedTo (hs : s.Holds P) (ht : t.Holds P) (frame? : Option Frame) :
    (t.returnedTo s frame?).Holds P :=
  ⟨ht.heap, hs.scopes.resume ht.scopes⟩

end Session.Holds

/-! ## The ends of scripts -/

/-- What becomes of an error that is handed to the debugger. -/
theorem Run.crash_error_apply {α : Type} (e : ScriptError) (s : Session) :
    (Run.crash (.error e) : Run α) s =
      if Run.crashes s e then
        match s.disarmed.consult (s.crashBreak e) with
        | (.proceed, t) => .exit (.error e) { t with debugMode := false }
        | (.step, t) => .exit (.error e) t
        | (.exit, t) => .exit (.debugExit s.location) t.disarmed
      else .exit (.error e) s := by
  show (if Run.crashes s e then _ else _ : Run α) s = _
  split
  · show (Run.pauseAt (s.crashBreak e) >>= fun _ => Routine.leave (.error e)) s.disarmed = _
    rw [Run.pauseAt, bind_assoc, Routine.bind_apply, Routine.change]
    rcases s.disarmed.consult (s.crashBreak e) with ⟨_ | _ | _, t⟩ <;> rfl
  · rfl

theorem Run.crash_error_cases {α : Type} (e : ScriptError) (s : Session) :
    ∃ t, (Run.crash (.error e) : Run α) s = .exit (.error e) t ∨
      (Run.crash (.error e) : Run α) s = .exit (.debugExit s.location) t := by
  rw [Run.crash_error_apply]
  split
  · rcases s.disarmed.consult (s.crashBreak e) with ⟨action, t⟩
    cases action with
    | proceed | step => exact ⟨_, .inl rfl⟩
    | exit => exact ⟨_, .inr rfl⟩
  · exact ⟨s, .inl rfl⟩

theorem Run.eq_done_of_crashing {α : Type} {x : Run α} {a : α}
    (h : Routine.handle x Run.crash s = .done a t) : x s = .done a t := by
  rw [Routine.handle] at h
  cases hx : x s with
  | done b u => rw [hx] at h; exact h
  | exhausted => rw [hx] at h; cases h
  | exit signal u =>
    rw [hx] at h
    cases signal with
    | error e =>
      dsimp only at h
      obtain ⟨v, hv | hv⟩ := Run.crash_error_cases (α := α) e u <;> rw [hv] at h <;> cases h
    | _ => cases h

-- The debugger may end the run, so a final signal can come of an error.
theorem Run.crashing_eq_exit {α : Type} {x : Run α}
    (h : Routine.handle x Run.crash s = .exit signal t) :
    (∃ e u, x s = .exit (.error e) u ∧ (Run.crash (.error e) : Run α) u = .exit signal t ∧
        signal.isFinal = true) ∨
      (x s = .exit signal t ∧ ∀ e, signal ≠ .error e) := by
  rw [Routine.handle] at h
  cases hx : x s with
  | done | exhausted => rw [hx] at h; cases h
  | exit signal' u =>
    rw [hx] at h
    cases signal' with
    | error e =>
      refine .inl ⟨e, u, rfl, h, ?_⟩
      dsimp only at h
      obtain ⟨v, hv | hv⟩ := Run.crash_error_cases (α := α) e u <;> rw [hv] at h <;> cases h <;> rfl
    | _ => cases h; exact .inr ⟨rfl, fun _ heq => by cases heq⟩

theorem Run.eq_exit_of_crashing {α : Type} {x : Run α} (hsignal : signal.isFinal = false)
    (h : Routine.handle x Run.crash s = .exit signal t) : x s = .exit signal t := by
  rcases Run.crashing_eq_exit h with ⟨_, _, -, -, hfinal⟩ | ⟨hx, -⟩
  · rw [hsignal] at hfinal
    cases hfinal
  · exact hx

theorem Run.serviced_crash {α : Type}
    (h : (Run.crash signal s : Outcome Signal Session α).state? = some t) : s.Serviced t := by
  have hsame : s.Serviced s := ⟨rfl, rfl, .refl s⟩
  cases signal with
  | error e =>
    rw [Run.crash_error_apply] at h
    split at h
    · have hasked := (Session.Serviced.disarmed s).trans (.consult s.disarmed (s.crashBreak e))
      rcases hu : s.disarmed.consult (s.crashBreak e) with ⟨action, u⟩
      rw [hu] at h hasked
      cases action with
      | proceed =>
        cases h
        exact hasked.trans (.debugMode u false)
      | step =>
        cases h
        exact hasked
      | exit =>
        cases h
        exact hasked.trans (.disarmed u)
    · cases h
      exact hsame
  | _ =>
    cases h
    exact hsame

theorem Run.leaveCall_cases (returns : Kind) (signal : Signal) :
    (signal.isFinal = true ∧ Run.leaveCall returns signal = Routine.leave signal) ∨
      (signal.isFinal = false ∧ ((∃ v, Run.leaveCall returns signal = pure v) ∨
        ∃ e, Run.leaveCall returns signal = Run.raise e)) := by
  cases signal with
  | ending | debugExit | error => exact .inl ⟨rfl, rfl⟩
  | returning value? location =>
    refine .inr ⟨rfl, ?_⟩
    show (∃ v, Run.returned returns value? location = pure v) ∨
      ∃ e, Run.returned returns value? location = Run.raise e
    unfold Run.returned
    cases value? with
    | none =>
      dsimp only
      split
      · exact .inl ⟨_, rfl⟩
      · exact .inr ⟨_, rfl⟩
    | some v =>
      dsimp only
      split
      · exact .inr ⟨_, rfl⟩
      · cases v.coerce? returns with
        | some w => exact .inl ⟨w, rfl⟩
        | none => exact .inr ⟨_, rfl⟩
  | _ => exact .inr ⟨rfl, .inr ⟨_, rfl⟩⟩

theorem Run.script_apply (budget : Nat) (statements : List Statement) (args : List Value)
    (s : Session) :
    Run.script budget statements args s =
      match Run.program budget statements args s with
      | .done v t => .done ⟨v, .completed⟩ t
      | .exit signal t => Run.finish signal t
      | .exhausted => .exhausted := by
  rw [Run.script, Evaluator.script, Routine.handle, Routine.bind_apply, ← Run.program]
  cases Run.program budget statements args s <;> rfl

theorem Run.finish_state (h : (Run.finish signal s).state? = some t) :
    t = s ∨ ∃ e, t = s.note e := by
  cases signal with
  | returning | ending | debugExit | error => cases h; exact .inl rfl
  | _ => cases h; exact .inr ⟨_, rfl⟩

/-- The session after a script is the one that its statements and its entry function left, but for
the error of a jump that left the script. -/
theorem Session.exec_state {r : Except ScriptError Finish}
    (h : s.exec budget statements args = some (r, t)) :
    ∃ u, (Run.program budget statements args s).state? = some u ∧ (t = u ∨ ∃ e, t = u.note e) := by
  rw [Session.exec, Run.script_apply] at h
  cases hp : Run.program budget statements args s with
  | done v u =>
    rw [hp] at h
    cases h
    exact ⟨t, rfl, .inl rfl⟩
  | exit signal u =>
    rw [hp] at h
    dsimp only at h
    have hstate : (Run.finish signal u).state? = some t := by
      cases hf : Run.finish signal u <;> rw [hf] at h <;> cases h <;> rfl
    exact ⟨u, rfl, Run.finish_state hstate⟩
  | exhausted => rw [hp] at h; cases h

/-! ## Coming to a statement -/

theorem Run.pauseAt_cases (pause : Break) (s : Session) :
    (∃ t, Run.pauseAt pause s = .done () t ∧ t.core = s.core) ∨
      ∃ location t, Run.pauseAt pause s = .exit (.debugExit location) t ∧ t.core = s.core := by
  have hcore := (Session.Serviced.consult s pause).core
  rw [Run.pauseAt, Routine.bind_apply, Routine.change]
  rcases hc : s.consult pause with ⟨action, t⟩
  rw [hc] at hcore
  cases action with
  | proceed | step => exact .inl ⟨_, rfl, hcore⟩
  | exit => exact .inr ⟨_, _, rfl, hcore⟩

/-- The question before a statement changes nothing that the rules read, and if the statement is not
come to then the run ends. -/
theorem Run.checkpoint_cases (statement : Statement) (s : Session) :
    (∃ t, Run.checkpoint statement s = .done () t ∧ t.core = s.core) ∨
      ∃ location t,
        Run.checkpoint statement s = .exit (.debugExit location) t ∧ t.core = s.core := by
  rw [Run.checkpoint, Routine.bind_apply, Run.poll, Routine.change]
  rcases hpoll : s.suspension.poll s.debugMode with ⟨command, suspension⟩
  dsimp only
  cases command with
  | proceed => exact .inl ⟨_, rfl, rfl⟩
  | exit => exact .inr ⟨_, _, rfl, rfl⟩
  | pause =>
    rw [Run.obey, Routine.bind_apply, Routine.modify_apply]
    dsimp only
    split
    · exact .inl ⟨_, rfl, rfl⟩
    · exact Run.pauseAt_cases _ _

namespace Evaluator

theorem approach_cases (statement : Statement) (s : Session) :
    (∃ t, approach statement s = .done () t ∧
      t.core = { s with location := statement.location }.core) ∨
      ∃ location t, approach statement s = .exit (.debugExit location) t ∧ t.core = s.core := by
  unfold approach
  cases isStop statement with
  | true => exact .inl ⟨_, rfl, rfl⟩
  | false =>
    have hmoved {t : Session} (h : t.core = s.core) :
        { t with location := statement.location }.core =
          { s with location := statement.location }.core :=
      congrArg (fun c => { c with location := statement.location }) h
    obtain ⟨t, ht, hcore⟩ | ⟨location, t, ht, hcore⟩ := Run.checkpoint_cases statement s
    · refine .inl ⟨{ t with location := statement.location }, ?_, hmoved hcore⟩
      show (Run.checkpoint statement >>= fun _ => Run.moveTo statement.location) s = _
      rw [Routine.bind_apply, ht]
      rfl
    · refine .inr ⟨location, t, ?_, hcore⟩
      show (Run.checkpoint statement >>= fun _ => Run.moveTo statement.location) s = _
      rw [Routine.bind_apply, ht]

/-- While a label is looked for a statement is searched. -/
theorem statement_of_pending {ev : Evaluator} {budget : Nat} {statement : Statement}
    {label : String} (h : s.scopes.pending = some label) :
    ev.statement budget statement s = ev.search budget label statement s := by
  rw [Evaluator.statement, around, Routine.bind_apply, Routine.view_apply, h]

/-- While no label is looked for a statement is come to and performed. -/
theorem statement_of_pending_none (ev : Evaluator) (budget : Nat) (statement : Statement)
    (h : s.scopes.pending = none) :
    ev.statement budget statement s =
      (approach statement >>= fun _ => ev.perform budget statement) s := by
  rw [Evaluator.statement, around, Routine.bind_apply, Routine.view_apply, h]

end Evaluator

/-! ## Contracts -/

/-- Evaluation under a budget that turns to another evaluator wherever an expression or a statement
is started in a session that fails a check. -/
def Evaluator.watched (check : Session → Prop) [DecidablePred check] (otherwise : Evaluator) :
    (budget : Nat) → Evaluator
  | 0 => ofBudget 0
  | n + 1 =>
    ⟨fun e s => if check s then (watched check otherwise n).expression n e s
      else otherwise.evaluate e s,
     fun st s => if check s then (watched check otherwise n).statement n st s
      else otherwise.execute st s⟩

/-- What runs do to sessions, as facts about single changes. -/
structure Contract (P : Value → Prop) (lax : Prop := True) where
  inv : Session → Prop
  /-- What holds of the session at the start and the one a result came with. -/
  keep : Grade → Session → Session → Prop
  left : Grade → Session → Signal → Session → Prop
  admissible : Admissible P
  holds : ∀ {s}, inv s → s.Holds P
  refl : ∀ {s}, keep .expression s s
  trans : ∀ {g s t u}, keep g s t → keep g t u → keep g s u
  trans_left : ∀ {g s t signal u}, keep g s t → left g t signal u → left g s signal u
  keep_statement : ∀ {s t}, keep .expression s t → keep .statement s t
  keep_body : ∀ {s t}, keep .statement s t → keep .body s t
  left_statement : ∀ {s signal t}, left .expression s signal t → left .statement s signal t
  left_body : ∀ {s signal t}, left .statement s signal t → left .body s signal t
  /-- A signal that something looks at leaves a session as a result does. -/
  keep_of_left : ∀ {g s signal t}, signal.isFinal = false → left g s signal t → keep g s t
  update : ∀ {g f s}, Update P lax g f → inv s → inv (f s) ∧ keep g s (f s)
  serviced : ∀ {s t}, s.Serviced t → inv s → inv t ∧ keep .expression s t
  raise : ∀ {s} {e : ScriptError}, e.Raised P → inv s →
    inv (s.note (s.traced e)) ∧ left .expression s (.error (s.traced e)) (s.note (s.traced e))
  stray : ∀ {i m receiver context s location},
    P (.function ⟨i, .method m receiver, context⟩) → receiver.component? ≠ some m.component →
      inv s → left .expression s (.error (Library.strayError m.component receiver location)) s
  leave : ∀ {s} {signal : Signal}, (∀ e, signal ≠ .error e) → inv s → left .statement s signal s
  quit : ∀ {s location}, inv s → left .statement s (.debugExit location) s.disarmed
  /-- An error that is handed to the debugger is still the same error. -/
  left_serviced : ∀ {g s e t u}, left g s (.error e) t → t.Serviced u → left g s (.error e) u
  crash : ∀ {g s e t}, left g s (.error e) t → inv t → Run.crashes t e = true →
    left g s (.debugExit t.location) (t.disarmed.consult (t.crashBreak e)).2.disarmed
  tried : ∀ {s}, inv s → inv (s.withTry true)
  untried : ∀ {s t}, inv s → inv t → inv (t.withTry s.tryMode)
  keep_untried : ∀ {s t}, inv s → keep .statement (s.withTry true) t →
    keep .statement s (t.withTry s.tryMode)
  keep_caught : ∀ {s e t}, inv s → left .statement (s.withTry true) (.error e) t →
    keep .statement s (t.withTry s.tryMode)
  left_untried : ∀ {s signal t}, inv s → (∀ e, signal ≠ .error e) →
    left .statement (s.withTry true) signal t → left .statement s signal (t.withTry s.tryMode)
  unhelped : ∀ {s}, inv s → inv (Run.withoutHelpers s) ∧ keep .statement s (Run.withoutHelpers s)
  left_unhelped : ∀ {s signal t}, left .statement s signal t →
    left .statement s signal (Run.withoutHelpers t)
  rewound : ∀ {s column}, inv s → inv { s with column := column }
  left_rewound : ∀ {s signal t column}, left .statement s signal t →
    left .statement s signal { t with column := column }
  /-- A procedure is called only while there is room on the stack. -/
  entered : ∀ {s m frame?}, (frame? = none ∨ s.isFull = false) → inv s → inv (s.entered m frame?)
  returnedTo : ∀ {s m frame? t}, inv s → inv t → keep .body (s.entered m frame?) t →
    inv (t.returnedTo s frame?) ∧ keep .expression s (t.returnedTo s frame?)
  left_returnedTo : ∀ {s m frame? signal t}, inv s → inv t → signal.isFinal = true →
    left .body (s.entered m frame?) signal t →
      inv (t.returnedTo s frame?) ∧ left .expression s signal (t.returnedTo s frame?)

/-- What every session has that a run comes to, as facts about single changes. -/
structure Invariant (P : Value → Prop) (lax : Prop := True) where
  inv : Session → Prop
  admissible : Admissible P
  holds : ∀ {s}, inv s → s.Holds P
  update : ∀ {g f s}, Update P lax g f → inv s → inv (f s)
  serviced : ∀ {s t}, s.Serviced t → inv s → inv t
  raise : ∀ {s} {e : ScriptError}, e.Raised P → inv s → inv (s.note (s.traced e))
  tried : ∀ {s}, inv s → inv (s.withTry true)
  untried : ∀ {s t}, inv s → inv t → inv (t.withTry s.tryMode)
  unhelped : ∀ {s}, inv s → inv (Run.withoutHelpers s)
  rewound : ∀ {s column}, inv s → inv { s with column := column }
  entered : ∀ {s m frame?}, (frame? = none ∨ s.isFull = false) → inv s → inv (s.entered m frame?)
  returnedTo : ∀ {s t frame?}, inv s → inv t → inv (t.returnedTo s frame?)

def Invariant.contract {P : Value → Prop} {lax : Prop} (k : Invariant P lax) : Contract P lax where
  inv := k.inv
  keep _ _ _ := True
  left _ _ _ _ := True
  admissible := k.admissible
  holds := k.holds
  refl := trivial
  trans _ _ := trivial
  trans_left _ _ := trivial
  keep_statement _ := trivial
  keep_body _ := trivial
  left_statement _ := trivial
  left_body _ := trivial
  keep_of_left _ _ := trivial
  update hf hs := ⟨k.update hf hs, trivial⟩
  serviced h hs := ⟨k.serviced h hs, trivial⟩
  raise he hs := ⟨k.raise he hs, trivial⟩
  stray _ _ _ := trivial
  leave _ _ := trivial
  quit _ := trivial
  left_serviced _ _ := trivial
  crash _ _ _ := trivial
  tried := k.tried
  untried := k.untried
  keep_untried _ _ := trivial
  keep_caught _ _ := trivial
  left_untried _ _ _ := trivial
  unhelped hs := ⟨k.unhelped hs, trivial⟩
  left_unhelped _ := trivial
  rewound := k.rewound
  left_rewound _ := trivial
  entered := k.entered
  returnedTo hs ht _ := ⟨k.returnedTo hs ht, trivial⟩
  left_returnedTo hs ht _ _ := ⟨k.returnedTo hs ht, trivial⟩

namespace Contract

variable {P : Value → Prop} {lax : Prop} (k : Contract P lax)

def Ends {α : Type} (g : Grade) (Q : α → Prop) (s : Session) : Outcome Signal Session α → Prop
  | .done a t => Q a ∧ k.inv t ∧ k.keep g s t
  | .exit signal t => signal.Holds P ∧ k.inv t ∧ k.left g s signal t
  | .exhausted => True

/-- Two runs that are the same and end as the contract says, wherever they may start. -/
def Keeps {α : Type} (g : Grade) (Q : α → Prop) (x x' : Run α) : Prop :=
  ∀ s, k.inv s → x s = x' s ∧ k.Ends g Q s (x s)

variable {k} {g : Grade} {α β : Type} {Q : α → Prop} {R : β → Prop}

namespace Keeps

theorem ofExpression {x x' : Run α} (h : k.Keeps .expression Q x x') :
    k.Keeps .statement Q x x' := by
  intro s hs
  obtain ⟨heq, hends⟩ := h s hs
  refine ⟨heq, ?_⟩
  cases hx : x s with
  | done a t => rw [hx] at hends; exact ⟨hends.1, hends.2.1, k.keep_statement hends.2.2⟩
  | exit signal t => rw [hx] at hends; exact ⟨hends.1, hends.2.1, k.left_statement hends.2.2⟩
  | exhausted => trivial

theorem ofStatement {x x' : Run α} (h : k.Keeps .statement Q x x') : k.Keeps .body Q x x' := by
  intro s hs
  obtain ⟨heq, hends⟩ := h s hs
  refine ⟨heq, ?_⟩
  cases hx : x s with
  | done a t => rw [hx] at hends; exact ⟨hends.1, hends.2.1, k.keep_body hends.2.2⟩
  | exit signal t => rw [hx] at hends; exact ⟨hends.1, hends.2.1, k.left_body hends.2.2⟩
  | exhausted => trivial

/-- A run that goes on after another one ends as the contract says for both. -/
theorem after {o : Outcome Signal Session α} (hkeep : k.keep g s t) (h : k.Ends g Q t o) :
    k.Ends g Q s o := by
  cases o with
  | done a u => exact ⟨h.1, h.2.1, k.trans hkeep h.2.2⟩
  | exit signal u => exact ⟨h.1, h.2.1, k.trans_left hkeep h.2.2⟩
  | exhausted => trivial

theorem bind {x x' : Run α} {f f' : α → Run β} (hx : k.Keeps g Q x x')
    (hf : ∀ a, Q a → k.Keeps g R (f a) (f' a)) : k.Keeps g R (x >>= f) (x' >>= f') := by
  intro s hs
  obtain ⟨heq, hends⟩ := hx s hs
  rw [Routine.bind_apply, Routine.bind_apply, ← heq]
  cases hxs : x s with
  | done a t =>
    rw [hxs] at hends
    obtain ⟨ha, ht, hkeep⟩ := hends
    obtain ⟨heq', hends'⟩ := hf a ha t ht
    exact ⟨heq', after hkeep hends'⟩
  | exit signal t => rw [hxs] at hends; exact ⟨rfl, hends⟩
  | exhausted => exact ⟨rfl, trivial⟩

/-- A run whose signals are looked at. A final signal ends the run as before; the others come with a
session that was kept. -/
theorem intercept {x x' : Run α} {f f' : Except Signal α → Run β} (hx : k.Keeps g Q x x')
    (hok : ∀ a, Q a → k.Keeps g R (f (.ok a)) (f' (.ok a)))
    (hjump : ∀ signal, signal.isJump = true → k.Keeps g R (f (.error signal)) (f' (.error signal)))
    (hrest : ∀ signal, signal.isJump = false → f (.error signal) = Routine.leave signal ∧
      f' (.error signal) = Routine.leave signal) :
    k.Keeps g R (Routine.attempt x >>= f) (Routine.attempt x' >>= f') := by
  intro s hs
  obtain ⟨heq, hends⟩ := hx s hs
  rw [Routine.attempt_bind_apply, Routine.attempt_bind_apply, ← heq]
  cases hxs : x s with
  | done a t =>
    rw [hxs] at hends
    obtain ⟨ha, ht, hkeep⟩ := hends
    obtain ⟨heq', hends'⟩ := hok a ha t ht
    exact ⟨heq', after hkeep hends'⟩
  | exit signal t =>
    rw [hxs] at hends
    cases hj : signal.isJump with
    | true =>
      obtain ⟨heq', hends'⟩ := hjump signal hj t hends.2.1
      exact ⟨heq', after (k.keep_of_left (Signal.isFinal_of_isJump hj) hends.2.2) hends'⟩
    | false =>
      obtain ⟨hf, hf'⟩ := hrest signal hj
      dsimp only
      rw [hf, hf']
      exact ⟨rfl, hends⟩
  | exhausted => exact ⟨rfl, trivial⟩

theorem pure {a : α} (ha : Q a) : k.Keeps .expression Q (Pure.pure a) (Pure.pure a) :=
  fun _ hs => ⟨rfl, ha, hs, k.refl⟩

theorem modify {f : Session → Session} (h : ∀ s, k.inv s → k.inv (f s) ∧ k.keep g s (f s)) :
    k.Keeps g (fun _ => True) (Routine.modify f) (Routine.modify f) :=
  fun s hs => ⟨rfl, trivial, h s hs⟩

theorem leave (hsignal : signal.Holds P) (h : ∀ s, k.inv s → k.left g s signal s) :
    k.Keeps g Q (Routine.leave signal) (Routine.leave signal) :=
  fun s hs => ⟨rfl, hsignal, hs, h s hs⟩

theorem raise {e : ScriptError} (he : e.Raised P) :
    k.Keeps .expression Q (Run.raise e) (Run.raise e) :=
  fun _ hs => ⟨rfl, he.holds, k.raise he hs⟩

theorem fault {f : Fault} : k.Keeps .expression Q (Run.fault f location) (Run.fault f location) :=
  raise (.of_extra rfl)

theorem stray {i : Identity} {m : Method} {receiver : Value} {context : Option AssocRef}
    (hm : P (.function ⟨i, .method m receiver, context⟩))
    (hr : receiver.component? ≠ some m.component) :
    k.Keeps .expression Q (Library.wrongReceiver m.component receiver)
      (Library.wrongReceiver m.component receiver) := by
  intro s hs
  have members : (Library.strayError m.component receiver s.location).Holds P :=
    fun _ h => by cases h
  exact ⟨rfl, members, hs, k.stray hm hr hs⟩

theorem serve {f : Session → α × Session} (h : ∀ s : Session, s.Serviced (f s).2) :
    k.Keeps .expression (fun _ => True) (Routine.change f) (Routine.change f) :=
  fun s hs => ⟨rfl, trivial, k.serviced (h s) hs⟩

theorem debugMode {mode : Bool} :
    k.Keeps .expression (fun _ => True) (Routine.modify fun s => { s with debugMode := mode })
      (Routine.modify fun s => { s with debugMode := mode }) :=
  modify fun s => k.serviced (.debugMode s mode)

theorem quit : k.Keeps .statement Q (Run.quit location) (Run.quit location) :=
  fun s hs => ⟨rfl, trivial, (k.serviced (.disarmed s) hs).1, k.quit hs⟩

theorem pauseAt {pause : Break} :
    k.Keeps .statement (fun _ => True) (Run.pauseAt pause) (Run.pauseAt pause) := by
  refine bind (ofExpression (serve fun s => .consult s pause)) fun action _ => ?_
  cases action with
  | proceed => exact ofExpression debugMode
  | step => exact ofExpression (pure trivial)
  | exit => exact quit

theorem obey (statement : Statement) (command : Command) :
    k.Keeps .statement (fun _ => True) (Run.obey statement command)
      (Run.obey statement command) := by
  cases command with
  | proceed => exact ofExpression (pure trivial)
  | pause =>
    refine bind (ofExpression debugMode) fun _ _ => ?_
    split
    · exact ofExpression (pure trivial)
    · exact pauseAt
  | exit => exact quit

theorem checkpoint (statement : Statement) :
    k.Keeps .statement (fun _ => True) (Run.checkpoint statement) (Run.checkpoint statement) := by
  rw [Run.checkpoint]
  exact bind (ofExpression (serve .poll)) fun command _ => obey statement command

theorem catching {x x' : Run Unit} {handler handler' : ScriptError → Run Unit}
    (hx : k.Keeps .statement (fun _ => True) x x')
    (hh : ∀ e : ScriptError, e.Holds P →
      k.Keeps .statement (fun _ => True) (handler e) (handler' e)) :
    k.Keeps .statement (fun _ => True) (Run.catching x handler) (Run.catching x' handler') := by
  intro s hs
  obtain ⟨heq, hends⟩ := hx (s.withTry true) (k.tried hs)
  rw [Run.catching, Run.catching, ← heq]
  cases hxs : x (s.withTry true) with
  | done a t =>
    rw [hxs] at hends
    exact ⟨rfl, trivial, k.untried hs hends.2.1, k.keep_untried hs hends.2.2⟩
  | exit signal t =>
    rw [hxs] at hends
    obtain ⟨hsignal, ht, hleft⟩ := hends
    have ht' := k.untried hs ht
    cases signal with
    | error e =>
      obtain ⟨heq', hends'⟩ := hh e hsignal _ ht'
      exact ⟨heq', after (k.keep_caught hs hleft) hends'⟩
    | _ => exact ⟨rfl, hsignal, ht', k.left_untried hs (fun _ h => by cases h) hleft⟩
  | exhausted => exact ⟨rfl, trivial⟩

theorem printing {x x' : Run String} (hx : k.Keeps .statement (fun _ => True) x x') :
    k.Keeps .statement (fun _ => True) (Run.printing x) (Run.printing x') := by
  intro s hs
  obtain ⟨heq, hends⟩ := hx s hs
  rw [Run.printing, Run.printing, ← heq]
  cases hxs : x s with
  | done line t =>
    rw [hxs] at hends
    obtain ⟨hu, hkeep⟩ := k.unhelped hends.2.1
    obtain ⟨hw, hkeep'⟩ := k.serviced (.write _ .stdout line) hu
    exact ⟨rfl, trivial, hw, k.trans hends.2.2 (k.trans hkeep (k.keep_statement hkeep'))⟩
  | exit signal t =>
    rw [hxs] at hends
    obtain ⟨hsignal, ht, hleft⟩ := hends
    exact ⟨rfl, hsignal, k.rewound (k.unhelped ht).1, k.left_rewound (k.left_unhelped hleft)⟩
  | exhausted => exact ⟨rfl, trivial⟩

theorem crash_error {e : ScriptError} (he : e.Holds P) (ht : k.inv t)
    (hleft : k.left g s (.error e) t) : k.Ends g Q s (Run.crash (.error e) t) := by
  rw [Run.crash_error_apply]
  split
  · next hc =>
    have hasked := (Session.Serviced.disarmed t).trans (.consult t.disarmed (t.crashBreak e))
    have hcrash := k.crash hleft ht hc
    rcases hu : t.disarmed.consult (t.crashBreak e) with ⟨action, u⟩
    rw [hu] at hasked hcrash
    cases action with
    | proceed =>
      have hserved := hasked.trans (.debugMode u false)
      exact ⟨he, (k.serviced hserved ht).1, k.left_serviced hleft hserved⟩
    | step => exact ⟨he, (k.serviced hasked ht).1, k.left_serviced hleft hasked⟩
    | exit => exact ⟨trivial, (k.serviced (hasked.trans (.disarmed u)) ht).1, hcrash⟩
  · exact ⟨he, ht, hleft⟩

theorem crashing {x x' : Run α} (hx : k.Keeps g Q x x') :
    k.Keeps g Q (Routine.handle x Run.crash) (Routine.handle x' Run.crash) := by
  intro s hs
  obtain ⟨heq, hends⟩ := hx s hs
  rw [Routine.handle, Routine.handle, ← heq]
  refine ⟨rfl, ?_⟩
  cases hxs : x s with
  | done a t => rw [hxs] at hends; exact hends
  | exit signal t =>
    rw [hxs] at hends
    obtain ⟨hsignal, ht, hleft⟩ := hends
    cases signal with
    | error e => exact crash_error hsignal ht hleft
    | _ => exact ⟨hsignal, ht, hleft⟩
  | exhausted => trivial

theorem returned {returns : Kind} {value? : Option Value} (hv : ∀ v, value? = some v → P v) :
    k.Keeps .expression P (Run.returned returns value? location)
      (Run.returned returns value? location) := by
  unfold Run.returned
  split
  · split
    · exact pure (k.admissible.plain rfl)
    · exact fault
  · next v =>
    split
    · exact fault
    · split
      · next w hw => exact pure (k.admissible.coerce? (hv v rfl) hw)
      · exact raise (.of_extra rfl)

/-- What comes of a signal that leaves the body of a call. -/
theorem leaveCall {returns : Kind} {m : AssocRef} {frame? : Option Frame} (hs : k.inv s)
    (ht : k.inv t) (hsignal : signal.Holds P) (hleft : k.left .body (s.entered m frame?) signal t) :
    k.Ends .expression P s (Run.leaveCall returns signal (t.returnedTo s frame?)) := by
  cases hf : signal.isFinal with
  | true =>
    have hends := k.left_returnedTo hs ht hf hleft
    cases signal with
    | ending | debugExit | error => exact ⟨hsignal, hends⟩
    | _ => cases hf
  | false =>
    obtain ⟨ht', hkeep⟩ := k.returnedTo hs ht (k.keep_of_left hf hleft)
    refine after hkeep ?_
    cases signal with
    | returning value? location =>
      refine (returned (fun v hv => ?_) _ ht').2
      cases hv
      exact hsignal
    | ending | debugExit | error => cases hf
    | _ => exact (fault _ ht').2

theorem calling {frame? : Option Frame} {returns : Kind} {context : Option AssocRef}
    {call : Location} {x x' : Run Value} (hx : k.Keeps .body P x x') :
    k.Keeps .expression P (Run.calling frame? returns context call x)
      (Run.calling frame? returns context call x') := by
  intro s hs
  unfold Run.calling
  split
  · exact fault s hs
  · next hroom =>
    let m := context.getD s.scopes.rootM
    have hroom' : frame? = none ∨ s.isFull = false := by
      rw [Bool.and_eq_true, not_and, Bool.not_eq_true] at hroom
      cases frame? with
      | none => exact .inl rfl
      | some frame => exact .inr (hroom rfl)
    obtain ⟨heq, hends⟩ := hx (s.entered m frame?) (k.entered hroom' hs)
    rw [Run.handle_inCall_apply, Run.handle_inCall_apply, ← heq]
    refine ⟨rfl, ?_⟩
    cases hxs : x (s.entered m frame?) with
    | done v t =>
      rw [hxs] at hends
      exact ⟨hends.1, k.returnedTo hs hends.2.1 hends.2.2⟩
    | exit signal t =>
      rw [hxs] at hends
      exact leaveCall hs hends.2.1 hends.1 hends.2.2
    | exhausted => trivial

end Keeps

/-! ## The simulation of a contract -/

variable (k)

/-- A contract, as a simulation of runs by equal runs. -/
def simulation : Simulation P lax where
  rel g _ Q x x' := k.Keeps g Q x x'
  admissible := k.admissible
  ofExpression := Keeps.ofExpression
  ofStatement := Keeps.ofStatement
  ret := Keeps.pure
  bind := Keeps.bind
  giveUp := fun _ _ => ⟨rfl, trivial⟩
  view := fun _ hf _ hs => ⟨rfl, hf _ (k.holds hs), hs, k.refl⟩
  update := fun hf => Keeps.modify fun _ hs => k.update hf hs
  raise := Keeps.raise
  stray := Keeps.stray
  jump := fun {_ _ signal} hj => by
    refine Keeps.leave ?_ fun s hs => k.leave ?_ hs
    · cases signal with
      | returning | ending | debugExit | error => cases hj
      | _ => trivial
    · rintro e rfl
      cases hj
  ending := Keeps.leave trivial fun s hs => k.leave (fun _ h => by cases h) hs
  returning := fun {_ _ value? _} hv => by
    refine Keeps.leave ?_ fun s hs => k.leave (fun _ h => by cases h) hs
    cases value? with
    | none => trivial
    | some v => exact hv v rfl
  intercept := Keeps.intercept
  checkpoint := Keeps.checkpoint
  catching := Keeps.catching
  printing := Keeps.printing
  crashing := Keeps.crashing
  calling := Keeps.calling

end Contract

namespace Contract

variable {P : Value → Prop} (k : Contract P)

theorem evaluate (budget : Nat) (e : Expr) (hs : k.inv s) :
    k.Ends .expression P s (BrightScript.evaluate budget e s) :=
  ((k.simulation.ofBudget budget).evaluate e s hs).2

theorem execute (budget : Nat) (statement : Statement) (hs : k.inv s) :
    k.Ends .statement (fun _ => True) s (BrightScript.execute budget statement s) :=
  ((k.simulation.ofBudget budget).execute statement s hs).2

/-- Whatever is evaluated or executed on the way is started where the contract lets runs start: the
evaluator that turns to another one elsewhere never does. -/
theorem watched {check : Session → Prop} [DecidablePred check] (hcheck : ∀ s, k.inv s → check s)
    (otherwise : Evaluator) (budget : Nat) :
    k.simulation.Related (Evaluator.watched check otherwise budget)
      (Evaluator.ofBudget budget) := by
  induction budget with
  | zero => exact k.simulation.ofBudget 0
  | succ budget ih =>
    have nested := ih.succ k.simulation budget
    constructor
    · intro e s hs
      have heq : (Evaluator.watched check otherwise (budget + 1)).evaluate e s =
          (Evaluator.watched check otherwise budget).expression budget e s :=
        if_pos (hcheck s hs)
      rw [heq]
      exact nested.evaluate e s hs
    · intro st s hs
      have heq : (Evaluator.watched check otherwise (budget + 1)).execute st s =
          (Evaluator.watched check otherwise budget).statement budget st s :=
        if_pos (hcheck s hs)
      rw [heq]
      exact nested.execute st s hs

theorem call (n budget : Nat) {c : Callable} (hc : P (.function c)) (hargs : ∀ v ∈ args, P v)
    (context : Option AssocRef) (location closing : Location) (hs : k.inv s) :
    k.Ends .expression P s
      ((Evaluator.ofBudget n).call budget c args context location closing s) :=
  (k.simulation.call (k.simulation.ofBudget n) budget hc hargs context location closing s hs).2

/-- The statements of a script and its entry function, under every budget. -/
theorem program (budget : Nat) (statements : List Statement) (hargs : ∀ v ∈ args, P v)
    (hs : k.inv s) : k.Ends .statement P s (Run.program budget statements args s) :=
  (k.simulation.program budget statements hargs s hs).2

/-- How a script ends under a contract. -/
structure ScriptEnds (s : Session) (r : Except ScriptError Finish) (t : Session) : Prop where
  inv : k.inv t
  ends :
    match r with
    | .ok ⟨v, .completed⟩ => P v ∧ k.keep .statement s t
    | .ok ⟨v, .endStatement⟩ => v = .invalid ∧ ∃ location, k.left .statement s (.ending location) t
    | .ok ⟨v, .debugExit⟩ => v = .invalid ∧ ∃ location, k.left .statement s (.debugExit location) t
    | .error e => e.Holds P ∧ k.left .statement s (.error e) t

theorem finish (hsignal : signal.Holds P) (ht : k.inv t) (hleft : k.left .statement s signal t) :
    match Run.finish signal t with
    | .done f u => k.ScriptEnds s (.ok f) u
    | .exit signal' u => k.ScriptEnds s (.error (signal'.toError u)) u
    | .exhausted => False := by
  have escaped (hfinal : signal.isFinal = false) (f : Fault) (location : Location) :
      k.ScriptEnds s (.error (t.traced (.ofFault f location)))
        (t.note (t.traced (.ofFault f location))) := by
    have raised : (ScriptError.ofFault f location).Raised P := .of_extra rfl
    obtain ⟨hinv, hraise⟩ := k.raise raised ht
    exact ⟨hinv, raised.holds, k.trans_left (k.keep_of_left hfinal hleft) (k.left_statement hraise)⟩
  cases signal with
  | returning value? location =>
    have hkeep := k.keep_of_left rfl hleft
    cases value? with
    | none => exact ⟨ht, k.admissible.plain rfl, hkeep⟩
    | some v => exact ⟨ht, hsignal, hkeep⟩
  | ending location | debugExit location => exact ⟨ht, rfl, location, hleft⟩
  | error e => exact ⟨ht, hsignal, hleft⟩
  | _ => exact escaped rfl _ _

/-- Scripts run in the same way under related evaluators, and end as the contract says. -/
theorem script {ev ev' : Evaluator} (h : k.simulation.Related ev ev') (budget : Nat)
    (statements : List Statement) (hargs : ∀ v ∈ args, P v) (hs : k.inv s) :
    ev.script budget statements args s = ev'.script budget statements args s ∧
      match ev.script budget statements args s with
      | .done f t => k.ScriptEnds s (.ok f) t
      | .exit signal t => k.ScriptEnds s (.error (signal.toError t)) t
      | .exhausted => True := by
  obtain ⟨heq, hends⟩ := k.simulation.programOf h
    (k.simulation.invoke h budget fun _ => trivial) statements hargs s hs
  simp only [Evaluator.script, Routine.handle, Routine.bind_apply, ← heq]
  refine ⟨trivial, ?_⟩
  cases hp : ev.program (ev.invoke budget) statements args s with
  | done v t =>
    rw [hp] at hends
    exact ⟨hends.2.1, hends.1, hends.2.2⟩
  | exit signal t =>
    rw [hp] at hends
    have hfinish := k.finish hends.1 hends.2.1 hends.2.2
    dsimp only
    cases hf : Run.finish signal t with
    | exhausted => trivial
    | _ => rw [hf] at hfinish; exact hfinish
  | exhausted => trivial

theorem exec (hargs : ∀ v ∈ args, P v) (hs : k.inv s) {r : Except ScriptError Finish}
    (h : s.exec budget statements args = some (r, t)) : k.ScriptEnds s r t := by
  have hends := (k.script (k.simulation.ofBudget budget) budget statements hargs hs).2
  unfold Session.exec Run.script at h
  cases hscript : (Evaluator.ofBudget budget).script budget statements args s <;>
    rw [hscript] at h hends <;> cases h <;> exact hends

end Contract

end BrightScript
