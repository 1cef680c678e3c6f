import BrightScript.Proofs.Contract

/-!
# Runs that are cut short

Two runs of one thing are compared, of which the second may be ended early. Up to that moment they
are in step, except perhaps for who answers. From there on the second run is left by the signal that
ends it: no loop, `try`, `print` or call keeps the signal, and none does anything on its way that an
order on sessions would see. The first run goes along with the order, so the session that the
second one was ended in is below every later one of the first.
-/

namespace BrightScript

/-! ## Orders on sessions -/

/-- What a `try`, a `print` or a call does to a session around the run inside it. -/
inductive Session.Framed : Session → Session → Prop
  | tried (s : Session) (mode : Bool) : Framed s (s.withTry mode)
  | unhelped (s : Session) : Framed s (Run.withoutHelpers s)
  | rewound (s : Session) (column : Nat) : Framed s { s with column := column }
  | entered (s : Session) (m : AssocRef) (frame? : Option Frame) : Framed s (s.entered m frame?)
  | returned (s t : Session) (frame? : Option Frame) : Framed s (s.returnedTo t frame?)

/-- An order on sessions that all changes go along with, and that does not see what is done around a
run. -/
structure Growth where
  le : Session → Session → Prop
  refl : ∀ s, le s s
  trans : ∀ {s t u}, le s t → le t u → le s u
  update : ∀ {g f}, Update (fun _ => True) True g f → ∀ s, le s (f s)
  serviced : ∀ {s t}, s.Serviced t → le s t
  note : ∀ s e, le s (s.note e)
  framed : ∀ {s t}, s.Framed t → le s t ∧ le t s

namespace Growth

variable (k : Growth)

theorem around {s t u v : Session} (hs : s.Framed t) (h : k.le t u) (hu : u.Framed v) : k.le s v :=
  k.trans (k.framed hs).1 (k.trans h (k.framed hu).1)

/-- Whatever runs, it goes along with the order. -/
def contract : Contract fun _ => True where
  inv _ := True
  keep _ s t := k.le s t
  left _ s _ t := k.le s t
  admissible := .trivial
  holds := fun {s} _ => .trivial s
  refl := k.refl _
  trans := k.trans
  trans_left := k.trans
  keep_statement h := h
  keep_body h := h
  left_statement h := h
  left_body h := h
  keep_of_left _ h := h
  update hf _ := ⟨trivial, k.update hf _⟩
  serviced h _ := ⟨trivial, k.serviced h⟩
  raise _ _ := ⟨trivial, k.note _ _⟩
  stray _ _ _ := k.refl _
  leave _ _ := k.refl _
  quit _ := k.serviced (.disarmed _)
  left_serviced h h' := k.trans h (k.serviced h')
  crash h _ _ := k.trans h (k.serviced (.crashed _ _))
  tried _ := trivial
  untried _ _ := trivial
  keep_untried _ h := k.around (.tried _ _) h (.tried _ _)
  keep_caught _ h := k.around (.tried _ _) h (.tried _ _)
  left_untried _ _ h := k.around (.tried _ _) h (.tried _ _)
  unhelped _ := ⟨trivial, (k.framed (.unhelped _)).1⟩
  left_unhelped h := k.trans h (k.framed (.unhelped _)).1
  rewound _ := trivial
  left_rewound h := k.trans h (k.framed (.rewound _ _)).1
  entered _ _ := trivial
  returnedTo _ _ h := ⟨trivial, k.around (.entered _ _ _) h (.returned _ _ _)⟩
  left_returnedTo _ _ _ h := ⟨trivial, k.around (.entered _ _ _) h (.returned _ _ _)⟩

variable {k}

/-- However a run ended, it went along with the order. -/
theorem of_ends {g : Grade} {α : Type} {Q : α → Prop} {s t : Session}
    {o : Outcome Signal Session α} (h : k.contract.Ends g Q s o) (ho : o.state? = some t) :
    k.le s t := by
  cases o with
  | done | exit => cases ho; exact h.2.2
  | exhausted => cases ho

end Growth

/-! ## Who answers -/

def Session.withSuspension (s : Session) (suspension : Suspension) : Session :=
  { s with suspension := suspension }

theorem Session.suspension_consult (s : Session) (pause : Break) :
    (s.consult pause).2.suspension = s.suspension := by
  rw [Session.consult]
  cases (s.verdict pause).channel <;> rfl

/-- The debugger decides without looking at who answers. -/
theorem Session.consult_withSuspension (s : Session) (x : Suspension) (pause : Break) :
    (s.withSuspension x).consult pause =
      ((s.consult pause).1, (s.consult pause).2.withSuspension x) := by
  have same : (s.withSuspension x).verdict pause = s.verdict pause := rfl
  rw [Session.consult, Session.consult, same]
  obtain ⟨action, debugger, channel, text⟩ := s.verdict pause
  cases channel <;> rfl

/-! ## What comes of outcomes -/

namespace Outcome

variable {ε σ α β : Type}

def inState : Outcome ε σ α → σ → Outcome ε σ α
  | .done a _, t => .done a t
  | .exit e _, t => .exit e t
  | .exhausted, _ => .exhausted

/-- What comes of an outcome, by how the run ended. -/
def andThen : Outcome ε σ α → (α → Routine ε σ β) → (ε → Routine ε σ β) → Outcome ε σ β
  | .done a t, ok, _ => ok a t
  | .exit e t, _, failed => failed e t
  | .exhausted, _, _ => .exhausted

end Outcome

theorem Routine.bind_andThen {ε σ α β : Type} (x : Routine ε σ α) (f : α → Routine ε σ β) (s : σ) :
    (x >>= f) s = (x s).andThen f leave := by
  rw [bind_apply]
  cases x s <;> rfl

theorem Routine.attempt_andThen {ε σ α β : Type} (x : Routine ε σ α)
    (f : Except ε α → Routine ε σ β) (s : σ) :
    (attempt x >>= f) s = (x s).andThen (fun a => f (.ok a)) fun e => f (.error e) := by
  rw [attempt_bind_apply]
  cases x s <;> rfl

theorem Routine.handle_andThen {ε σ α : Type} (x : Routine ε σ α) (handler : ε → Routine ε σ α)
    (s : σ) : handle x handler s = (x s).andThen pure handler := by
  rw [handle]
  cases x s <;> rfl

namespace Run

/-- What a `try` that was started in a session does about the signal that left its block. -/
def untrying (s : Session) (handler : ScriptError → Run Unit) : Signal → Run Unit
  | .error e => fun t => handler e (t.withTry s.tryMode)
  | signal => fun t => .exit signal (t.withTry s.tryMode)

theorem catching_andThen (x : Run Unit) (handler : ScriptError → Run Unit) (s : Session) :
    catching x handler s = (x (s.withTry true)).andThen
      (fun _ t => .done () (t.withTry s.tryMode)) (untrying s handler) := by
  rw [catching]
  rcases x (s.withTry true) with ⟨_, t⟩ | ⟨signal, t⟩ | _
  · rfl
  · cases signal <;> rfl
  · rfl

theorem printing_andThen (x : Run String) (s : Session) :
    printing x s = (x s).andThen (fun line t => .done () ((withoutHelpers t).write .stdout line))
      fun signal t => .exit signal { withoutHelpers t with column := s.column } := by
  rw [printing]
  cases x s <;> rfl

theorem handle_inCall_andThen {α : Type} (m : AssocRef) (frame? : Option Frame) (body : Run α)
    (handler : Signal → Run α) (s : Session) :
    Routine.handle (inCall m frame? body) handler s = (body (s.entered m frame?)).andThen
      (fun v t => .done v (t.returnedTo s frame?))
      fun signal t => handler signal (t.returnedTo s frame?) := by
  rw [handle_inCall_apply]
  cases body (s.entered m frame?) <;> rfl

end Run

/-! ## Two runs in step -/

/-- How two runs are compared of which the second may be ended. -/
structure Interruption where
  growth : Growth
  /-- Who answers in the second run, by who answers in the first. -/
  pairs : Suspension → Suspension → Prop
  /-- The sessions of the first run that are looked at. -/
  counts : Session → Prop
  counts_of_le : ∀ {s t}, growth.le s t → counts t → counts s
  /-- The signals that end the second run, with the sessions that they leave it in. -/
  stops : Signal → Session → Prop
  final : ∀ {signal u}, stops signal u → signal.isFinal = true ∧ ∀ e, signal ≠ .error e
  framed : ∀ {signal u v}, u.Framed v → stops signal u → stops signal v

namespace Interruption

variable (c : Interruption)

/-- Sessions that differ only in who answers. -/
def Paired (s s' : Session) : Prop :=
  ∃ x, c.pairs s.suspension x ∧ s' = s.withSuspension x

/-- How the second run ends, by how the first one did: alike, or by the signal that ends it. -/
def Follows {α : Type} (o o' : Outcome Signal Session α) : Prop :=
  ∀ t, o.state? = some t → c.counts t →
    (∃ t', c.Paired t t' ∧ o' = o.inState t') ∨
      ∃ signal u, o' = .exit signal u ∧ c.stops signal u ∧ c.growth.le u t

/-- Runs that stay in step until the second one is ended. -/
def InStep {α : Type} (x x' : Run α) : Prop :=
  ∀ s s', c.Paired s s' → c.Follows (x s) (x' s')

/-- Runs in step of which the first goes along with the order. -/
def Goes {α : Type} (x x' : Run α) : Prop :=
  (∀ s t, (x s).state? = some t → c.growth.le s t) ∧ c.InStep x x'

/-- Runs in step that the contract of the order speaks of. -/
def Rel {α : Type} (g : Grade) (Q : α → Prop) (x x' : Run α) : Prop :=
  c.growth.contract.Keeps g Q x x ∧ c.InStep x x'

variable {c} {α β : Type}

theorem Rel.goes {g : Grade} {Q : α → Prop} {x x' : Run α} (h : c.Rel g Q x x') : c.Goes x x' :=
  ⟨fun s _ ht => Growth.of_ends (h.1 s trivial).2 ht, h.2⟩

theorem Follows.done {t t' : Session} (h : c.Paired t t') (a : α) :
    c.Follows (.done a t) (.done a t') := by
  intro u hu _
  cases hu
  exact .inl ⟨t', h, rfl⟩

theorem Follows.exit {t t' : Session} (h : c.Paired t t') (signal : Signal) :
    c.Follows (.exit signal t : Outcome Signal Session α) (.exit signal t') := by
  intro u hu _
  cases hu
  exact .inl ⟨t', h, rfl⟩

theorem Follows.exhausted {o : Outcome Signal Session α} : c.Follows .exhausted o := by
  intro u hu
  cases hu

/-- What follows two runs in step is in step, if the signal that ends the second run passes. -/
theorem Follows.andThen {o o' : Outcome Signal Session α} {ok ok' : α → Run β}
    {failed failed' : Signal → Run β} (h : c.Follows o o')
    (hok : ∀ a t, o = .done a t → c.Goes (ok a) (ok' a))
    (hfailed : ∀ signal, c.Goes (failed signal) (failed' signal))
    (hstops : ∀ signal u, c.stops signal u →
      ∃ v, failed' signal u = .exit signal v ∧ c.stops signal v ∧ c.growth.le v u) :
    c.Follows (o.andThen ok failed) (o'.andThen ok' failed') := by
  have hnext {t v : Session} {p : Outcome Signal Session β} (ho : o.state? = some t)
      (hle : c.growth.le t v) (hv : c.counts v) (hp : p.state? = some v)
      (hpaired : ∀ t', c.Paired t t' → c.Follows p ((o.inState t').andThen ok' failed')) :
      (∃ v', c.Paired v v' ∧ o'.andThen ok' failed' = p.inState v') ∨
        ∃ signal u, o'.andThen ok' failed' = .exit signal u ∧ c.stops signal u ∧
          c.growth.le u v := by
    obtain ⟨t', ht', rfl⟩ | ⟨signal, u, rfl, hstop, hle'⟩ := h t ho (c.counts_of_le hle hv)
    · exact hpaired t' ht' v hp hv
    · obtain ⟨w, hw, hstop, hwu⟩ := hstops signal u hstop
      exact .inr ⟨signal, w, hw, hstop, c.growth.trans hwu (c.growth.trans hle' hle)⟩
  intro v hv hcounts
  cases o with
  | done a t =>
    have hgoes := hok a t rfl
    exact hnext rfl (hgoes.1 t v hv) hcounts hv fun t' ht' => hgoes.2 t t' ht'
  | exit signal t =>
    have hgoes := hfailed signal
    exact hnext rfl (hgoes.1 t v hv) hcounts hv fun t' ht' => hgoes.2 t t' ht'
  | exhausted => cases hv

theorem Paired.map {f : Session → Session} {s s' : Session} (h : c.Paired s s')
    (hf : ∀ x, f (s.withSuspension x) = (f s).withSuspension x)
    (hs : (f s).suspension = s.suspension) : c.Paired (f s) (f s') := by
  obtain ⟨x, hx, rfl⟩ := h
  exact ⟨x, hs ▸ hx, hf x⟩

theorem Paired.disarmed {s s' : Session} (h : c.Paired s s') : c.Paired s.disarmed s'.disarmed :=
  h.map (f := Session.disarmed) (fun _ => rfl) rfl

theorem Paired.undebugged {s s' : Session} (h : c.Paired s s') :
    c.Paired { s with debugMode := false } { s' with debugMode := false } :=
  h.map (f := fun s => { s with debugMode := false }) (fun _ => rfl) rfl

namespace InStep

/-- Where the same answers in both runs, every run is in step with itself. -/
theorem refl (hpairs : c.pairs = Eq) (x : Run α) : c.InStep x x := by
  rintro s _ ⟨answers, hanswers, rfl⟩ t ht -
  rw [hpairs] at hanswers
  subst hanswers
  refine .inl ⟨t, ⟨t.suspension, by rw [hpairs], rfl⟩, ?_⟩
  show x s = (x s).inState t
  cases hx : x s with
  | done | exit => rw [hx] at ht; cases ht; rfl
  | exhausted => rfl

theorem pure (a : α) : c.InStep (Pure.pure a) (Pure.pure a) :=
  fun _ _ hs => .done hs a

theorem leave (signal : Signal) :
    c.InStep (Routine.leave signal : Run α) (Routine.leave signal) :=
  fun _ _ hs => .exit hs signal

theorem modify {f : Session → Session}
    (hf : ∀ s x, f (s.withSuspension x) = (f s).withSuspension x)
    (hs : ∀ s, (f s).suspension = s.suspension) :
    c.InStep (Routine.modify f) (Routine.modify f) :=
  fun s _ h => .done (h.map (hf s) (hs s)) ()

theorem raise (e : ScriptError) : c.InStep (Run.raise e : Run α) (Run.raise e) := by
  rintro s _ ⟨x, hx, rfl⟩
  refine .exit ⟨x, ?_, ?_⟩ _
  · unfold Session.note
    split <;> exact hx
  · show (s.withSuspension x).note (s.traced e) = _
    unfold Session.note
    show (if s.tryMode = true then _ else _) = _
    split <;> rfl

theorem quit (location : Location) :
    c.InStep (Run.quit location : Run α) (Run.quit location) :=
  fun _ _ hs => .exit hs.disarmed (.debugExit location)

theorem pauseAt (pause : Break) : c.InStep (Run.pauseAt pause) (Run.pauseAt pause) := by
  rintro s _ ⟨x, hx, rfl⟩
  have hpaired : c.Paired (s.consult pause).2 ((s.consult pause).2.withSuspension x) :=
    ⟨x, (s.suspension_consult pause).symm ▸ hx, rfl⟩
  rw [Run.pauseAt, Routine.bind_apply, Routine.bind_apply, Routine.change, Routine.change,
    Session.consult_withSuspension]
  rcases hc : s.consult pause with ⟨action, t⟩
  rw [hc] at hpaired
  cases action with
  | proceed => exact .done hpaired.undebugged ()
  | step => exact .done hpaired ()
  | exit => exact quit pause.location _ _ hpaired

theorem obey (statement : Statement) (command : Command) :
    c.InStep (Run.obey statement command) (Run.obey statement command) := by
  cases command with
  | proceed => exact pure ()
  | exit => exact quit statement.location
  | pause =>
    intro s s' hs
    have hdebug : c.Paired { s with debugMode := true } { s' with debugMode := true } :=
      hs.map (f := fun s => { s with debugMode := true }) (fun _ => rfl) rfl
    rw [Run.obey, Routine.bind_apply, Routine.bind_apply]
    dsimp only [Routine.modify]
    split
    · exact pure () _ _ hdebug
    · exact pauseAt _ _ _ hdebug

theorem crash (signal : Signal) : c.InStep (Run.crash signal : Run α) (Run.crash signal) := by
  cases signal with
  | error e =>
    rintro s _ ⟨x, hx, rfl⟩
    let pause := s.crashBreak e
    have hpaired : c.Paired (s.disarmed.consult pause).2
        ((s.disarmed.consult pause).2.withSuspension x) :=
      ⟨x, (s.disarmed.suspension_consult pause).symm ▸ hx, rfl⟩
    have hconsult : (s.withSuspension x).disarmed.consult ((s.withSuspension x).crashBreak e) =
        ((s.disarmed.consult pause).1, (s.disarmed.consult pause).2.withSuspension x) :=
      s.disarmed.consult_withSuspension x pause
    rw [Run.crash_error_apply, Run.crash_error_apply, hconsult]
    show c.Follows _ (if Run.crashes s e = true then _ else _)
    split
    · rcases hc : s.disarmed.consult pause with ⟨action, t⟩
      rw [hc] at hpaired
      cases action with
      | proceed => exact .exit hpaired.undebugged _
      | step => exact .exit hpaired _
      | exit => exact .exit hpaired.disarmed _
    · exact .exit ⟨x, hx, rfl⟩ _
  | _ => exact leave _

end InStep

namespace Goes

theorem leave (signal : Signal) : c.Goes (Routine.leave signal : Run α) (Routine.leave signal) :=
  ⟨fun s t ht => by cases ht; exact c.growth.refl s, .leave signal⟩

theorem pure (a : α) : c.Goes (Pure.pure a) (Pure.pure a) :=
  ⟨fun s t ht => by cases ht; exact c.growth.refl s, .pure a⟩

theorem raise (e : ScriptError) : c.Goes (Run.raise e : Run α) (Run.raise e) :=
  ⟨fun s t ht => by cases ht; exact c.growth.note s _, .raise e⟩

theorem crash (signal : Signal) : c.Goes (Run.crash signal : Run α) (Run.crash signal) :=
  ⟨fun _ _ ht => c.growth.serviced (Run.serviced_crash ht), .crash signal⟩

theorem leaveCall (returns : Kind) (signal : Signal) :
    c.Goes (Run.leaveCall returns signal) (Run.leaveCall returns signal) := by
  rcases Run.leaveCall_cases returns signal with ⟨-, heq⟩ | ⟨-, ⟨v, heq⟩ | ⟨e, heq⟩⟩ <;> rw [heq]
  · exact leave signal
  · exact pure v
  · exact raise e

/-- Runs that go on in another session, which the order does not tell from the one they are in. -/
theorem comap {x x' : Run α} (h : c.Goes x x') {f : Session → Session}
    (hf : ∀ s x, f (s.withSuspension x) = (f s).withSuspension x)
    (hs : ∀ s, (f s).suspension = s.suspension) (hle : ∀ s, c.growth.le s (f s)) :
    c.Goes (fun s => x (f s)) fun s => x' (f s) :=
  ⟨fun s t ht => c.growth.trans (hle s) (h.1 (f s) t ht),
    fun s _ hpaired => h.2 _ _ (hpaired.map (hf s) (hs s))⟩

theorem untried {x x' : Run α} (h : c.Goes x x') (mode : Bool) :
    c.Goes (fun t => x (t.withTry mode)) fun t => x' (t.withTry mode) :=
  h.comap (f := (·.withTry mode)) (fun _ _ => rfl) (fun _ => rfl)
    fun s => (c.growth.framed (.tried s mode)).1

theorem returned {x x' : Run α} (h : c.Goes x x') (s : Session) (frame? : Option Frame) :
    c.Goes (fun t => x (t.returnedTo s frame?)) fun t => x' (t.returnedTo s frame?) :=
  h.comap (f := (·.returnedTo s frame?)) (fun _ _ => rfl) (fun _ => rfl)
    fun t => (c.growth.framed (.returned t s frame?)).1

end Goes

namespace Rel

variable {g : Grade} {Q : α → Prop} {R : β → Prop}

theorem bind {x x' : Run α} {f f' : α → Run β} (hx : c.Rel g Q x x')
    (hf : ∀ a, Q a → c.Rel g R (f a) (f' a)) : c.Rel g R (x >>= f) (x' >>= f') := by
  refine ⟨hx.1.bind fun a ha => (hf a ha).1, fun s s' hs => ?_⟩
  have hends := (hx.1 s trivial).2
  rw [Routine.bind_andThen, Routine.bind_andThen]
  refine (hx.2 s s' hs).andThen (fun a t heq => ?_) .leave
    fun signal u hu => ⟨u, rfl, hu, c.growth.refl u⟩
  rw [heq] at hends
  exact (hf a hends.1).goes

theorem intercept {x x' : Run α} {f f' : Except Signal α → Run β} (hx : c.Rel g Q x x')
    (hok : ∀ a, Q a → c.Rel g R (f (.ok a)) (f' (.ok a)))
    (hjump : ∀ signal, signal.isJump = true → c.Rel g R (f (.error signal)) (f' (.error signal)))
    (hrest : ∀ signal, signal.isJump = false → f (.error signal) = Routine.leave signal ∧
      f' (.error signal) = Routine.leave signal) :
    c.Rel g R (Routine.attempt x >>= f) (Routine.attempt x' >>= f') := by
  refine ⟨hx.1.intercept (fun a ha => (hok a ha).1) (fun signal hj => (hjump signal hj).1)
    fun signal hj => ⟨(hrest signal hj).1, (hrest signal hj).1⟩, fun s s' hs => ?_⟩
  have hends := (hx.1 s trivial).2
  rw [Routine.attempt_andThen, Routine.attempt_andThen]
  refine (hx.2 s s' hs).andThen (fun a t heq => ?_) (fun signal => ?_) fun signal u hu => ?_
  · rw [heq] at hends
    exact (hok a hends.1).goes
  · cases hj : signal.isJump with
    | true => exact (hjump signal hj).goes
    | false =>
      rw [(hrest signal hj).1, (hrest signal hj).2]
      exact .leave signal
  · -- the signal that ends the second run is no jump
    refine ⟨u, ?_, hu, c.growth.refl u⟩
    cases hj : signal.isJump with
    | true => exact absurd (c.final hu).1 (by rw [Signal.isFinal_of_isJump hj]; decide)
    | false => exact congrFun (hrest signal hj).2 u

theorem catching {x x' : Run Unit} {handler handler' : ScriptError → Run Unit}
    (hx : c.Rel .statement (fun _ => True) x x')
    (hh : ∀ e, c.Rel .statement (fun _ => True) (handler e) (handler' e)) :
    c.Rel .statement (fun _ => True) (Run.catching x handler) (Run.catching x' handler') := by
  refine ⟨hx.1.catching fun e _ => (hh e).1, ?_⟩
  rintro s _ ⟨y, hy, rfl⟩
  have hfollows : c.Follows (x (s.withTry true)) (x' ((s.withSuspension y).withTry true)) :=
    hx.2 _ _ ⟨y, hy, rfl⟩
  rw [Run.catching_andThen, Run.catching_andThen]
  refine hfollows.andThen (fun a _ _ => (Goes.pure ()).untried s.tryMode)
    (fun signal => ?_) fun signal u hu => ?_
  · cases signal with
    | error e => exact (hh e).goes.untried s.tryMode
    | _ => exact (Goes.leave _).untried s.tryMode
  · refine ⟨u.withTry s.tryMode, ?_, c.framed (.tried u _) hu,
      (c.growth.framed (.tried u s.tryMode)).2⟩
    cases signal with
    | error e => exact absurd rfl ((c.final hu).2 e)
    | _ => rfl

theorem printing {x x' : Run String} (hx : c.Rel .statement (fun _ => True) x x') :
    c.Rel .statement (fun _ => True) (Run.printing x) (Run.printing x') := by
  refine ⟨hx.1.printing, ?_⟩
  rintro s _ ⟨y, hy, rfl⟩
  have hrewound (t : Session) :
      c.growth.le t { Run.withoutHelpers t with column := s.column } ∧
        c.growth.le { Run.withoutHelpers t with column := s.column } t := by
    have hunhelped := c.growth.framed (.unhelped t)
    have hcolumn := c.growth.framed (.rewound (Run.withoutHelpers t) s.column)
    exact ⟨c.growth.trans hunhelped.1 hcolumn.1, c.growth.trans hcolumn.2 hunhelped.2⟩
  rw [Run.printing_andThen, Run.printing_andThen]
  refine (hx.2 _ _ ⟨y, hy, rfl⟩).andThen (fun line _ _ => ?_) (fun signal => ?_)
    fun signal u hu => ⟨_, rfl, c.framed (.rewound _ _) (c.framed (.unhelped u) hu),
      (hrewound u).2⟩
  · exact (Goes.pure ()).comap (f := fun t => (Run.withoutHelpers t).write .stdout line)
      (fun _ _ => rfl) (fun _ => rfl) fun t =>
        c.growth.trans (c.growth.framed (.unhelped t)).1 (c.growth.serviced (.write _ _ _))
  · exact (Goes.leave signal).comap
      (f := fun t => { Run.withoutHelpers t with column := s.column }) (fun _ _ => rfl)
      (fun _ => rfl) fun t => (hrewound t).1

theorem crashing {x x' : Run α} (hx : c.Rel g Q x x') :
    c.Rel g Q (Routine.handle x Run.crash) (Routine.handle x' Run.crash) := by
  refine ⟨hx.1.crashing, fun s s' hs => ?_⟩
  rw [Routine.handle_andThen, Routine.handle_andThen]
  refine (hx.2 s s' hs).andThen (fun a _ _ => .pure a) .crash fun signal u hu =>
    ⟨u, ?_, hu, c.growth.refl u⟩
  cases signal with
  | error e => exact absurd rfl ((c.final hu).2 e)
  | _ => rfl

theorem calling {frame? : Option Frame} {returns : Kind} {context : Option AssocRef}
    {call : Location} {x x' : Run Value} (hx : c.Rel .body (fun _ => True) x x') :
    c.Rel .expression (fun _ => True) (Run.calling frame? returns context call x)
      (Run.calling frame? returns context call x') := by
  refine ⟨hx.1.calling, ?_⟩
  rintro s _ ⟨y, hy, rfl⟩
  unfold Run.calling
  show c.Follows _ (if (frame?.isSome && s.isFull) = true then _ else _)
  split
  · exact InStep.raise _ _ _ ⟨y, hy, rfl⟩
  have hfollows (m : AssocRef) :
      c.Follows (x (s.entered m frame?)) (x' ((s.withSuspension y).entered m frame?)) :=
    hx.2 _ _ ⟨y, hy, rfl⟩
  rw [Run.handle_inCall_andThen, Run.handle_inCall_andThen]
  refine (hfollows _).andThen (fun v _ _ => (Goes.pure v).returned s frame?)
    (fun signal => (Goes.leaveCall returns signal).returned s frame?) fun signal u hu => ?_
  have hframed : u.Framed (u.returnedTo s frame?) := .returned u s frame?
  refine ⟨u.returnedTo s frame?, ?_, c.framed hframed hu, (c.growth.framed hframed).2⟩
  rcases Run.leaveCall_cases returns signal with ⟨-, heq⟩ | ⟨hfinal, -⟩
  · exact congrFun heq _
  · exact absurd (c.final hu).1 (by rw [hfinal]; decide)

end Rel

/-- Two runs of anything are in step until the second one is ended, if they are at every pause. -/
def simulation (c : Interruption)
    (hcheckpoint : ∀ st, c.InStep (Run.checkpoint st) (Run.checkpoint st)) :
    Simulation fun _ => True where
  rel g _ Q x x' := c.Rel g Q x x'
  admissible := .trivial
  ofExpression h := ⟨h.1.ofExpression, h.2⟩
  ofStatement h := ⟨h.1.ofStatement, h.2⟩
  ret h := ⟨.pure h, .pure _⟩
  bind := .bind
  giveUp := ⟨c.growth.contract.simulation.giveUp, fun _ _ _ => .exhausted⟩
  view f hf := by
    refine ⟨c.growth.contract.simulation.view f hf, ?_⟩
    rintro s _ ⟨x, hx, rfl⟩
    exact .done ⟨x, hx, rfl⟩ (f s.core)
  update hf := by
    refine ⟨c.growth.contract.simulation.update hf, ?_⟩
    cases hf <;> exact .modify (fun _ _ => rfl) fun _ => rfl
  raise he := ⟨.raise he, .raise _⟩
  stray := fun {_ _ i _ _ context} hm hr => by
    refine ⟨@Contract.Keeps.stray _ _ _ _ _ i _ _ context hm hr, ?_⟩
    rintro s _ ⟨x, hx, rfl⟩
    exact .exit ⟨x, hx, rfl⟩ _
  jump hj := ⟨c.growth.contract.simulation.jump hj, .leave _⟩
  ending := ⟨c.growth.contract.simulation.ending, .leave _⟩
  returning hv := ⟨c.growth.contract.simulation.returning hv, .leave _⟩
  intercept := .intercept
  checkpoint statement := ⟨.checkpoint statement, hcheckpoint statement⟩
  catching hx hh := hx.catching fun e => hh e fun _ _ => trivial
  printing := .printing
  crashing := .crashing
  calling := .calling

end Interruption

end BrightScript
