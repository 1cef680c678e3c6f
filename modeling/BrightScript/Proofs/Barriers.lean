import BrightScript.Proofs.Contract

/-!
# Runs that give up at a moment

To say that something happens in a run, the run is compared with one that gives up where it happens:
the two are the same exactly if it does not. A barrier says what becomes of a run from such a moment
on, namely which signal leaves it and in which sessions. Everything that a signal passes on its way
keeps this relation, and the rules of the language do (`Walk.barred`), up to the construct that the
signal ends at.
-/

namespace BrightScript

/-- What becomes of a run from the moment on at which another one gives up. -/
structure Barrier where
  /-- How the run is left. -/
  left : Signal → Session → Prop
  /-- The signals that leave a run in no other way. -/
  marks : Signal → Prop
  of_marks : ∀ {signal}, marks signal → ∃ value? location, signal = .returning value? location
  not_jump : ∀ {signal t}, left signal t → signal.isJump = false
  /-- What a `print` does to the session on the way. -/
  printed : ∀ {signal t column}, left signal t →
    left signal { Run.withoutHelpers t with column := column }

namespace Barrier

variable (b : Barrier) {α β : Type}

/-- An outcome that does not come from the moment. -/
def Passed (o : Outcome Signal Session α) : Prop :=
  ∀ signal t, o = .exit signal t → ¬ b.marks signal

/-- Two outcomes of which the first is the second one, or the second one comes from the moment at
which the first one gave up. -/
def Bars (o o' : Outcome Signal Session α) : Prop :=
  (o = o' ∧ b.Passed o') ∨ (o = .exhausted ∧ ∃ signal t, o' = .exit signal t ∧ b.left signal t)

variable {b}

theorem passed_done (a : α) (t : Session) : b.Passed (.done a t) :=
  fun _ _ h => by cases h

theorem passed_exhausted : b.Passed (.exhausted : Outcome Signal Session α) :=
  fun _ _ h => by cases h

theorem passed_exit {signal : Signal} (h : ∀ value? location, signal ≠ .returning value? location)
    (t : Session) : b.Passed (.exit signal t : Outcome Signal Session α) := by
  intro signal' t' heq hmarks
  cases heq
  obtain ⟨value?, location, rfl⟩ := b.of_marks hmarks
  exact h value? location rfl

theorem passed_of_isJump {signal : Signal} (h : signal.isJump = true) (t : Session) :
    b.Passed (.exit signal t : Outcome Signal Session α) := by
  refine passed_exit ?_ t
  rintro value? location rfl
  cases h

/-- An outcome that does not come from the moment is only related to itself. -/
theorem Bars.refl {o : Outcome Signal Session α} (h : b.Passed o) : b.Bars o o :=
  .inl ⟨rfl, h⟩

theorem Bars.bind {x x' : Run α} {f f' : α → Run β} {s : Session} (hx : b.Bars (x s) (x' s))
    (hf : ∀ a t, x' s = .done a t → b.Bars (f a t) (f' a t)) :
    b.Bars ((x >>= f) s) ((x' >>= f') s) := by
  rw [Routine.bind_apply, Routine.bind_apply]
  obtain ⟨heq, hpassed⟩ | ⟨heq, signal, t, hleft, hsignal⟩ := hx
  · rw [heq]
    cases hxs : x' s with
    | done a t => exact hf a t hxs
    | exit signal t => exact .refl fun _ _ h => hpassed _ _ (hxs.trans (by cases h; rfl))
    | exhausted => exact .refl passed_exhausted
  · rw [heq, hleft]
    exact .inr ⟨rfl, signal, t, rfl, hsignal⟩

theorem Bars.intercept {x x' : Run α} {f f' : Except Signal α → Run β} {s : Session}
    (hx : b.Bars (x s) (x' s))
    (hok : ∀ a t, x' s = .done a t → b.Bars (f (.ok a) t) (f' (.ok a) t))
    (hjump : ∀ signal t, x' s = .exit signal t → signal.isJump = true →
      b.Bars (f (.error signal) t) (f' (.error signal) t))
    (hrest : ∀ signal, signal.isJump = false → f (.error signal) = Routine.leave signal ∧
      f' (.error signal) = Routine.leave signal) :
    b.Bars ((Routine.attempt x >>= f) s) ((Routine.attempt x' >>= f') s) := by
  rw [Routine.attempt_bind_apply, Routine.attempt_bind_apply]
  obtain ⟨heq, hpassed⟩ | ⟨heq, signal, t, hleft, hsignal⟩ := hx
  · rw [heq]
    cases hxs : x' s with
    | done a t => exact hok a t hxs
    | exit signal t =>
      cases hj : signal.isJump with
      | true => exact hjump signal t hxs hj
      | false =>
        dsimp only
        rw [(hrest signal hj).1, (hrest signal hj).2]
        exact .refl fun _ _ h => hpassed _ _ (hxs.trans (by cases h; rfl))
    | exhausted => exact .refl passed_exhausted
  · rw [heq, hleft]
    dsimp only
    rw [(hrest signal (b.not_jump hsignal)).2]
    exact .inr ⟨rfl, signal, t, rfl, hsignal⟩

theorem Bars.printing {x x' : Run String} {s : Session} (hx : b.Bars (x s) (x' s)) :
    b.Bars (Run.printing x s) (Run.printing x' s) := by
  rw [Run.printing, Run.printing]
  obtain ⟨heq, hpassed⟩ | ⟨heq, signal, t, hleft, hsignal⟩ := hx
  · rw [heq]
    cases hxs : x' s with
    | done line t => exact .refl (passed_done _ _)
    | exit signal t =>
      refine .refl fun signal' t' h => ?_
      cases h
      exact hpassed signal t hxs
    | exhausted => exact .refl passed_exhausted
  · rw [heq, hleft]
    exact .inr ⟨rfl, signal, _, rfl, b.printed hsignal⟩

theorem passed_checkpoint (statement : Statement) (s : Session) :
    b.Passed (Run.checkpoint statement s) := by
  obtain ⟨t, ht, -⟩ | ⟨location, t, ht, -⟩ := Run.checkpoint_cases statement s
  · rw [ht]
    exact passed_done _ _
  · rw [ht]
    exact passed_exit (fun _ _ h => by cases h) t

end Barrier

/-- Runs under a contract, of which the first gives up at a moment that the second goes on from. -/
def Walk.barred {P : Value → Prop} (k : Contract P) (b : Barrier) : Walk P where
  rel g _ Q x x' := k.Keeps g Q x' x' ∧ ∀ s, k.inv s → b.Bars (x s) (x' s)
  admissible := k.admissible
  ofExpression h := ⟨h.1.ofExpression, h.2⟩
  ofStatement h := ⟨h.1.ofStatement, h.2⟩
  ret ha := ⟨.pure ha, fun _ _ => .refl (Barrier.passed_done _ _)⟩
  bind hx hf := by
    refine ⟨hx.1.bind fun a ha => (hf a ha).1, fun s hs => (hx.2 s hs).bind fun a t hxs => ?_⟩
    have hends := (hx.1 s hs).2
    rw [hxs] at hends
    exact (hf a hends.1).2 t hends.2.1
  giveUp := ⟨k.simulation.giveUp, fun _ _ => .refl Barrier.passed_exhausted⟩
  view f hf := ⟨k.simulation.view f hf, fun _ _ => .refl (Barrier.passed_done _ _)⟩
  update hf := ⟨k.simulation.update hf, fun _ _ => .refl (Barrier.passed_done _ _)⟩
  raise he := ⟨k.simulation.raise he,
    fun _ _ => .refl (Barrier.passed_exit (fun _ _ h => by cases h) _)⟩
  stray := fun {_ _ i _ _ context} hm hr =>
    ⟨@Contract.Keeps.stray _ _ _ _ _ i _ _ context hm hr,
      fun _ _ => .refl (Barrier.passed_exit (fun _ _ h => by cases h) _)⟩
  jump hj := ⟨k.simulation.jump hj, fun _ _ => .refl (Barrier.passed_of_isJump hj _)⟩
  ending := ⟨k.simulation.ending,
    fun _ _ => .refl (Barrier.passed_exit (fun _ _ h => by cases h) _)⟩
  intercept hx hok hjump hrest := by
    refine ⟨hx.1.intercept (fun a ha => (hok a ha).1) (fun signal hj => (hjump signal hj).1)
      fun signal hj => ⟨(hrest signal hj).2, (hrest signal hj).2⟩, fun s hs => ?_⟩
    have hends := (hx.1 s hs).2
    refine (hx.2 s hs).intercept ?_ ?_ hrest
    · intro a t hxs
      rw [hxs] at hends
      exact (hok a hends.1).2 t hends.2.1
    · intro signal t hxs hj
      rw [hxs] at hends
      exact (hjump signal hj).2 t hends.2.1
  checkpoint statement :=
    ⟨k.simulation.checkpoint statement, fun s _ => .refl (Barrier.passed_checkpoint statement s)⟩
  printing hx := ⟨hx.1.printing, fun s hs => (hx.2 s hs).printing⟩

end BrightScript
