import BrightScript.Proofs.CappedArrays
import BrightScript.Proofs.Stored

/-!
# Simulations

A simulation relates two runs of the same part of a script, say under two suspension providers, or
under two evaluators that differ in states which are never reached. A run related to itself is a run
with a property. The fields of `Simulation` ask that the relation is kept by every construct the
rules of the language are written with; the rules themselves then keep it, for each form of
expression and statement (`Simulation.expression`, `Simulation.statement` in the modules below this
one), and by induction on the budget so does evaluation.

A `Walk` asks less: nothing about the constructs that signals end at. It is for relations that hold
only inside one call or one `try`. The rules of all other forms keep it already.

Runs are graded by what they are part of. A run of an expression does less than a run of a
statement: it binds no names and jumps nowhere. A run of a whole body does more: it starts to look
for a label.

Results are related by equality, under a predicate on results. The parameter `P` of a simulation is
an admissible predicate on values that all stored values and all results satisfy. If `lax` fails then
the relation is about runs that do not grow arrays without a check.
-/

namespace BrightScript

/-- What a run is part of. -/
inductive Grade where
  | expression
  | statement
  | body

/-- What the rules of the language read of a session. The rest is read only by the debugger, by the
host, and where errors are recorded. -/
structure Core where
  heap : Heap
  scopes : Scopes
  stack : List Frame
  location : Location
  tryMode : Bool
  column : Nat
  clock : Nat → Int
  resumeAt : Option Nat
  maxCallDepth : Nat
  entryPoint : Bool
  nextIdentity : Nat

def Session.core (s : Session) : Core :=
  ⟨s.heap, s.scopes, s.stack, s.location, s.tryMode, s.column, s.clock, s.resumeAt,
    s.options.maxCallDepth, s.options.entryPoint, s.nextIdentity⟩

/-- A declaration either changes nothing or adds to what the script declares. -/
theorem Scopes.declare_cases (s : Scopes) (name : Identifier) (body : Procedure) :
    s.declare name body = s ∨
      Text.fold name.name ∉ s.modules ∧
        s.declare name body = s.defineModule name.name
          (.function (.ofDeclaration name.name body)) (some body.location) := by
  by_cases h : Text.fold name.name ∈ s.modules
  · exact .inl (if_pos h)
  · exact .inr ⟨h, if_neg h⟩

/-- The changes that the rules make to a session in one go, by what makes them. Pauses, calls, `try`
and `print` are not among them: they are runs around runs. -/
inductive Update (P : Value → Prop) (lax : Prop) : Grade → (Session → Session) → Prop
  | heap {f : Heap → Heap} (hf : ∀ h, h.Holds P → (f h).Holds P) (hm : lax ∨ Heap.Mild f) :
      Update P lax .expression fun s => { s with heap := f s.heap }
  | location (l : Location) : Update P lax .expression fun s => { s with location := l }
  | identity : Update P lax .expression fun s => { s with nextIdentity := s.nextIdentity + 1 }
  | readClock : Update P lax .expression fun s => { s with clock := fun n => s.clock (n + 1) }
  | complain (text : String) : Update P lax .expression fun s => s.write .stderr text
  | bind (name : String) {v : Value} (hv : P v) :
      Update P lax .statement fun s => { s with scopes := s.scopes.bind name v }
  | declare {name : Identifier} {body : Procedure} (hname : name.isReserved = false)
      (hv : P (.function (.ofDeclaration name.name body))) (hm : Text.fold name.name ≠ "m") :
      Update P lax .statement fun s => { s with scopes := s.scopes.declare name body }
  | arrive : Update P lax .statement fun s => { s with scopes := s.scopes.setPending none }
  | resume (next : Option Nat) : Update P lax .statement fun s => { s with resumeAt := next }
  | advance (text : String) : Update P lax .statement fun s => s.advance text
  | debug : Update P lax .statement fun s => { s with debugMode := true }
  | seek (label : String) :
      Update P lax .body fun s => { s with scopes := s.scopes.setPending (some label) }

/-- Whether a signal is a jump: the end of a loop or of a pass, or a `goto`. -/
def Signal.isJump : Signal → Bool
  | .exitFor _ | .exitWhile _ | .continueFor _ | .continueWhile _ | .goto .. => true
  | _ => false

namespace Run

/-- What is done about the signal that leaves a call is done after the call. -/
theorem handle_inCall_apply {α : Type} (m : AssocRef) (frame? : Option Frame) (body : Run α)
    (handler : Signal → Run α) (s : Session) :
    Routine.handle (inCall m frame? body) handler s =
      match body (s.entered m frame?) with
      | .done v t => .done v (t.returnedTo s frame?)
      | .exit signal t => handler signal (t.returnedTo s frame?)
      | .exhausted => .exhausted := by
  rw [Routine.handle, inCall, Routine.closing]
  cases body (s.entered m frame?) <;> rfl

end Run

def Outcome.state? {ε σ α : Type} : Outcome ε σ α → Option σ
  | .done _ t | .exit _ t => some t
  | .exhausted => none

/-- What follows an attempt is told how it ended. -/
theorem Routine.attempt_bind_apply {ε σ α β : Type} (x : Routine ε σ α)
    (f : Except ε α → Routine ε σ β) (s : σ) :
    (attempt x >>= f) s =
      match x s with
      | .done a t => f (.ok a) t
      | .exit e t => f (.error e) t
      | .exhausted => .exhausted := by
  rw [bind_apply, attempt]
  cases x s <;> rfl

namespace Evaluator

variable (ev : Evaluator)

theorem isSome_frameOf? (c : Callable) (signature : Signature) (call : Location) :
    (frameOf? c signature call).isSome = c.target.isProcedure := by
  rw [frameOf?]
  cases c.target <;> rfl

/-- A call whose arguments satisfy a signature. -/
theorem call_of_satisfied {c : Callable} {args : List Value} {chosen : Satisfied}
    (h : firstSatisfied args 0 c.overloads = some chosen) (budget : Nat)
    (context : Option AssocRef) (location closing : Location) :
    ev.call budget c args context location closing =
      Run.calling (frameOf? c chosen.signature location) chosen.signature.returns context location
        (Routine.handle (ev.invoke budget c.target chosen.args) Run.crash) := by
  rw [call, Run.call, Run.dispatch, h]

end Evaluator

/-- A change with a result is a view followed by a change without one. -/
theorem Routine.change_eq {ε σ α : Type} (a : σ → α) (f : σ → σ) :
    (change fun s => (a s, f s) : Routine ε σ α) =
      view a >>= fun v => modify f >>= fun _ => pure v :=
  rfl

/-- A relation between runs, by grade and under a predicate on results, that is kept by every
construct the rules of the language are written with, but for those that a signal ends at: a
`return`, a `try` and a call. -/
structure Walk (P : Value → Prop) (lax : Prop := True) where
  rel : Grade → ∀ {α : Type}, (α → Prop) → Run α → Run α → Prop
  admissible : Admissible P
  ofExpression : ∀ {α : Type} {Q : α → Prop} {x x' : Run α},
    rel .expression Q x x' → rel .statement Q x x'
  ofStatement : ∀ {α : Type} {Q : α → Prop} {x x' : Run α},
    rel .statement Q x x' → rel .body Q x x'
  ret : ∀ {α : Type} {Q : α → Prop} {a : α}, Q a → rel .expression Q (pure a) (pure a)
  bind : ∀ {g : Grade} {α β : Type} {Q : α → Prop} {R : β → Prop} {x x' : Run α}
    {f f' : α → Run β}, rel g Q x x' → (∀ a, Q a → rel g R (f a) (f' a)) →
      rel g R (x >>= f) (x' >>= f')
  giveUp : ∀ {α : Type} {Q : α → Prop}, rel .expression Q Routine.giveUp Routine.giveUp
  view : ∀ {α : Type} {Q : α → Prop} (f : Core → α), (∀ s : Session, s.Holds P → Q (f s.core)) →
    rel .expression Q (Routine.view fun s => f s.core) (Routine.view fun s => f s.core)
  update : ∀ {g : Grade} {f : Session → Session}, Update P lax g f →
    rel g (fun _ => True) (Routine.modify f) (Routine.modify f)
  raise : ∀ {α : Type} {Q : α → Prop} {e : ScriptError}, e.Raised P →
    rel .expression Q (Run.raise e) (Run.raise e)
  /-- A method on an object of another component, if `P` allows it. -/
  stray : ∀ {α : Type} {Q : α → Prop} {i : Identity} {m : Method} {receiver : Value}
    {context : Option AssocRef}, P (.function ⟨i, .method m receiver, context⟩) →
      receiver.component? ≠ some m.component →
        rel .expression Q (Library.wrongReceiver m.component receiver)
          (Library.wrongReceiver m.component receiver)
  jump : ∀ {α : Type} {Q : α → Prop} {signal : Signal}, signal.isJump = true →
    rel .statement Q (Routine.leave signal) (Routine.leave signal)
  ending : ∀ {α : Type} {Q : α → Prop} {location : Location},
    rel .statement Q (Routine.leave (.ending location)) (Routine.leave (.ending location))
  /-- A run whose jumps are looked at, all other signals being passed on. -/
  intercept : ∀ {g : Grade} {α β : Type} {Q : α → Prop} {R : β → Prop} {x x' : Run α}
    {f f' : Except Signal α → Run β}, rel g Q x x' →
      (∀ a, Q a → rel g R (f (.ok a)) (f' (.ok a))) →
      (∀ signal, signal.isJump = true → rel g R (f (.error signal)) (f' (.error signal))) →
      (∀ signal, signal.isJump = false → f (.error signal) = Routine.leave signal ∧
        f' (.error signal) = Routine.leave signal) →
      rel g R (Routine.attempt x >>= f) (Routine.attempt x' >>= f')
  checkpoint : ∀ statement : Statement,
    rel .statement (fun _ => True) (Run.checkpoint statement) (Run.checkpoint statement)
  printing : ∀ {x x' : Run String}, rel .statement (fun _ => True) x x' →
    rel .statement (fun _ => True) (Run.printing x) (Run.printing x')

/-- A relation between runs that is kept by every construct. -/
structure Simulation (P : Value → Prop) (lax : Prop := True) extends Walk P lax where
  returning : ∀ {α : Type} {Q : α → Prop} {value? : Option Value} {location : Location},
    (∀ v, value? = some v → P v) →
      rel .statement Q (Routine.leave (.returning value? location))
        (Routine.leave (.returning value? location))
  catching : ∀ {x x' : Run Unit} {h h' : ScriptError → Run Unit},
    rel .statement (fun _ => True) x x' →
      (∀ e : ScriptError, e.Holds P → rel .statement (fun _ => True) (h e) (h' e)) →
      rel .statement (fun _ => True) (Run.catching x h) (Run.catching x' h')
  crashing : ∀ {g : Grade} {α : Type} {Q : α → Prop} {x x' : Run α}, rel g Q x x' →
    rel g Q (Routine.handle x Run.crash) (Routine.handle x' Run.crash)
  calling : ∀ {frame? : Option Frame} {returns : Kind} {context : Option AssocRef}
    {call : Location} {x x' : Run Value}, rel .body P x x' →
      rel .expression P (Run.calling frame? returns context call x)
        (Run.calling frame? returns context call x')

namespace Walk

variable {P : Value → Prop} {lax : Prop} (sim : Walk P lax)

/-- Two runs of a statement are related, whatever their results are. -/
abbrev performs {α : Type} (x x' : Run α) : Prop :=
  sim.rel .statement (fun _ => True) x x'

/-- Two evaluators that do related things with every expression and every statement. -/
structure Related (ev ev' : Evaluator) : Prop where
  evaluate : ∀ e : Expr, sim.rel .expression P (ev.evaluate e) (ev'.evaluate e)
  execute : ∀ s : Statement, sim.performs (ev.execute s) (ev'.execute s)

/-! ## Derived constructs -/

variable {g : Grade} {α β : Type} {Q : α → Prop} {R : β → Prop}

theorem lift {x x' : Run α} (h : sim.rel .expression Q x x') : sim.rel g Q x x' := by
  cases g with
  | expression => exact h
  | statement => exact sim.ofExpression h
  | body => exact sim.ofStatement (sim.ofExpression h)

/-- A run of an expression followed by something of any grade. -/
theorem first {x x' : Run α} {f f' : α → Run β} (hx : sim.rel .expression Q x x')
    (hf : ∀ a, Q a → sim.rel g R (f a) (f' a)) : sim.rel g R (x >>= f) (x' >>= f') :=
  sim.bind (sim.lift hx) hf

theorem done {a : α} (h : Q a) : sim.rel g Q (pure a) (pure a) :=
  sim.lift (sim.ret h)

theorem weaken {Q' : α → Prop} {x x' : Run α} (h : sim.rel g Q x x')
    (hQ : ∀ a, Q a → Q' a) : sim.rel g Q' x x' := by
  have hb := sim.bind h fun a ha => sim.done (hQ a ha)
  rwa [bind_pure, bind_pure] at hb

theorem fault {f : Fault} {location : Location} :
    sim.rel g Q (Run.fault f location) (Run.fault f location) :=
  sim.lift (sim.raise (.of_extra rfl))

theorem faultHere {f : Fault} : sim.rel g Q (Run.faultHere f) (Run.faultHere f) :=
  sim.first (sim.view (Q := fun _ => True) Core.location fun _ _ => trivial) fun _ _ => sim.fault

/-- An error without members of its own, as all but thrown ones are. -/
theorem error {e : ScriptError} (he : e.extra = []) : sim.rel g Q (Run.raise e) (Run.raise e) :=
  sim.lift (sim.raise (.of_extra he))

theorem moveTo {location : Location} :
    sim.rel g (fun _ => True) (Run.moveTo location) (Run.moveTo location) :=
  sim.lift (sim.update (.location location))

/-- A repeated step keeps the relation if the step does. -/
theorem iterate {Inv : β → Prop} {step step' : β → Run (β ⊕ α)}
    (hstep : ∀ b, Inv b → sim.rel g (Sum.elim Inv Q) (step b) (step' b)) (budget : Nat) {b : β}
    (hb : Inv b) :
    sim.rel g Q (Routine.iterate step budget b) (Routine.iterate step' budget b) := by
  induction budget generalizing b with
  | zero => exact sim.lift sim.giveUp
  | succ budget ih =>
    rw [Routine.iterate_succ_eq, Routine.iterate_succ_eq]
    refine sim.bind (hstep b hb) fun r hr => ?_
    cases r with
    | inl b' => exact ih hr
    | inr a => exact sim.done hr

end Walk

end BrightScript
