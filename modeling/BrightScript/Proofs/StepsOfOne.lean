import Mathlib.Data.List.Forall2
import BrightScript.Proofs.Budgets
import BrightScript.Proofs.DeclarationOrder
import BrightScript.Syntax.Statement

/-!
# Steps of one

A step of one on a target does what adding one to the target and storing the sum does. The two
statements read the target with the same evaluations and store in it with the same evaluations, and
they end alike: both in the same session, or both with an error of the same number.

What they are apart in is the place that is being worked on, so runs are compared that start in any
two places (`Run.Alike`). The sum is an expression of its own, so the second statement nests its
target one level deeper and may need one more level of the budget (`Run.EndAlike`). The evaluations
are made visible by evaluators that write a mark for every expression they come to
(`Evaluator.marking`).
-/

namespace BrightScript

/-! ## Outcomes that are alike -/

/-- Errors that are apart at most in their text and their place. -/
structure ScriptError.Alike (e e' : ScriptError) : Prop where
  number : e.number? = e'.number?
  backtrace : e.backtrace = e'.backtrace
  extra : e.extra = e'.extra

structure ErrorLog.Alike (log log' : ErrorLog) : Prop where
  errors : List.Forall₂ ScriptError.Alike log.errors log'.errors
  observers : log.observers = log'.observers
  nextId : log.nextId = log'.nextId
  notices : List.Forall₂ (fun n n' => n.observer = n'.observer ∧ n.error.Alike n'.error)
    log.notices log'.notices

/-- Sessions that are apart at most in the place being worked on and in the texts and places of
recorded errors. -/
structure Session.Alike (s s' : Session) : Prop where
  log : s.log.Alike s'.log
  rest : { s with location := s'.location, log := s'.log } = s'

/-- Outcomes that are apart at most in the place being worked on, or in the texts and places of the
errors they end with. -/
inductive Outcome.Alike {α : Type} : (o o' : Outcome Signal Session α) → Prop
  | done (a : α) (s : Session) (location : Location) :
      Alike (.done a s) (.done a (s.movedTo location))
  | exit (signal : Signal) (s : Session) (location : Location) :
      Alike (.exit signal s) (.exit signal (s.movedTo location))
  | error {e e' : ScriptError} {s s' : Session} (he : e.Alike e') (hs : s.Alike s') :
      Alike (.exit (.error e) s) (.exit (.error e') s')
  | exhausted : Alike .exhausted .exhausted

/-- Runs that end alike from any two places. -/
def Run.Alike {α : Type} (x x' : Run α) : Prop :=
  ∀ (s : Session) (location : Location), (x s).Alike (x' (s.movedTo location))

theorem ScriptError.Alike.refl (e : ScriptError) : e.Alike e :=
  ⟨rfl, rfl, rfl⟩

theorem ScriptError.Alike.traced {e e' : ScriptError} (h : e.Alike e') (s : Session) :
    (s.traced e).Alike (s.traced e') where
  number := h.number
  backtrace := by rw [Session.traced, Session.traced, h.backtrace]
  extra := h.extra

theorem ErrorLog.Alike.refl (log : ErrorLog) : log.Alike log where
  errors := List.forall₂_same.2 fun e _ => .refl e
  observers := rfl
  nextId := rfl
  notices := List.forall₂_same.2 fun n _ => ⟨rfl, .refl n.error⟩

theorem ErrorLog.alike_record (log : ErrorLog) {e e' : ScriptError} (h : e.Alike e') :
    (log.record e).Alike (log.record e') where
  errors := List.rel_append (ErrorLog.Alike.refl log).errors (.cons h .nil)
  observers := rfl
  nextId := rfl
  notices := by
    refine List.rel_append (ErrorLog.Alike.refl log).notices ?_
    rw [List.forall₂_map_left_iff, List.forall₂_map_right_iff]
    exact List.forall₂_same.2 fun o _ => ⟨rfl, h⟩

theorem Outcome.Alike.refl {α : Type} (o : Outcome Signal Session α) : o.Alike o := by
  cases o with
  | done a s => exact .done a s s.location
  | exit signal s => exact .exit signal s s.location
  | exhausted => exact .exhausted

theorem Outcome.Alike.eq_exhausted {α : Type} {o : Outcome Signal Session α}
    (h : Alike .exhausted o) : o = .exhausted := by
  cases h
  rfl

theorem Outcome.Alike.eq_done {α : Type} {a : α} {s : Session} {o : Outcome Signal Session α}
    (h : Alike (.done a s) o) : ∃ location, o = .done a (s.movedTo location) := by
  cases h with
  | done _ _ location => exact ⟨location, rfl⟩

/-- Two families of runs, one run for each budget, end alike: the first with any budget that lets
the second end, and the second with a budget of one more than lets the first end. -/
def Run.EndAlike (x y : Nat → Run Unit) (s s' : Session) : Prop :=
  ∀ n, (y n s' = .exhausted ∨ (x n s).Alike (y n s')) ∧
    (x n s = .exhausted ∨ (x n s).Alike (y (n + 1) s'))

namespace Run.Alike

variable {α β : Type}

theorem pure (a : α) : Alike (Pure.pure a) (Pure.pure a) :=
  fun s location => .done a s location

theorem bind {x x' : Run α} {f f' : α → Run β} (hx : Alike x x') (hf : ∀ a, Alike (f a) (f' a)) :
    Alike (x >>= f) (x' >>= f') := by
  intro s location
  have hends := hx s location
  rw [Routine.bind_apply, Routine.bind_apply]
  generalize x s = o at hends
  generalize x' (s.movedTo location) = o' at hends
  cases hends with
  | done a t l => exact hf a t l
  | exit signal t l => exact .exit signal t l
  | error he ht => exact .error he ht
  | exhausted => exact .exhausted

theorem raise {e e' : ScriptError} (h : e.Alike e') :
    Alike (Run.raise e : Run α) (Run.raise e') := by
  intro s location
  refine .error (h.traced s) ?_
  have htraced : (s.movedTo location).traced e' = s.traced e' := rfl
  rw [htraced, Session.note_movedTo]
  unfold Session.note
  split
  · exact ⟨.refl s.log, rfl⟩
  · exact ⟨s.log.alike_record (h.traced s), rfl⟩

theorem fault (f : Fault) (l l' : Location) : Alike (Run.fault f l : Run α) (Run.fault f l') :=
  raise ⟨rfl, rfl, rfl⟩

/-- A change that has nothing to do with places. -/
theorem modify {f : Session → Session}
    (hf : ∀ s location, f (s.movedTo location) = (f s).movedTo location) :
    Alike (Routine.modify f) (Routine.modify f) := by
  intro s location
  rw [Routine.modify_apply, Routine.modify_apply, hf]
  exact .done () (f s) location

/-- Going to a place first makes no difference. -/
theorem moveTo {x x' : Run α} (h : Alike x x') (l : Location) :
    Alike x (Run.moveTo l >>= fun _ => x') :=
  fun s _ => h s l

theorem bindLocal (name : Identifier) (v : Value) :
    Alike (Run.bindLocal name v) (Run.bindLocal name v) := by
  unfold Run.bindLocal
  split
  · exact raise (.refl _)
  · exact modify fun _ _ => rfl

end Run.Alike

/-! ## Storing -/

namespace Evaluator

variable {ev : Evaluator}

/-- An evaluator that does not look at the place it starts from. -/
def Unplaced (ev : Evaluator) : Prop :=
  ∀ e : Expr, Run.Alike (ev.evaluate e) (ev.evaluate e)

theorem Unplaced.arrayIndex (h : ev.Unplaced) (index : Expr) :
    Run.Alike (ev.arrayIndex index) (ev.arrayIndex index) := by
  refine (h index).bind fun v => ?_
  split
  · exact .pure _
  · exact .fault _ _ _

theorem Unplaced.assocKey (h : ev.Unplaced) (indexes : List Expr) (closing : Location) :
    Run.Alike (ev.assocKey indexes closing) (ev.assocKey indexes closing) := by
  unfold Evaluator.assocKey
  split
  · next index =>
    refine (h index).bind fun v => ?_
    split
    · exact .pure _
    · exact .raise (.refl _)
  · exact .fault _ _ _

/-- The place of the statement is only told to those who get the error. By induction on the indexes
that are followed. -/
theorem Unplaced.storeThrough (h : ev.Unplaced) (closing l l' : Location) (w current : Value)
    (indexes : List Expr) :
    Run.Alike (ev.storeThrough closing l w current indexes)
      (ev.storeThrough closing l' w current indexes) := by
  induction indexes generalizing current with
  | nil => exact .pure ()
  | cons index rest ih =>
    refine (h.arrayIndex index).bind fun n => ?_
    split
    · split
      · split
        · exact .modify fun _ _ => rfl
        · exact .fault _ _ _
      · have hread (r : ArrayRef) : Run.Alike (Run.array r) (Run.array r) :=
          fun s location => .done (s.heap.array r) s location
        exact (hread _).bind fun _ => ih _
    · exact .fault _ _ _

def keep (ev : Evaluator) (target : Expr) (w : Value) (location : Location) : Run Unit :=
  match target with
  | .reference name => Run.bindLocal name w
  | .dottedGet object name _ _ => ev.dottedSet object name w
  | .indexedGet object indexes _ closing _ => ev.indexedSet object indexes w closing location
  | other => Run.fault .badTarget other.location

theorem Unplaced.keep (h : ev.Unplaced) (target : Expr) (w : Value) (l l' : Location) :
    Run.Alike (ev.keep target w l) (ev.keep target w l') := by
  cases target with
  | reference name => exact .bindLocal name w
  | dottedGet object name optional location =>
    refine (h object).bind fun source => ?_
    split
    · exact .modify fun _ _ => rfl
    · exact .fault _ _ _
    · exact .fault _ _ _
  | indexedGet object indexes optional closing location =>
    refine (h object).bind fun source => ?_
    split
    · exact (h.assocKey indexes closing).bind fun _ => .modify fun _ _ => rfl
    · exact h.storeThrough closing l l' w _ indexes
    · exact .fault _ _ _
  | _ => exact .fault _ _ _

/-- Storing turns to the evaluator only for the parts of the target. -/
theorem keep_within {ev ev' : Evaluator} (h : Simulation.within.Related ev ev') (target : Expr)
    (w : Value) (location : Location) :
    Run.Within (fun _ => True) (ev.keep target w location) (ev'.keep target w location) := by
  cases target with
  | dottedGet object name optional l =>
    exact Simulation.within.dottedSet h object name trivial
  | indexedGet object indexes optional closing l =>
    exact Simulation.within.indexedSet h object indexes trivial closing location
  | _ => exact .refl _

theorem increment_eq (ev : Evaluator) (target : Expr) (op : IncrementOp) (location : Location) :
    ev.increment target op location =
      ((ev.evaluate target >>= fun v => stepped op v.unbox location) >>= fun w =>
        ev.keep target w target.location) := by
  rw [bind_assoc]
  cases target <;> rfl

end Evaluator

/-! ## The value that is stored -/

/-- A target with one added to it or taken from it. -/
def Expr.besideOne (target : Expr) (op : IncrementOp) (one : Location) : Expr :=
  .binary target (Evaluator.stepOperator op).1 (.literal (.integer 1) one)
    (target.location.union one)

theorem Evaluator.stepped_of_not_isNumber (op : IncrementOp) {v : Value} (h : v.isNumber = false)
    (location : Location) :
    ∃ message, stepped op v location = Run.raise (.mismatch message ⟨v.kind, location⟩ none) := by
  unfold stepped
  obtain ⟨operator, word⟩ := stepOperator op
  dsimp only
  rw [h]
  split
  · next hfalse => cases hfalse
  · exact ⟨_, rfl⟩

theorem Run.operate_of_not_isNumber (op : IncrementOp) {v : Value} (h : v.isNumber = false)
    (l one location : Location) :
    operate (Evaluator.stepOperator op).1 ⟨v, l⟩ ⟨.integer 1, one⟩ location =
      operatorMismatch (Evaluator.stepOperator op).1 ⟨v, l⟩ ⟨.integer 1, one⟩ := by
  cases op with
  | decrement => exact if_neg (by simp [h])
  | increment =>
    simp only [Evaluator.stepOperator, operate]
    rw [if_neg (by simp [h])]

/-- A number takes the step that the operator takes, and for anything else both are a mismatch. -/
theorem Evaluator.stepped_alike (op : IncrementOp) (v : Value) (location l one l' : Location) :
    Run.Alike (stepped op v location)
      (Run.operate (stepOperator op).1 ⟨v, l⟩ ⟨.integer 1, one⟩ l') := by
  cases hnumber : v.isNumber with
  | false =>
    obtain ⟨message, hraise⟩ := stepped_of_not_isNumber op hnumber location
    rw [hraise, Run.operate_of_not_isNumber op hnumber]
    exact .raise ⟨rfl, rfl, rfl⟩
  | true =>
    cases v with
    | integer | longInteger | float | double => cases op <;> exact .pure _
    | _ => cases hnumber

/-! ## Evaluation with marks -/

/-- Evaluation under a budget that writes a mark for every expression it comes to. -/
def Evaluator.marking (mark : Expr → String) : (budget : Nat) → Evaluator
  | 0 => ofBudget 0
  | n + 1 =>
    ⟨fun e => do
      Run.write .stderr (mark e)
      (marking mark n).expression n e,
     (marking mark n).statement n⟩

namespace Evaluator

theorem write_silent : Run.write .stderr "" = pure () := by
  funext s
  show Outcome.done () (s.write .stderr "") = .done () s
  rw [Session.write, String.append_empty]

/-- Without marks it is evaluation itself. -/
theorem marking_silent (n : Nat) : marking (fun _ => "") n = ofBudget n := by
  induction n with
  | zero => rfl
  | succ n ih =>
    rw [marking, ih, write_silent]
    rfl

variable (mark : Expr → String)

theorem unplaced_marking (n : Nat) : (marking mark n).Unplaced := by
  intro e s location
  have hsame : (marking mark n).evaluate e (s.movedTo location) =
      (marking mark n).evaluate e s := by
    cases n with
    | zero | succ => rfl
  rw [hsame]
  exact .refl _

/-- A run with marks that ends does so in the same way with one more level. -/
theorem marking_succ (n : Nat) :
    Simulation.within.Related (marking mark n) (marking mark (n + 1)) := by
  induction n with
  | zero => exact ⟨fun _ _ => .inl rfl, fun _ _ => .inl rfl⟩
  | succ n ih =>
    have nested := ih.succ Simulation.within n
    refine ⟨fun e => (Run.Within.refl _).bind fun _ _ => ?_, fun st => ?_⟩
    · exact (nested.evaluate e).trans ((marking mark (n + 1)).expression_within n e)
    · exact (nested.execute st).trans ((marking mark (n + 1)).statement_within n st)

theorem evaluate_silent {e : Expr} (he : mark e = "") (n : Nat) :
    (marking mark (n + 1)).evaluate e = (marking mark n).expression n e := by
  show (Run.write .stderr (mark e) >>= fun _ => (marking mark n).expression n e) = _
  rw [he, write_silent, pure_bind]

/-- Adding one evaluates the target one level deeper and nothing else. -/
theorem besideOne_alike (op : IncrementOp) (target : Expr) (location one : Location)
    (hsum : mark (target.besideOne op one) = "") (hone : mark (.literal (.integer 1) one) = "")
    (n : Nat) :
    Run.Alike ((marking mark n).evaluate target >>= fun v => stepped op v.unbox location)
      ((marking mark (n + 1)).evaluate (target.besideOne op one)) := by
  rw [evaluate_silent mark hsum]
  refine .moveTo ?_ _
  cases n with
  | zero => exact fun _ _ => .exhausted
  | succ n =>
    have hoperand : (marking mark (n + 1)).operand (.literal (.integer 1) one) =
        (Run.moveTo one >>= fun _ => pure ⟨.integer 1, one⟩) := by
      rw [operand, evaluate_silent mark hone]
      rfl
    have hbinary : (marking mark (n + 1)).binary target (stepOperator op).1
          (.literal (.integer 1) one) (target.location.union one) =
        ((marking mark (n + 1)).evaluate target >>= fun v => Run.moveTo one >>= fun _ =>
          Run.operate (stepOperator op).1 ⟨v.unbox, target.location⟩ ⟨.integer 1, one⟩
            (target.location.union one)) := by
      rw [binary, hoperand, operand, bind_assoc]
      refine bind_congr fun v => ?_
      rw [pure_bind, if_neg (by cases op <;> decide), bind_assoc]
      rfl
    show Run.Alike _ ((marking mark (n + 1)).binary target _ _ _)
    rw [hbinary]
    exact (unplaced_marking mark (n + 1) target).bind fun v =>
      .moveTo (stepped_alike op v.unbox location _ _ _) one

end Evaluator

/-! ## Executing -/

/-- The session after its provider was asked whether to go on. -/
def Session.polled (s : Session) : Session :=
  { s with suspension := (s.suspension.poll s.debugMode).2 }

theorem execute_searching (st : Statement)
    (hsearch : ∀ (ev : Evaluator) (n : Nat) (label : String), ev.search n label st = pure ())
    {s : Session} {label : String} (h : s.scopes.pending = some label) (n : Nat) :
    execute (n + 1) st s = .done () s := by
  rw [execute]
  refine (Evaluator.statement_of_pending h).trans ?_
  rw [hsearch]
  rfl

theorem execute_proceeding (st : Statement) (hstop : Evaluator.isStop st = false) {s : Session}
    (hpending : s.scopes.pending = none) (h : (s.suspension.poll s.debugMode).1 = .proceed)
    (n : Nat) :
    execute (n + 1) st s =
      (Evaluator.ofBudget n).perform n st (s.polled.movedTo st.location) := by
  have hpoll : Run.poll s = .done .proceed s.polled := by
    rw [← h]
    rfl
  have happroach : Evaluator.approach st s = .done () (s.polled.movedTo st.location) := by
    rw [Evaluator.approach, hstop]
    show (Run.checkpoint st >>= fun _ => Run.moveTo st.location) s = _
    rw [Run.checkpoint, bind_assoc, Routine.bind_apply, hpoll]
    rfl
  rw [execute]
  refine (Evaluator.statement_of_pending_none _ n st hpending).trans ?_
  rw [Routine.bind_apply, happroach]
  rfl

/-! ## Both statements -/

/-- Targets that a step of one and an assignment treat alike: all but reserved names, which cannot
be assigned, and names that end in a kind letter, which turn what is assigned into their kind. -/
def Expr.isSteppable : Expr → Bool
  | .reference name => !name.isReserved && name.designator?.isNone
  | .dottedGet .. | .indexedGet .. => true
  | _ => false

/-- A statement that evaluates an expression and stores the value in a target. -/
structure Statement.Stores (st : Statement) (target value : Expr) (location : Location) : Prop where
  notStop : Evaluator.isStop st = false
  search : ∀ (ev : Evaluator) (n : Nat) (label : String), ev.search n label st = pure ()
  perform : ∀ (ev : Evaluator) (n : Nat),
    ev.perform n st = ev.evaluate value >>= fun v => ev.keep target v location

theorem Grammar.stores_of_isSteppable {target : Expr} (h : target.isSteppable = true)
    (value : Expr) (location : Location) :
    ∃ st, store? target value location = some st ∧ st.Stores target value location := by
  cases target with
  | reference name =>
    obtain ⟨hfree, hplain⟩ : name.isReserved = false ∧ name.designator? = none := by
      simpa [Expr.isSteppable] using h
    refine ⟨_, rfl, rfl, fun _ _ _ => rfl, fun ev n => ?_⟩
    have hreject : Run.rejectReserved name Run.reservedTarget = pure () := by
      rw [Run.rejectReserved, hfree]
      rfl
    have hassign (v : Value) : Run.assign name v value.location = Run.bindLocal name v := by
      rw [Run.assign, hplain]
    show ev.assignment name value = _
    rw [Evaluator.assignment, hreject, pure_bind]
    exact bind_congr hassign
  | dottedGet | indexedGet => exact ⟨_, rfl, rfl, fun _ _ _ => rfl, fun _ _ => rfl⟩
  | _ => cases h

section

variable {target : Expr} {op : IncrementOp} {one location' : Location} {st : Statement}

/-- What the two statements do is alike, with marks. In between stands a step that reads its target
one level deeper than it stores. -/
theorem endAlike_perform (hst : st.Stores target (target.besideOne op one) location')
    (mark : Expr → String) (hsum : mark (target.besideOne op one) = "")
    (hone : mark (.literal (.integer 1) one) = "") (location place : Location) (s : Session) :
    Run.EndAlike
      (fun n => (Evaluator.marking mark n).perform n (.increment target op location))
      (fun n => (Evaluator.marking mark n).perform n st) s (s.movedTo place) := by
  let read (n : Nat) : Run Value :=
    (Evaluator.marking mark n).evaluate target >>= fun v =>
      Evaluator.stepped op v.unbox location
  let between (n : Nat) : Run Unit :=
    read n >>= fun w => (Evaluator.marking mark (n + 1)).keep target w target.location
  have hstep (n : Nat) : (Evaluator.marking mark n).perform n (.increment target op location) =
      read n >>= fun w => (Evaluator.marking mark n).keep target w target.location :=
    Evaluator.increment_eq _ target op location
  have hsame (n : Nat) :
      Run.Alike (between n) ((Evaluator.marking mark (n + 1)).perform (n + 1) st) := by
    rw [hst.perform]
    exact (Evaluator.besideOne_alike mark op target location one hsum hone n).bind fun w =>
      (Evaluator.unplaced_marking mark (n + 1)).keep target w _ _
  have hnested := Evaluator.marking_succ mark
  intro n
  dsimp only
  constructor
  · cases n with
    | zero =>
      rw [hst.perform]
      exact .inl rfl
    | succ n =>
      have hdeeper : Run.Within (fun _ => True) (between n)
          ((Evaluator.marking mark (n + 1)).perform (n + 1) (.increment target op location)) := by
        rw [hstep]
        exact (((hnested n).evaluate target).bind fun _ _ => .refl _).bind fun _ _ => .refl _
      have hends := hsame n s place
      obtain hgave | ⟨heq, -⟩ := hdeeper s
      · rw [hgave] at hends
        exact .inl hends.eq_exhausted
      · exact .inr (heq ▸ hends)
  · have hstored : Run.Within (fun _ => True)
        ((Evaluator.marking mark n).perform n (.increment target op location)) (between n) := by
      rw [hstep]
      exact (Run.Within.refl _).bind fun w _ => Evaluator.keep_within (hnested n) target w _
    obtain hgave | ⟨heq, -⟩ := hstored s
    · exact .inl hgave
    · exact .inr (heq ▸ hsame n s place)

/-- Where a label is looked for both statements are passed over, and where no pause is asked for
both are performed. -/
theorem endAlike_execute (hst : st.Stores target (target.besideOne op one) location')
    (location : Location) {s : Session}
    (hs : s.scopes.pending = none → (s.suspension.poll s.debugMode).1 = .proceed) :
    Run.EndAlike (fun n => execute n (.increment target op location)) (fun n => execute n st)
      s s := by
  intro n
  cases n with
  | zero => exact ⟨.inl rfl, .inl rfl⟩
  | succ n =>
    dsimp only
    cases hpending : s.scopes.pending with
    | some label =>
      rw [execute_searching (.increment target op location) (fun _ _ _ => rfl) hpending,
        execute_searching st hst.search hpending, execute_searching st hst.search hpending]
      exact ⟨.inr (.refl _), .inr (.refl _)⟩
    | none =>
      have hperform := endAlike_perform hst (fun _ => "") rfl rfl location st.location
        (s.polled.movedTo location) n
      simp only [Evaluator.marking_silent] at hperform
      rw [execute_proceeding (.increment target op location) rfl hpending (hs hpending),
        execute_proceeding st hst.notStop hpending (hs hpending),
        execute_proceeding st hst.notStop hpending (hs hpending)]
      exact hperform

end

/-- A step of one and the assignment of the target with one added to it, or taken from it, come to
the same expressions in the same order, as every way to mark them shows, and end alike. That is so
of what the two statements do in any session, and of executing them where no pause is asked for
before them. -/
theorem increment_alike (op : IncrementOp) {target : Expr} (htarget : target.isSteppable = true)
    (one location location' : Location) (s : Session) :
    ∃ st, Grammar.store? target (target.besideOne op one) location' = some st ∧
      (∀ mark : Expr → String,
        mark (target.besideOne op one) = "" → mark (.literal (.integer 1) one) = "" →
          Run.EndAlike
            (fun n => (Evaluator.marking mark n).perform n (.increment target op location))
            (fun n => (Evaluator.marking mark n).perform n st) s s) ∧
      ((s.scopes.pending = none → (s.suspension.poll s.debugMode).1 = .proceed) →
        Run.EndAlike (fun n => execute n (.increment target op location)) (fun n => execute n st)
          s s) := by
  obtain ⟨st, hstore, hst⟩ :=
    Grammar.stores_of_isSteppable htarget (target.besideOne op one) location'
  refine ⟨st, hstore, fun mark hsum hone => ?_, endAlike_execute hst location⟩
  exact endAlike_perform hst mark hsum hone location s.location s

def Expr.firstOfSeven : Expr :=
  .indexedGet (.arrayLiteral [.literal (.integer 7) .builtin] .builtin)
    [.literal (.integer 0) .builtin] false .builtin .builtin

/-- The array is made once to be read and once to be stored in. -/
theorem increment_alike_of_literal :
    ∃ st t, Grammar.store? .firstOfSeven (Expr.firstOfSeven.besideOne .decrement .builtin)
        .builtin = some st ∧
      execute 7 st (.new .standard) = .done () t ∧
      t.heap.arrays.toList.map ArrayObject.toList = [[.integer 7], [.integer 6]] := by
  obtain ⟨st, hstore, -, hexecute⟩ := increment_alike .decrement
    (rfl : Expr.firstOfSeven.isSteppable = true) .builtin .builtin .builtin (.new .standard)
  obtain ⟨t, hdone, harrays⟩ : ∃ t : Session,
      execute 6 (.increment .firstOfSeven .decrement .builtin) (.new .standard) = .done () t ∧
        t.heap.arrays.toList.map ArrayObject.toList = [[.integer 7], [.integer 6]] :=
    ⟨_, rfl, rfl⟩
  have hends := (hexecute (fun _ => rfl) 6).2
  dsimp only at hends
  rw [hdone] at hends
  obtain hgave | halike := hends
  · cases hgave
  · obtain ⟨place, hsame⟩ := halike.eq_done
    exact ⟨st, t.movedTo place, hstore, hsame, harrays⟩

end BrightScript
