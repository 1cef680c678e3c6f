import BrightScript.Proofs.Signals

/-!
# The order of declarations

A script that only declares functions, each under a name of its own, runs in the same way in
whatever order it declares them. Declaring is commutative: the tables of functions do not remember the order.
What is left of it is the place of the last declaration, and the entry function is called at that
place. But a run says where it is before it looks at where it is: a call either comes to an
expression or a statement, and from there on the place is forgotten, or it ends before it does
(`Run.Settles`). The place is then seen at most by the debugger, in a pause that is remembered.
-/

namespace BrightScript

structure Declaration where
  name : Identifier
  body : Procedure

variable {s : Session} {d : Declaration} {ds : List Declaration}

namespace Declaration

def statement (d : Declaration) : Statement :=
  .declaration d.name d.body

def key (d : Declaration) : String :=
  Text.fold d.name.name

def function (d : Declaration) : Value :=
  .function (.ofDeclaration d.name.name d.body)

end Declaration

/-! ## Declaring is commutative -/

namespace Scopes

/-- The bindings after a declaration under a new name. Nothing can be declared as `m`. -/
def announce (s : Scopes) (d : Declaration) : Scopes :=
  if d.key = "m" then s else s.defineModule d.name.name d.function (some d.body.location)

/-- Whether a function can be declared under a name. -/
def IsFree (s : Scopes) (key : String) : Prop :=
  key ∉ s.modules ∧ key ∉ s.definitions

theorem insert_comm {α : Type} (table : Std.ExtTreeMap String α compare) {j k : String}
    (h : j ≠ k) (a b : α) : (table.insert j a).insert k b = (table.insert k b).insert j a := by
  refine Std.ExtTreeMap.ext_getElem? fun key => ?_
  simp only [Std.ExtTreeMap.getElem?_insert, Std.LawfulEqCmp.compare_eq_iff_eq]
  by_cases hj : j = key
  · have hk : k ≠ key := fun hk => h (hj.trans hk.symm)
    rw [if_neg hk, if_pos hj, if_pos hj]
  · rw [if_neg hj, if_neg hj]

theorem announce_comm (s : Scopes) {e : Declaration} (h : d.key ≠ e.key) :
    (s.announce d).announce e = (s.announce e).announce d := by
  unfold announce
  by_cases hd : d.key = "m"
  · rw [if_pos hd, if_pos hd]
  · by_cases he : e.key = "m"
    · rw [if_neg hd, if_pos he, if_pos he, if_neg hd]
    · rw [if_neg hd, if_neg he, if_neg he, if_neg hd]
      have hmodules := insert_comm s.modules h d.function e.function
      have hdefinitions := insert_comm s.definitions h d.body.location e.body.location
      unfold Declaration.key at hmodules hdefinitions
      simp only [defineModule, hmodules, hdefinitions]

theorem foldl_announce {ds' : List Declaration} (hperm : ds.Perm ds')
    (hnames : ds.Pairwise fun d e => d.key ≠ e.key) (s : Scopes) :
    ds.foldl announce s = ds'.foldl announce s := by
  induction hperm generalizing s with
  | nil => rfl
  | cons d _ ih => exact ih (List.pairwise_cons.1 hnames).2 (s.announce d)
  | swap d e ds =>
    have hne : e.key ≠ d.key := (List.pairwise_cons.1 hnames).1 d List.mem_cons_self
    rw [List.foldl_cons, List.foldl_cons, List.foldl_cons, List.foldl_cons,
      s.announce_comm hne]
  | trans hfirst _ ih ih' => exact (ih hnames s).trans (ih' (hfirst.pairwise hnames Ne.symm) s)

theorem active_announce (s : Scopes) (d : Declaration) : (s.announce d).active = s.active := by
  unfold announce
  split <;> rfl

theorem active_foldl_announce (s : Scopes) (ds : List Declaration) :
    (ds.foldl announce s).active = s.active := by
  induction ds generalizing s with
  | nil => rfl
  | cons d ds ih => exact (ih _).trans (s.active_announce d)

theorem IsFree.announce {s : Scopes} {key : String} (h : s.IsFree key) (hne : d.key ≠ key) :
    (s.announce d).IsFree key := by
  unfold Scopes.announce
  split
  · exact h
  · refine ⟨fun hmem => ?_, fun hmem => ?_⟩
    · rcases Std.ExtTreeMap.mem_insert.1 hmem with heq | hmem
      · exact hne (Std.LawfulEqCmp.eq_of_compare heq)
      · exact h.1 hmem
    · rcases Std.ExtTreeMap.mem_insert.1 hmem with heq | hmem
      · exact hne (Std.LawfulEqCmp.eq_of_compare heq)
      · exact h.2 hmem

end Scopes

/-! ## Running declarations -/

/-- A session in which no label is looked for and nobody asks for a pause. -/
structure Session.Quiet (s : Session) : Prop where
  pending : s.scopes.pending = none
  suspension : s.suspension = .idle
  debugMode : s.debugMode = false
  debugger : s.debugger = .scripted []

theorem Run.checkpoint_quiet (h : s.Quiet) (statement : Statement) :
    Run.checkpoint statement s = .done () s := by
  have hanswer : s.suspension.poll s.debugMode = (.proceed, s.suspension) := by
    rw [h.suspension, h.debugMode]
    rfl
  have hpoll : Run.poll s = .done .proceed s := by
    unfold Run.poll Routine.change
    dsimp only
    rw [hanswer]
  rw [Run.checkpoint, Routine.bind_apply, hpoll]
  rfl

theorem Evaluator.approach_quiet (h : s.Quiet) (statement : Statement) :
    approach statement s = .done () { s with location := statement.location } := by
  unfold approach
  cases isStop statement with
  | true => rfl
  | false =>
    show (Run.checkpoint statement >>= fun _ => Run.moveTo statement.location) s = _
    rw [Routine.bind_apply, Run.checkpoint_quiet h]
    rfl

/-- Where nothing is asked for, a statement is performed. -/
theorem Session.Quiet.execute_eq (h : s.Quiet) (n : Nat) (st : Statement) :
    execute (n + 1) st s =
      (Evaluator.ofBudget n).perform n st { s with location := st.location } := by
  show (Evaluator.ofBudget n).statement n st s = _
  rw [Evaluator.statement_of_pending_none _ _ _ h.pending, Routine.bind_apply,
    Evaluator.approach_quiet h]

theorem Run.declare_free (hreserved : d.name.isReserved = false) (hfree : s.scopes.IsFree d.key) :
    Run.declare d.name d.body s = .done () { s with scopes := s.scopes.announce d } := by
  have hreject : Run.rejectReserved d.name Run.reservedFunction = pure () := by
    rw [Run.rejectReserved, hreserved]
    rfl
  have hcontains : s.scopes.modules.contains d.key = false := by
    rw [← Bool.not_eq_true, ← Std.ExtTreeMap.mem_iff_contains]
    exact hfree.1
  have hhas : s.scopes.has d.name.name [.module] = (d.key == "m") := by
    show ((d.key == "m") || (s.scopes.modules.contains d.key || false)) = _
    rw [hcontains, Bool.or_false, Bool.or_false]
  have hdefined : s.scopes.definedAt? d.name.name = none := Std.ExtTreeMap.getElem?_eq_none hfree.2
  rw [Run.declare, hreject, pure_bind, Routine.bind_apply, Routine.view_apply]
  dsimp only
  rw [hhas, hdefined, Scopes.announce]
  by_cases hm : d.key = "m"
  · rw [if_pos hm, if_pos (beq_iff_eq.2 hm)]
    rfl
  · rw [if_neg hm, if_neg (fun h => hm (beq_iff_eq.1 h))]
    exact congrArg (fun scopes => Outcome.done () { s with scopes := scopes }) (if_neg hfree.1)

theorem Session.Quiet.execute_statement (h : s.Quiet) (hreserved : d.name.isReserved = false)
    (hfree : s.scopes.IsFree d.key) (n : Nat) :
    execute (n + 1) d.statement s =
      .done () { s with scopes := s.scopes.announce d, location := d.body.location } := by
  rw [h.execute_eq]
  exact Run.declare_free hreserved hfree

/-- Declarations under different new names bind all of them. -/
theorem Session.Quiet.executeAll_statements (h : s.Quiet)
    (hnames : ds.Pairwise fun d e => d.key ≠ e.key)
    (hreserved : ∀ d ∈ ds, d.name.isReserved = false) (hfree : ∀ d ∈ ds, s.scopes.IsFree d.key)
    (n : Nat) :
    ∃ location, (Evaluator.ofBudget (n + 1)).executeAll (ds.map Declaration.statement) s =
      .done () { s with scopes := ds.foldl Scopes.announce s.scopes, location := location } := by
  induction ds generalizing s with
  | nil => exact ⟨s.location, rfl⟩
  | cons d ds ih =>
    obtain ⟨hd, hnames⟩ := List.pairwise_cons.1 hnames
    have hpending : (s.scopes.announce d).pending = none := by
      rw [Scopes.pending, Scopes.active_announce]
      exact h.pending
    have hquiet : Session.Quiet
        { s with scopes := s.scopes.announce d, location := d.body.location } :=
      ⟨hpending, h.suspension, h.debugMode, h.debugger⟩
    obtain ⟨location, hrest⟩ := ih hquiet hnames
      (fun e he => hreserved e (List.mem_cons_of_mem d he))
      (fun e he => (hfree e (List.mem_cons_of_mem d he)).announce (hd e he))
    have hfirst : (Evaluator.ofBudget (n + 1)).execute d.statement s = _ :=
      h.execute_statement (hreserved d List.mem_cons_self) (hfree d List.mem_cons_self) n
    refine ⟨location, ?_⟩
    rw [List.map_cons, Evaluator.executeAll, Routine.bind_apply, hfirst]
    exact hrest

/-! ## Running from another place -/

def Session.movedTo (s : Session) (location : Location) : Session :=
  { s with location := location }

theorem Session.note_movedTo (s : Session) (location : Location) (e : ScriptError) :
    (s.movedTo location).note e = (s.note e).movedTo location := by
  cases htry : s.tryMode <;> simp [note, movedTo, htry]

theorem Session.Quiet.note (h : s.Quiet) (e : ScriptError) : (s.note e).Quiet := by
  unfold Session.note
  split
  · exact h
  · exact ⟨h.pending, h.suspension, h.debugMode, h.debugger⟩

theorem Session.Quiet.movedTo (h : s.Quiet) (location : Location) : (s.movedTo location).Quiet :=
  ⟨h.pending, h.suspension, h.debugMode, h.debugger⟩

/-- Outcomes from two places: one and the same, or apart by the place where nothing was worked on
yet. -/
inductive Outcome.Settled {α : Type} (location : Location) :
    (o o' : Outcome Signal Session α) → Prop
  | same (o : Outcome Signal Session α) : Settled location o o
  | done {t : Session} (ht : t.Quiet) (a : α) :
      Settled location (.done a t) (.done a (t.movedTo location))
  | exit {t : Session} (ht : t.Quiet) (e : ScriptError) :
      Settled location (.exit (.error e) t) (.exit (.error e) (t.movedTo location))

/-- A run that forgets where it started, or comes to nothing that has a place. -/
def Run.Settles {α : Type} (x : Run α) : Prop :=
  ∀ (s : Session) (location : Location), s.Quiet →
    Outcome.Settled location (x s) (x (s.movedTo location))

namespace Run.Settles

variable {α β : Type}

theorem bind {x : Run α} {f : α → Run β} (hx : Settles x) (hf : ∀ a, Settles (f a)) :
    Settles (x >>= f) := by
  intro s location hs
  rw [Routine.bind_apply, Routine.bind_apply]
  have hfirst := hx s location hs
  revert hfirst
  generalize x s = o
  generalize x (s.movedTo location) = o'
  rintro (_ | ⟨ht, a⟩ | ⟨ht, e⟩)
  · exact .same _
  · exact hf a _ location ht
  · exact .exit ht e

theorem pure (a : α) : Settles (Pure.pure a) :=
  fun _ _ hs => .done hs a

theorem raise (e : ScriptError) : Settles (Run.raise e : Run α) := by
  intro s location hs
  show Outcome.Settled location (.exit (.error (s.traced e)) (s.note (s.traced e)))
    (.exit (.error (s.traced e)) ((s.movedTo location).note (s.traced e)))
  rw [Session.note_movedTo]
  exact .exit (hs.note _) _

/-- What says where it is does so wherever it starts. -/
theorem moveTo (place : Location) (f : Unit → Run α) : Settles (Run.moveTo place >>= f) :=
  fun _ _ _ => .same _

theorem view {f : Session → α} (hf : ∀ (s : Session) (location : Location),
    f (s.movedTo location) = f s) : Settles (Routine.view f) := by
  intro s location hs
  rw [Routine.view_apply, Routine.view_apply, hf]
  exact .done hs _

theorem bindLocal (name : Identifier) (v : Value) : Settles (Run.bindLocal name v) := by
  unfold Run.bindLocal
  split
  · exact raise _
  · intro s location hs
    have hquiet : Session.Quiet { s with scopes := s.scopes.bind name.name v } :=
      ⟨hs.pending, hs.suspension, hs.debugMode, hs.debugger⟩
    exact .done hquiet ()

theorem evaluate (budget : Nat) (e : Expr) : Settles (BrightScript.evaluate budget e) := by
  cases budget with
  | zero => exact fun _ _ _ => .same _
  | succ n =>
    rw [BrightScript.evaluate]
    unfold Evaluator.expression
    exact moveTo _ _

theorem execute (budget : Nat) (statement : Statement) :
    Settles (BrightScript.execute budget statement) := by
  cases budget with
  | zero => exact fun _ _ _ => .same _
  | succ n =>
    intro s location hs
    rw [hs.execute_eq, (hs.movedTo location).execute_eq]
    exact .same _

theorem executeAll (budget : Nat) (statements : List Statement) :
    Settles ((Evaluator.ofBudget budget).executeAll statements) := by
  induction statements with
  | nil => exact pure ()
  | cons statement rest ih => exact (execute budget statement).bind fun _ => ih

theorem iterate {step : β → Run (β ⊕ α)} (hstep : ∀ b, Settles (step b)) (budget : Nat) (b : β) :
    Settles (Routine.iterate step budget b) := by
  induction budget generalizing b with
  | zero => exact fun _ _ _ => .same _
  | succ budget ih =>
    rw [Routine.iterate_succ_eq]
    refine (hstep b).bind fun r => ?_
    cases r with
    | inl b' => exact ih b'
    | inr a => exact pure a

theorem bindParameters (budget : Nat) (parameters : List Parameter) (args : List Value) :
    Settles ((Evaluator.ofBudget budget).bindParameters parameters args) := by
  induction parameters generalizing args with
  | nil => exact pure ()
  | cons p parameters ih =>
    cases args with
    | cons v args => exact (bindLocal p.name v).bind fun _ => ih args
    | nil =>
      refine bind ?_ fun v => (bindLocal p.name v).bind fun _ => ih []
      unfold Evaluator.defaultValue
      split
      · exact (evaluate budget _).bind fun _ => pure _
      · exact pure _

/-- Nothing jumps to a label before there was a statement. -/
theorem runBody (budget : Nat) (body : Procedure) (last : Location) :
    Settles ((Evaluator.ofBudget budget).runBody body last) := by
  intro s location hs
  have hblock := executeAll budget body.body.statements s location hs
  unfold Evaluator.runBody Evaluator.executeBlock
  rw [Routine.attempt_bind_apply, Routine.attempt_bind_apply]
  revert hblock
  generalize (Evaluator.ofBudget budget).executeAll body.body.statements s = o
  generalize (Evaluator.ofBudget budget).executeAll body.body.statements (s.movedTo location) = o'
  rintro (_ | ⟨ht, a⟩ | ⟨ht, e⟩)
  · exact .same _
  · exact .done ht _
  · exact .exit ht e

theorem runProcedure (budget passes : Nat) (body : Procedure) (args : List Value) :
    Settles ((Evaluator.ofBudget budget).runProcedure passes body args) := by
  unfold Evaluator.runProcedure
  refine (bindParameters budget _ args).bind fun _ => ?_
  refine (iterate (runBody budget body) passes body.location).bind fun last => ?_
  refine (view fun _ _ => rfl).bind fun pending => ?_
  split
  · unfold Run.labelMissing
    exact (view fun _ _ => rfl).bind fun _ => raise _
  · exact pure _

end Run.Settles

/-! ## Calling the entry function -/

def Session.withPlaces (s : Session) (location : Location) (breaks : List Break) : Session :=
  { s with location := location, breaks := breaks }

/-- Outcomes that are the same but for where the run is and where it paused. -/
inductive Outcome.Agrees {α : Type} : (o o' : Outcome Signal Session α) → Prop
  | done (a : α) (t : Session) (location : Location) (breaks : List Break) :
      Agrees (.done a t) (.done a (t.withPlaces location breaks))
  | exit (signal : Signal) (t : Session) (location : Location) (breaks : List Break) :
      Agrees (.exit signal t) (.exit signal (t.withPlaces location breaks))
  | exhausted : Agrees .exhausted .exhausted

theorem Outcome.Agrees.refl {α : Type} (o : Outcome Signal Session α) : o.Agrees o := by
  cases o with
  | done a t => exact .done a t t.location t.breaks
  | exit signal t => exact .exit signal t t.location t.breaks
  | exhausted => exact .exhausted

def Run.Unplaced {α : Type} (x : Run α) : Prop :=
  ∀ (s : Session) (location : Location) (breaks : List Break),
    (x s).Agrees (x (s.withPlaces location breaks))

namespace Run.Unplaced

variable {α : Type}

theorem raise (e : ScriptError) : Unplaced (Run.raise e : Run α) := by
  intro s location breaks
  have hnote : (s.withPlaces location breaks).note (s.traced e) =
      (s.note (s.traced e)).withPlaces location breaks := by
    cases htry : s.tryMode <;> simp [Session.note, Session.withPlaces, htry]
  show Outcome.Agrees (.exit (.error (s.traced e)) (s.note (s.traced e)))
    (.exit (.error (s.traced e)) ((s.withPlaces location breaks).note (s.traced e)))
  rw [hnote]
  exact .exit _ _ _ _

theorem leave (signal : Signal) : Unplaced (Routine.leave signal : Run α) :=
  fun _ _ _ => .exit _ _ _ _

theorem pure (a : α) : Unplaced (Pure.pure a : Run α) :=
  fun _ _ _ => .done _ _ _ _

theorem escape (signal : Signal) : Unplaced (Run.escape signal : Run α) := by
  unfold Run.escape
  split
  · exact raise _
  · exact leave _

theorem leaveCall (returns : Kind) (signal : Signal) : Unplaced (Run.leaveCall returns signal) := by
  unfold Run.leaveCall
  split
  · unfold Run.returned
    split
    · split
      · exact pure _
      · exact raise _
    · split
      · exact raise _
      · split
        · exact pure _
        · exact raise _
  · exact escape _

theorem finish (signal : Signal) : Unplaced (Run.finish signal) := by
  unfold Run.finish
  split
  · exact pure _
  · exact pure _
  · exact pure _
  · exact escape _

end Run.Unplaced

theorem Session.consult_unscripted (h : s.debugger = .scripted []) (pause : Break) :
    s.consult pause = (.proceed, { s with breaks := pause :: s.breaks }) := by
  have silent (t : Session) : t.write .console "" = t := by
    rw [write, String.append_empty]
  simp only [consult, verdict, h, silent]

/-- Where an error is handed to the debugger, the pause is at the place where the run is. -/
theorem Outcome.Settled.crashing {α : Type} {x : Run α} {location : Location}
    (h : Outcome.Settled location (x s) (x (s.movedTo location))) :
    (Routine.handle x Run.crash s).Agrees (Routine.handle x Run.crash (s.movedTo location)) := by
  unfold Routine.handle
  revert h
  generalize x s = o
  generalize x (s.movedTo location) = o'
  rintro (_ | ⟨ht, a⟩ | @⟨t, ht, e⟩)
  · exact .refl _
  · exact .done _ _ _ _
  · have hcrashes : Run.crashes (t.movedTo location) e = Run.crashes t e := rfl
    dsimp only
    rw [Run.crash_error_apply, Run.crash_error_apply, hcrashes]
    split
    · have hdebugger : t.disarmed.debugger = .scripted [] := ht.debugger
      have hdebugger' : (t.movedTo location).disarmed.debugger = .scripted [] := ht.debugger
      rw [Session.consult_unscripted hdebugger, Session.consult_unscripted hdebugger']
      exact .exit _ _ location _
    · exact .exit _ _ _ _

theorem Run.calling_movedTo (hs : s.Quiet) (frame? : Option Frame) (returns : Kind)
    (context : Option AssocRef) (call location : Location) {body : Run Value}
    (hbody : Run.Settles body) :
    (Run.calling frame? returns context call (Routine.handle body Run.crash) s).Agrees
      (Run.calling frame? returns context call (Routine.handle body Run.crash)
        (s.movedTo location)) := by
  have hfull : (s.movedTo location).isFull = s.isFull := rfl
  have hroot : (s.movedTo location).scopes.rootM = s.scopes.rootM := rfl
  have hentered (m : AssocRef) :
      (s.movedTo location).entered m frame? = (s.entered m frame?).movedTo location := rfl
  unfold Run.calling
  rw [hfull, hroot]
  split
  · exact Run.Unplaced.raise _ s location s.breaks
  · rw [Run.handle_inCall_apply, Run.handle_inCall_apply, hentered]
    generalize context.getD s.scopes.rootM = m
    have hquiet : (s.entered m frame?).Quiet := ⟨rfl, hs.suspension, hs.debugMode, hs.debugger⟩
    have hagrees := (hbody (s.entered m frame?) location hquiet).crashing
    revert hagrees
    generalize Routine.handle body Run.crash (s.entered m frame?) = o
    generalize Routine.handle body Run.crash ((s.entered m frame?).movedTo location) = o'
    rintro (⟨v, t, location', breaks⟩ | ⟨signal, t, location', breaks⟩ | _)
    · exact .done _ _ _ _
    · exact Run.Unplaced.leaveCall returns signal (t.returnedTo s frame?) location' breaks
    · exact .exhausted

/-- The entry function runs in the same way wherever it is called, if a script wrote it. -/
theorem Run.callEntry_movedTo (hs : s.Quiet)
    (hentry : ∀ c, s.entry? = some c → c.target.isProcedure = true) (budget : Nat)
    (args : List Value) (location : Location) :
    (Run.callEntry budget args s).Agrees (Run.callEntry budget args (s.movedTo location)) := by
  have hmoved : Session.entry? (s.movedTo location) = s.entry? := rfl
  unfold Run.callEntry Evaluator.callEntry
  rw [Routine.bind_apply, Routine.bind_apply, Routine.view_apply, Routine.view_apply, hmoved]
  dsimp only
  cases hc : s.entry? with
  | none => exact Run.Unplaced.pure _ s location s.breaks
  | some c =>
    obtain ⟨body, hbody⟩ : ∃ body, c.target = .procedure body := by
      have hprocedure := hentry c hc
      cases htarget : c.target with
      | procedure body => exact ⟨body, rfl⟩
      | builtin | method =>
        rw [htarget] at hprocedure
        cases hprocedure
    dsimp only
    generalize (if c.takesArguments then args else []) = given
    unfold Run.call Run.dispatch
    cases firstSatisfied given 0 c.overloads with
    | some chosen =>
      dsimp only
      rw [hbody]
      exact Run.calling_movedTo hs _ _ _ _ _ (Run.Settles.runProcedure budget budget body _)
    | none => exact Run.Unplaced.raise _ s location s.breaks

/-- Bindings in which the entry functions are declared or not there. -/
structure Scopes.EntryDeclared (s : Scopes) : Prop where
  locals : s.active.locals = ∅
  modules : ∀ (key : String) (v : Value), s.modules[key]? = some v →
    ∃ d : Declaration, v = d.function
  globals : ∀ name ∈ entryNames, s.globals[Text.fold name]? = none

namespace Scopes.EntryDeclared

theorem announce {s : Scopes} (h : s.EntryDeclared) (d : Declaration) :
    (s.announce d).EntryDeclared := by
  unfold Scopes.announce
  split
  · exact h
  · refine ⟨h.locals, fun key v hv => ?_, h.globals⟩
    replace hv : (s.modules.insert d.key d.function)[key]? = some v := hv
    rw [Std.ExtTreeMap.getElem?_insert] at hv
    split at hv
    · exact ⟨d, (Option.some.inj hv).symm⟩
    · exact h.modules key v hv

theorem foldl_announce {s : Scopes} (h : s.EntryDeclared) (ds : List Declaration) :
    (ds.foldl Scopes.announce s).EntryDeclared :=
  List.foldlRecOn ds _ h fun _ ht d _ => ht.announce d

theorem isProcedure (h : s.scopes.EntryDeclared) {c : Callable} (hc : s.entry? = some c) :
    c.target.isProcedure = true := by
  obtain ⟨name, hname, hfound⟩ := List.exists_of_findSome?_eq_some hc
  have hplain : ∀ name ∈ entryNames, Text.fold name ≠ "m" ∧ Text.fold name ≠ "line_num" := by decide
  obtain ⟨hm, hline⟩ := hplain name hname
  have hget : s.scopes.get? ⟨name, .builtin⟩ = s.scopes.modules[Text.fold name]? := by
    rw [Scopes.get?, if_neg hm, if_neg hline, h.locals, h.globals name hname]
    simp
  rw [hget] at hfound
  split at hfound
  · next c' hmodule =>
    obtain ⟨d, hd⟩ := h.modules _ _ hmodule
    cases hfound
    cases hd
    rfl
  · cases hfound

end Scopes.EntryDeclared

/-- Binding the global functions changes nothing else. -/
theorem Scopes.withGlobals_eq (s : Scopes) :
    ∃ globals : Bindings, s.withGlobals = { s with globals := globals } ∧
      ∀ key, (∀ b ∈ Builtin.globals, Text.fold b.name ≠ key) → globals[key]? = s.globals[key]? := by
  let Grown (t : Scopes) : Prop := ∃ globals : Bindings, t = { s with globals := globals } ∧
    ∀ key, (∀ b ∈ Builtin.globals, Text.fold b.name ≠ key) → globals[key]? = s.globals[key]?
  have hstart : Grown s := ⟨s.globals, rfl, fun _ _ => rfl⟩
  refine List.foldlRecOn (motive := Grown) Builtin.globals _ hstart ?_
  rintro t ⟨globals, rfl, hglobals⟩ b hb
  refine ⟨globals.insert (Text.fold b.name) (.function (.ofBuiltin b)), rfl, fun key hkey => ?_⟩
  have hne : compare (Text.fold b.name) key ≠ .eq :=
    fun heq => hkey b hb (Std.LawfulEqCmp.eq_of_compare heq)
  rw [Std.ExtTreeMap.getElem?_insert, if_neg hne, hglobals key hkey]

theorem Session.new_quiet (options : Options) : (Session.new options).Quiet ∧
    (Session.new options).scopes.EntryDeclared ∧
      ∀ key, (Session.new options).scopes.IsFree key := by
  have hscopes : (Session.new options).scopes =
      (Scopes.ofRoot (Heap.empty.newAssoc .empty).1).withGlobals := rfl
  obtain ⟨globals, heq, hglobals⟩ :=
    (Scopes.ofRoot (Heap.empty.newAssoc .empty).1).withGlobals_eq
  rw [heq] at hscopes
  refine ⟨⟨?_, rfl, rfl, rfl⟩, ?_, fun key => ?_⟩
  · rw [hscopes]
    rfl
  · rw [hscopes]
    refine ⟨rfl, fun key v hv => ?_, fun name hname => ?_⟩
    · cases Std.ExtTreeMap.getElem?_empty.symm.trans hv
    · have hother : ∀ name ∈ entryNames, ∀ b ∈ Builtin.globals,
          Text.fold b.name ≠ Text.fold name := by decide
      exact (hglobals _ (hother name hname)).trans Std.ExtTreeMap.getElem?_empty
  · rw [hscopes]
    exact ⟨Std.ExtTreeMap.not_mem_empty, Std.ExtTreeMap.not_mem_empty⟩

/-! ## Whole scripts -/

def Session.withoutPlaces (s : Session) : Session :=
  { s with location := .builtin, breaks := [] }

/-- After its declarations a script calls the entry function. -/
theorem Run.program_declarations (hs : s.Quiet) (hnames : ds.Pairwise fun d e => d.key ≠ e.key)
    (hreserved : ∀ d ∈ ds, d.name.isReserved = false) (hfree : ∀ key, s.scopes.IsFree key) (n : Nat)
    (args : List Value) :
    ∃ location, Run.program (n + 1) (ds.map Declaration.statement) args s =
      (if s.options.entryPoint then Run.callEntry (n + 1) args else pure .invalid)
        (Session.movedTo { s with scopes := ds.foldl Scopes.announce s.scopes } location) := by
  obtain ⟨location, hdeclared⟩ :=
    hs.executeAll_statements hnames hreserved (fun d _ => hfree d.key) n
  refine ⟨location, ?_⟩
  rw [Run.program, Evaluator.program, Routine.bind_apply, Routine.handle, hdeclared]
  rfl

theorem Outcome.Agrees.script {s' : Session} {budget : Nat}
    {statements statements' : List Statement} {args : List Value}
    (h : (Run.program budget statements args s).Agrees (Run.program budget statements' args s')) :
    (Run.script budget statements args s).Agrees (Run.script budget statements' args s') := by
  rw [Run.script_apply, Run.script_apply]
  revert h
  generalize Run.program budget statements args s = o
  generalize Run.program budget statements' args s' = o'
  rintro (⟨v, t, location, breaks⟩ | ⟨signal, t, location, breaks⟩ | _)
  · exact .done _ _ _ _
  · exact Run.Unplaced.finish signal t location breaks
  · exact .exhausted

theorem Outcome.Agrees.exec {s' : Session} {budget : Nat} {statements statements' : List Statement}
    {args : List Value}
    (h : (Run.program budget statements args s).Agrees (Run.program budget statements' args s')) :
    (s.exec budget statements args).map (fun (r, t) => (r, t.withoutPlaces)) =
      (s'.exec budget statements' args).map (fun (r, t) => (r, t.withoutPlaces)) := by
  have hscript := h.script
  have herror (signal : Signal) (t : Session)
      (hexit : Run.script budget statements args s = .exit signal t) : ∃ e, signal = .error e :=
    Run.script_eq_exit hexit
  unfold Session.exec
  revert hscript herror
  generalize Run.script budget statements args s = o
  generalize Run.script budget statements' args s' = o'
  rintro (⟨v, t, location, breaks⟩ | ⟨signal, t, location, breaks⟩ | _) herror
  · rfl
  · obtain ⟨e, rfl⟩ := herror signal t rfl
    rfl
  · rfl

/-- A new session, given the collections that the host shares with scripts, and its clock. -/
def Session.fresh (options : Options) (heap : Heap) (clock : Nat → Int) : Session :=
  { Session.new options with heap := heap, clock := clock }

/-- Scripts that declare the same functions, each under a name of its own, in whatever order, have
the same outcome and leave the same session, but for where the run is and where it paused. -/
theorem declaration_order (options : Options) (heap : Heap) (clock : Nat → Int) (budget : Nat)
    (args : List Value) {ds ds' : List Declaration} (hperm : ds.Perm ds')
    (hnames : ds.Pairwise fun d e => d.key ≠ e.key)
    (hreserved : ∀ d ∈ ds, d.name.isReserved = false) :
    ((Session.fresh options heap clock).exec budget (ds.map Declaration.statement) args).map
        (fun (r, t) => (r, t.withoutPlaces)) =
      ((Session.fresh options heap clock).exec budget (ds'.map Declaration.statement) args).map
        (fun (r, t) => (r, t.withoutPlaces)) := by
  refine Outcome.Agrees.exec ?_
  cases budget with
  | zero =>
    -- Without a budget no declaration is made, and there is none in both scripts or in neither.
    cases ds with
    | nil =>
      obtain rfl := hperm.nil_eq
      exact .refl _
    | cons d ds =>
      cases ds' with
      | nil => cases hperm.symm.nil_eq
      | cons d' ds' => exact .exhausted
  | succ n =>
    obtain ⟨hnew, hentry, hfree⟩ := Session.new_quiet options
    have hquiet : (Session.fresh options heap clock).Quiet :=
      ⟨hnew.pending, hnew.suspension, hnew.debugMode, hnew.debugger⟩
    replace hentry : (Session.fresh options heap clock).scopes.EntryDeclared := hentry
    replace hfree : ∀ key, (Session.fresh options heap clock).scopes.IsFree key := hfree
    generalize Session.fresh options heap clock = s at *
    obtain ⟨location, hleft⟩ := Run.program_declarations hquiet hnames hreserved hfree n args
    obtain ⟨location', hright⟩ := Run.program_declarations hquiet (hperm.pairwise hnames Ne.symm)
      (fun d hd => hreserved d (hperm.mem_iff.2 hd)) hfree n args
    rw [hleft, hright, ← Scopes.foldl_announce hperm hnames]
    let u : Session := { s with scopes := ds.foldl Scopes.announce s.scopes }
    have hpending : u.scopes.pending = none := by
      rw [Scopes.pending, Scopes.active_foldl_announce]
      exact hquiet.pending
    have hu : (u.movedTo location).Quiet :=
      ⟨hpending, hquiet.suspension, hquiet.debugMode, hquiet.debugger⟩
    split
    · exact Run.callEntry_movedTo hu (fun c hc => (hentry.foldl_announce ds).isProcedure hc) (n + 1)
        args location'
    · exact Run.Unplaced.pure _ _ location' s.breaks

/-- `sub main(a)`, which prints `f(a)`. -/
def printingMain : Declaration :=
  ⟨⟨"Main", .builtin⟩, ⟨"Main", [⟨⟨"a", .builtin⟩, .dynamic, none⟩], .void, true,
    ⟨[.print [.expression (.call (.reference ⟨"F", .builtin⟩) [.reference ⟨"a", .builtin⟩] false
      .builtin .builtin)] .builtin], .builtin⟩, .builtin⟩⟩

/-- `function f(a)`, which returns `a[0]`. -/
def returningFirst : Declaration :=
  ⟨⟨"f", .builtin⟩, ⟨"f", [⟨⟨"a", .builtin⟩, .dynamic, none⟩], .dynamic, false,
    ⟨[.returning (some (.indexedGet (.reference ⟨"a", .builtin⟩)
      [.literal (.integer 0) .builtin] false .builtin .builtin)) .builtin], .builtin⟩, .builtin⟩⟩

/-- An array that the host passes to `main` is read in either order. -/
theorem declaration_order_of_printingMain :
    ((Session.fresh .standard ⟨#[.ofList [.string "x"]], #[.empty]⟩ fun _ => 0).exec 12
      ([returningFirst, printingMain].map Declaration.statement) [.array ⟨0⟩]).map
        (fun r => r.2.stdout) = some "x\n" := by
  have hperm : [printingMain, returningFirst].Perm [returningFirst, printingMain] := .swap _ _ _
  have hfirst : ((Session.fresh .standard ⟨#[.ofList [.string "x"]], #[.empty]⟩ fun _ => 0).exec 12
      ([printingMain, returningFirst].map Declaration.statement) [.array ⟨0⟩]).map
        (fun r => r.2.stdout) = some "x\n" := by decide +kernel
  have horder := declaration_order .standard ⟨#[.ofList [.string "x"]], #[.empty]⟩ (fun _ => 0) 12
    [.array ⟨0⟩] hperm (by decide) (by decide)
  have hstdout := congrArg (Option.map fun r => r.2.stdout) horder
  rw [Option.map_map, Option.map_map] at hstdout
  exact hstdout.symm.trans hfirst

end BrightScript
