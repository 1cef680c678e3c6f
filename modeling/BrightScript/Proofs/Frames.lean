import BrightScript.Proofs.Signals

/-!
# Frames are given back

Whatever comes of an expression, the activation of the current call, the call stack and the `try`
mode are afterwards what they were before. Statements may bind names in the activation, but they too
give back the stack and the `try` mode, and they start no search for a label that they do not end.
While anything is evaluated or executed the stack holds at most as many frames as the options allow.
So a session is clean after every script, and the next script starts in a clean one.
-/

namespace BrightScript

variable {s t : Session} {g : Grade} {args : List Value} {budget : Nat}
  {statements : List Statement} {r : Except ScriptError Finish}

/-- Every variable of an activation is a variable of another, except for the names that `print`
binds for its items. -/
def Activation.Extends (a b : Activation) : Prop :=
  ∀ name ∈ a.locals, name ≠ Text.fold Builtin.tab.name → name ≠ Text.fold Builtin.pos.name →
    name ∈ b.locals

/-- What becomes of the activation of a call, by what is run in it. Statements bind further
variables and start no search for a label that they do not end. -/
def Grade.keepsActivation : Grade → Activation → Activation → Prop
  | .expression, a, b => b = a
  | .statement, a, b => (a.pending = none → b.pending = none) ∧ a.Extends b
  | .body, _, _ => True

/-- The frames of a session are as they were, as far as runs of a grade give them back. -/
structure Session.SameFrames (g : Grade) (s t : Session) : Prop where
  active : g.keepsActivation s.scopes.active t.scopes.active
  stack : t.stack = s.stack
  tryMode : t.tryMode = s.tryMode
  rootM : t.scopes.rootM = s.scopes.rootM
  maxCallDepth : t.options.maxCallDepth = s.options.maxCallDepth

namespace Activation.Extends

theorem refl (a : Activation) : a.Extends a :=
  fun _ h _ _ => h

theorem trans {a b c : Activation} (h : a.Extends b) (h' : b.Extends c) : a.Extends c :=
  fun name hn htab hpos => h' name (h name hn htab hpos) htab hpos

theorem bind (s : Scopes) (name : String) (v : Value) : s.active.Extends (s.bind name v).active :=
  fun _ hn _ _ => Std.ExtTreeMap.mem_insert.2 (.inr hn)

theorem withoutHelpers (s : Session) :
    s.scopes.active.Extends (Run.withoutHelpers s).scopes.active := by
  intro name hn htab hpos
  refine Std.ExtTreeMap.mem_erase.2 ⟨?_, Std.ExtTreeMap.mem_erase.2 ⟨?_, hn⟩⟩
  · exact fun h => hpos (Std.LawfulEqCmp.eq_of_compare h).symm
  · exact fun h => htab (Std.LawfulEqCmp.eq_of_compare h).symm

end Activation.Extends

namespace Session.SameFrames

theorem ofCore (h : t.core = s.core) : s.SameFrames g t := by
  have scopes : t.scopes = s.scopes := congrArg Core.scopes h
  refine ⟨?_, congrArg Core.stack h, congrArg Core.tryMode h, congrArg Scopes.rootM scopes,
    congrArg Core.maxCallDepth h⟩
  rw [scopes]
  cases g with
  | expression => rfl
  | statement => exact ⟨id, .refl _⟩
  | body => trivial

theorem trans {u : Session} (h : s.SameFrames g t) (h' : t.SameFrames g u) : s.SameFrames g u := by
  refine ⟨?_, h'.stack.trans h.stack, h'.tryMode.trans h.tryMode, h'.rootM.trans h.rootM,
    h'.maxCallDepth.trans h.maxCallDepth⟩
  cases g with
  | expression => exact Eq.trans h'.active h.active
  | statement => exact ⟨fun hp => h'.active.1 (h.active.1 hp), h.active.2.trans h'.active.2⟩
  | body => trivial

theorem ofExpression (h : s.SameFrames .expression t) : s.SameFrames .statement t := by
  have active : t.scopes.active = s.scopes.active := h.active
  refine ⟨?_, h.stack, h.tryMode, h.rootM, h.maxCallDepth⟩
  rw [active]
  exact ⟨id, .refl _⟩

theorem ofStatement (h : s.SameFrames .statement t) : s.SameFrames .body t :=
  ⟨trivial, h.stack, h.tryMode, h.rootM, h.maxCallDepth⟩

theorem update {P : Value → Prop} {f : Session → Session} (h : Update P True g f) (s : Session) :
    s.SameFrames g (f s) := by
  cases h with
  | heap | location | identity | readClock | complain => exact ⟨rfl, rfl, rfl, rfl, rfl⟩
  | bind name hv => exact ⟨⟨id, .bind s.scopes name _⟩, rfl, rfl, rfl, rfl⟩
  | arrive => exact ⟨⟨fun _ => rfl, .refl _⟩, rfl, rfl, rfl, rfl⟩
  | resume | advance | debug => exact ⟨⟨id, .refl _⟩, rfl, rfl, rfl, rfl⟩
  | @declare name body =>
    have hdeclared : (s.scopes.declare name body).active = s.scopes.active ∧
        (s.scopes.declare name body).rootM = s.scopes.rootM := by
      obtain h | ⟨-, h⟩ := s.scopes.declare_cases name body
      · rw [h]
        exact ⟨rfl, rfl⟩
      · rw [h]
        exact ⟨rfl, rfl⟩
    refine ⟨?_, rfl, rfl, hdeclared.2, rfl⟩
    show Grade.keepsActivation .statement _ (s.scopes.declare name body).active
    rw [hdeclared.1]
    exact ⟨id, .refl _⟩
  | seek => exact ⟨trivial, rfl, rfl, rfl, rfl⟩

/-- A call gives back the frames it entered with: its body left its own frame on the stack, so this
is the one that is taken off. -/
theorem returnedTo {m : AssocRef} {frame? : Option Frame}
    (h : (s.entered m frame?).SameFrames .body t) :
    s.SameFrames .expression (t.returnedTo s frame?) := by
  have hstack : t.stack = frame?.toList ++ s.stack := h.stack
  refine ⟨rfl, ?_, h.tryMode, h.rootM, h.maxCallDepth⟩
  show t.stack.drop frame?.toList.length = s.stack
  rw [hstack, List.drop_left]

theorem withoutHelpers (s : Session) : s.SameFrames .statement (Run.withoutHelpers s) :=
  ⟨⟨id, .withoutHelpers s⟩, rfl, rfl, rfl, rfl⟩

/-- A `try` gives back the mode it was entered with. -/
theorem untried (h : (s.withTry true).SameFrames .statement t) :
    s.SameFrames .statement (t.withTry s.tryMode) :=
  ⟨h.active, h.stack, rfl, h.rootM, h.maxCallDepth⟩

end Session.SameFrames

theorem Session.core_note (s : Session) (e : ScriptError) : (s.note e).core = s.core := by
  unfold Session.note
  split <;> rfl

/-- A variable that has just been bound; `m` and `line_num` are answered before any variable. -/
theorem Scopes.get_bind (s : Scopes) {name : Identifier} (v : Value)
    (hname : Text.fold name.name ∉ ["m", "line_num"]) : (s.bind name.name v).get name = v := by
  simp only [List.mem_cons, List.not_mem_nil, or_false, not_or] at hname
  simp [get, get?, bind, hname.1, hname.2]

/-! ## The contract -/

/-- Whether a session holds at most as many frames as the options allow. -/
def Session.WithinDepth (s : Session) : Prop :=
  s.stack.length ≤ s.options.maxCallDepth

instance (s : Session) : Decidable s.WithinDepth :=
  inferInstanceAs (Decidable (_ ≤ _))

theorem Session.SameFrames.withinDepth (h : s.SameFrames g t) (hs : s.WithinDepth) :
    t.WithinDepth := by
  unfold Session.WithinDepth
  rw [h.stack, h.maxCallDepth]
  exact hs

theorem Session.withinDepth_entered {m : AssocRef} {frame? : Option Frame}
    (hroom : frame? = none ∨ s.isFull = false) (hs : s.WithinDepth) :
    (s.entered m frame?).WithinDepth := by
  rcases hroom with rfl | hfull
  · exact hs
  · have hlt : s.stack.length < s.options.maxCallDepth := by
      simpa [Session.isFull] using hfull
    cases frame? with
    | none => exact hs
    | some frame => exact hlt

/-- Frames are given back, and with `bounded` the stack stays within its depth. -/
def Contract.frames (bounded : Prop) : Contract fun _ => True where
  inv s := bounded → s.WithinDepth
  keep g s t := s.SameFrames g t
  left g s _ t := s.SameFrames g t
  admissible := .trivial
  holds := fun {s} _ => .trivial s
  refl := .ofCore rfl
  trans h h' := h.trans h'
  trans_left h h' := h.trans h'
  keep_statement h := h.ofExpression
  keep_body h := h.ofStatement
  left_statement h := h.ofExpression
  left_body h := h.ofStatement
  keep_of_left _ h := h
  update hf hs :=
    have h := Session.SameFrames.update hf _
    ⟨fun b => h.withinDepth (hs b), h⟩
  serviced h hs :=
    have h := Session.SameFrames.ofCore h.core
    ⟨fun b => h.withinDepth (hs b), h⟩
  raise _ hs :=
    have h := Session.SameFrames.ofCore (Session.core_note _ _)
    ⟨fun b => h.withinDepth (hs b), h⟩
  stray _ _ _ := .ofCore rfl
  leave _ _ := .ofCore rfl
  quit _ := .ofCore rfl
  left_serviced h h' := h.trans (.ofCore h'.core)
  crash h _ _ := h.trans (.ofCore (Session.Serviced.crashed _ _).core)
  tried hs := hs
  untried _ ht := ht
  keep_untried _ h := h.untried
  keep_caught _ h := h.untried
  left_untried _ _ h := h.untried
  unhelped hs := ⟨hs, .withoutHelpers _⟩
  left_unhelped h := h.trans (.withoutHelpers _)
  rewound hs := hs
  left_rewound h := h.trans ⟨⟨id, .refl _⟩, rfl, rfl, rfl, rfl⟩
  entered hroom hs b := Session.withinDepth_entered hroom (hs b)
  returnedTo hs _ h := ⟨fun b => h.returnedTo.withinDepth (hs b), h.returnedTo⟩
  left_returnedTo hs _ _ h := ⟨fun b => h.returnedTo.withinDepth (hs b), h.returnedTo⟩

/-- However a run ended, the frames are as they were. -/
theorem Contract.sameFrames_of_ends {bounded : Prop} {α : Type} {Q : α → Prop}
    {o : Outcome Signal Session α} (h : (frames bounded).Ends g Q s o) (ho : o.state? = some t) :
    s.SameFrames g t := by
  cases o with
  | done | exit => cases ho; exact h.2.2
  | exhausted => cases ho

/-! ## Calls at the limit -/

/-- A call of a procedure whose arguments fit is refused at the limit and otherwise runs the body
with one more frame. -/
theorem Evaluator.call_procedure_eq (ev : Evaluator) (budget : Nat) {c : Callable}
    {chosen : Satisfied} (hc : c.target.isProcedure = true)
    (hchosen : firstSatisfied args 0 c.overloads = some chosen) (context : Option AssocRef)
    (location closing : Location) (s : Session) :
    ev.call budget c args context location closing s =
      if s.options.maxCallDepth ≤ s.stack.length then Run.fault .stackOverflow location s
      else
        Routine.handle
          (Run.inCall (context.getD s.scopes.rootM) (frameOf? c chosen.signature location)
            (Routine.handle (ev.invoke budget c.target chosen.args) Run.crash))
          (Run.leaveCall chosen.signature.returns) s := by
  rw [ev.call_of_satisfied hchosen, Run.calling, isSome_frameOf?, hc, Bool.true_and,
    Session.isFull]
  simp only [decide_eq_true_eq]

/-! ## Between runs -/

/-- A session in which no call is open, nothing is caught and no label is looked for. -/
structure Session.Clean (s : Session) : Prop where
  stack : s.stack = []
  tryMode : s.tryMode = false
  pending : s.scopes.pending = none

/-- The sessions that a host has between runs, when the values it brings in satisfy `P`. Besides
running scripts it can change the collections it shares with them, watch for errors, and choose how
runs are suspended and debugged. Its clock can be about to read anything. -/
inductive Session.BetweenRuns (P : Value → Prop) : Session → Prop
  | new (options : Options) : BetweenRuns P (.new options)
  | exec {s t : Session} {budget : Nat} {statements : List Statement} {args : List Value}
      {r : Except ScriptError Finish} : BetweenRuns P s → (∀ v ∈ args, P v) →
        s.exec budget statements args = some (r, t) → BetweenRuns P t
  | share {s : Session} {h : Heap} : BetweenRuns P s → h.Holds P →
      BetweenRuns P { s with heap := h }
  | clock {s : Session} (clock : Nat → Int) : BetweenRuns P s →
      BetweenRuns P { s with clock := clock }
  | observe {s : Session} (once : Bool) : BetweenRuns P s → BetweenRuns P (s.observe once).2
  | ignore {s : Session} (id : Nat) : BetweenRuns P s → BetweenRuns P (s.ignore id).2
  | suspend {s : Session} (suspension : Suspension) : BetweenRuns P s →
      BetweenRuns P { s with suspension := suspension }
  | debug {s : Session} (debugger : Debugger) : BetweenRuns P s →
      BetweenRuns P { s with debugger := debugger }

/-- Binding the global functions leaves the activation alone. -/
theorem Scopes.active_withGlobals (s : Scopes) : s.withGlobals.active = s.active := by
  have step (t : Scopes) (ht : t.active = s.active) (b : Builtin) (_ : b ∈ Builtin.globals) :
      (t.defineGlobal b.name (.function (.ofBuiltin b))).active = s.active := ht
  exact List.foldlRecOn Builtin.globals _ (motive := fun t : Scopes => t.active = s.active) rfl step

theorem Session.clean_new (options : Options) : (Session.new options).Clean := by
  refine ⟨rfl, rfl, ?_⟩
  show ((Scopes.ofRoot _).withGlobals).active.pending = none
  rw [Scopes.active_withGlobals]
  rfl

theorem Session.core_exec (h : s.exec budget statements args = some (r, t)) :
    ∃ u, (Run.program budget statements args s).state? = some u ∧ t.core = u.core := by
  obtain ⟨u, hu, rfl | ⟨e, rfl⟩⟩ := Session.exec_state h
  · exact ⟨t, hu, rfl⟩
  · exact ⟨u, hu, Session.core_note u e⟩

theorem Session.sameFrames_exec (h : s.exec budget statements args = some (r, t)) :
    s.SameFrames .statement t := by
  obtain ⟨u, hu, hcore⟩ := Session.core_exec h
  have hends := (Contract.frames False).program budget statements
    (fun v (_ : v ∈ args) => trivial) (s := s) False.elim
  exact (Contract.sameFrames_of_ends hends hu).trans (.ofCore hcore)

/-- Calling the entry function gives back the activation that the statements left. -/
theorem Session.active_exec {u : Session} (h : s.exec budget statements args = some (r, t))
    (hu : Routine.handle ((Evaluator.ofBudget budget).executeAll statements) Run.crash s =
      .done () u) :
    t.scopes.active = u.scopes.active := by
  obtain ⟨v, hv, hcore⟩ := Session.core_exec h
  rw [Run.program, Evaluator.program, Routine.bind_apply, hu] at hv
  have hentry := (Contract.frames False).simulation.callEntry budget
    (fun v (_ : v ∈ args) => trivial) u False.elim
  have hframes : u.SameFrames .expression v := by
    dsimp only at hv
    rw [Routine.bind_apply, Routine.view_apply] at hv
    dsimp only at hv
    split at hv
    · exact Contract.sameFrames_of_ends hentry.2 hv
    · cases hv
      exact .ofCore rfl
  calc t.scopes.active = v.scopes.active := congrArg (fun c => c.scopes.active) hcore
    _ = u.scopes.active := hframes.active

theorem Session.Clean.exec (hs : s.Clean) (h : s.exec budget statements args = some (r, t)) :
    t.Clean := by
  have hframes := Session.sameFrames_exec h
  exact ⟨hframes.stack.trans hs.stack, hframes.tryMode.trans hs.tryMode,
    hframes.active.1 hs.pending⟩

theorem Session.BetweenRuns.clean {P : Value → Prop} (h : s.BetweenRuns P) : s.Clean := by
  induction h with
  | new options => exact Session.clean_new options
  | exec _ _ hexec ih => exact ih.exec hexec
  | share _ _ ih | clock _ _ ih | observe _ _ ih | ignore _ _ ih | suspend _ _ ih | debug _ _ ih =>
    exact ⟨ih.stack, ih.tryMode, ih.pending⟩

/-! ## Balance -/

/-- Under every budget: however an expression ends, the variables, the `m` and the label of the
current call, the stack and the `try` mode are as before; nothing on the way is started with more
frames than the options allow; a call of a procedure whose arguments fit is refused exactly at the
limit; and after a script that started between runs the session is clean, with the activation of the
outermost level as its statements left it. -/
theorem frames_given_back (n : Nat) :
    (∀ (e : Expr) (s t : Session), (evaluate n e s).state? = some t →
      t.scopes.active.locals = s.scopes.active.locals ∧ t.scopes.m = s.scopes.m ∧
        t.scopes.pending = s.scopes.pending ∧ t.stack = s.stack ∧ t.tryMode = s.tryMode) ∧
    (∀ (otherwise : Evaluator) (e : Expr) (s : Session), s.WithinDepth →
      (Evaluator.watched Session.WithinDepth otherwise n).evaluate e s = evaluate n e s) ∧
    (∀ (budget : Nat) (c : Callable) (args : List Value) (chosen : Satisfied)
        (context : Option AssocRef) (location closing : Location) (s : Session),
      c.target.isProcedure = true → firstSatisfied args 0 c.overloads = some chosen →
      let m := context.getD s.scopes.rootM
      let frame? := Evaluator.frameOf? c chosen.signature location
      let result := (Evaluator.ofBudget n).call budget c args context location closing s
      if s.options.maxCallDepth ≤ s.stack.length then
        result = Run.fault .stackOverflow location s ∧ result.FailsWith 223 location
      else
        (s.entered m frame?).WithinDepth ∧
          result =
            Routine.handle
              (Run.inCall m frame?
                (Routine.handle ((Evaluator.ofBudget n).invoke budget c.target chosen.args)
                  Run.crash))
              (Run.leaveCall chosen.signature.returns) s) ∧
    (∀ (statements : List Statement) (args : List Value) (s t : Session)
        (r : Except ScriptError Finish),
      s.BetweenRuns (fun _ => True) → s.exec n statements args = some (r, t) →
      t.Clean ∧ t.scopes.rootM = s.scopes.rootM ∧ s.scopes.active.Extends t.scopes.active ∧
        ∀ u, Routine.handle ((Evaluator.ofBudget n).executeAll statements) Run.crash s =
          .done () u → t.scopes.active = u.scopes.active) := by
  refine ⟨?_, ?_, ?_, ?_⟩
  · intro e s t ht
    have hframes := Contract.sameFrames_of_ends
      ((Contract.frames False).evaluate n e (s := s) False.elim) ht
    have hactive : t.scopes.active = s.scopes.active := hframes.active
    exact ⟨congrArg Activation.locals hactive, congrArg Activation.m hactive,
      congrArg Activation.pending hactive, hframes.stack, hframes.tryMode⟩
  · intro otherwise e s hs
    have related := (Contract.frames True).watched (fun _ hs => hs trivial) otherwise n
    exact (related.evaluate e s fun _ => hs).1
  · intro budget c args chosen context location closing s hc hchosen
    dsimp only
    rw [Evaluator.call_procedure_eq _ budget hc hchosen]
    split
    · exact ⟨rfl, Run.fault_failsWith _ _ _⟩
    · next hroom =>
      refine ⟨Session.withinDepth_entered (.inr ?_) (by unfold Session.WithinDepth; omega), rfl⟩
      exact decide_eq_false hroom
  · intro statements args s t r hs h
    have hframes := Session.sameFrames_exec h
    exact ⟨hs.clean.exec h, hframes.rootM, hframes.active.2, fun u hu => Session.active_exec h hu⟩

/-- A call where no frame is allowed, and a script without statements. -/
theorem frames_given_back_at_limit :
    ((Evaluator.ofBudget 2).call 2 strayExit [] none .builtin .builtin
      (.new { Options.standard with maxCallDepth := 0 })).FailsWith 223 .builtin ∧
    Session.Clean (.new { Options.standard with entryPoint := false }) :=
  ⟨((frames_given_back 2).2.2.1 2 strayExit [] ⟨0, .of [] .void, []⟩ none .builtin .builtin
      (.new { Options.standard with maxCallDepth := 0 }) rfl rfl).2,
    ((frames_given_back 2).2.2.2 [] [] (.new { Options.standard with entryPoint := false }) _ _
      (.new _) rfl).1⟩

end BrightScript
