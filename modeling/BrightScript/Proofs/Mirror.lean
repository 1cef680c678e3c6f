import BrightScript.Proofs.Spelling.Session

/-!
# Mirrors

A mirror compares a run of a part of a script with a run of the same part in which names are spelled
anew, started in the session in which they are. The second run follows the first: it ends the same
way, in the session with names spelled anew, and its result is an image of the first one's.

A mirror looks only at sessions that are fit, and after the first run the session is fit again. What
is fit may depend on the standard output, the column of the cursor and the debugger, which nothing
but a `print` and a pause changes. A mirror may also let the first run give up early.

The constructs that the rules of the language are written with let the second run follow the first,
and so do the rules (`Mirror.expression`, `Mirror.perform` in the modules below this one), apart
from that of `print`.
-/

namespace BrightScript

/-- How an attempt ended, with names spelled anew and an image of its result. -/
def spelledAttempt {α β : Type} (sp : Spelling) (image : α → β) :
    Except Signal α → Except Signal β
  | .ok a => .ok (image a)
  | .error signal => .error (signal.spelled sp)

/-- Nothing is printed, and the debugger stays as it is. -/
structure Session.Silent (s t : Session) : Prop where
  stdout : t.stdout = s.stdout
  column : t.column = s.column
  debugger : t.debugger = s.debugger

/-- Which sessions runs are compared in, and how. -/
structure Mirror where
  sp : Spelling
  fit : Session → Prop
  /-- Whether the first run may give up where the second goes on. -/
  mayGiveUp : Prop
  silent : ∀ {s t : Session}, s.Silent t → fit s → fit t
  consult : ∀ {s : Session} (pause : Break), fit s →
    (s.spelled sp).consult (pause.spelled sp) =
      ((s.consult pause).1, (s.consult pause).2.spelled sp) ∧ fit (s.consult pause).2

namespace Mirror

/-- The second outcome is the first one with names spelled anew, and with an image of its result. -/
inductive Ends (k : Mirror) {α β : Type} (image : α → β) :
    Outcome Signal Session α → Outcome Signal Session β → Prop
  | gaveUp {o : Outcome Signal Session β} (h : k.mayGiveUp) : Ends k image .exhausted o
  | done (a : α) {t : Session} (ht : k.fit t) :
      Ends k image (.done a t) (.done (image a) (t.spelled k.sp))
  | exit (signal : Signal) {t : Session} (ht : k.fit t) :
      Ends k image (.exit signal t) (.exit (signal.spelled k.sp) (t.spelled k.sp))
  | exhausted : Ends k image .exhausted .exhausted

variable (k : Mirror) {α β γ δ : Type}

def Follows (image : α → β) (x : Run α) (y : Run β) : Prop :=
  ∀ s, k.fit s → k.Ends image (x s) (y (s.spelled k.sp))

/-- The second run gives the value of the first, with names spelled anew. -/
abbrev Gives (x y : Run Value) : Prop :=
  k.Follows (Value.spelled k.sp) x y

/-- Evaluators of which the second follows the first in everything. -/
structure Related (ev ev' : Evaluator) : Prop where
  evaluate : ∀ e : Expr, k.Gives (ev.evaluate e) (ev'.evaluate (e.spelled k.sp))
  execute : ∀ s : Statement, k.Follows id (ev.execute s) (ev'.execute (s.spelled k.sp))

/-! ## Basic constructs -/

theorem ret (image : α → β) (a : α) : k.Follows image (pure a) (pure (image a)) :=
  fun _ hs => .done a hs

theorem giveUp (image : α → β) : k.Follows image Routine.giveUp Routine.giveUp :=
  fun _ _ => .exhausted

theorem view {image : α → β} {f : Session → α} {g : Session → β}
    (h : ∀ s : Session, g (s.spelled k.sp) = image (f s)) :
    k.Follows image (Routine.view f) (Routine.view g) := by
  intro s hs
  rw [Routine.view_apply, Routine.view_apply, h]
  exact .done (f s) hs

/-- What is seen does not depend on the spelling of names. -/
theorem look {f : Session → α} (h : ∀ s : Session, f (s.spelled k.sp) = f s) :
    k.Follows id (Routine.view f) (Routine.view f) :=
  k.view h

theorem modify {f g : Session → Session} (hfit : ∀ s, k.fit s → k.fit (f s))
    (h : ∀ s : Session, g (s.spelled k.sp) = (f s).spelled k.sp) :
    k.Follows id (Routine.modify f) (Routine.modify g) := by
  intro s hs
  rw [Routine.modify_apply, Routine.modify_apply, h]
  exact .done () (hfit s hs)

theorem update {f g : Session → Session} (hsilent : ∀ s : Session, s.Silent (f s))
    (h : ∀ s : Session, g (s.spelled k.sp) = (f s).spelled k.sp) :
    k.Follows id (Routine.modify f) (Routine.modify g) :=
  k.modify (fun s => k.silent (hsilent s)) h

theorem leave (image : α → β) (signal : Signal) :
    k.Follows image (Routine.leave signal) (Routine.leave (signal.spelled k.sp)) :=
  fun _ hs => .exit signal hs

theorem bind {image : α → β} {image' : γ → δ} {x : Run α} {y : Run β} {f : α → Run γ}
    {g : β → Run δ} (hx : k.Follows image x y) (hf : ∀ a, k.Follows image' (f a) (g (image a))) :
    k.Follows image' (x >>= f) (y >>= g) := by
  intro s hs
  have hends := hx s hs
  rw [Routine.bind_apply, Routine.bind_apply]
  generalize x s = o, y (s.spelled k.sp) = o' at hends ⊢
  cases hends with
  | gaveUp h => exact .gaveUp h
  | done a ht => exact hf a _ ht
  | exit signal ht => exact .exit signal ht
  | exhausted => exact .exhausted

theorem attempt {image : α → β} {x : Run α} {y : Run β} (hx : k.Follows image x y) :
    k.Follows (spelledAttempt k.sp image) (Routine.attempt x) (Routine.attempt y) := by
  intro s hs
  have hends := hx s hs
  rw [Routine.attempt, Routine.attempt]
  generalize x s = o, y (s.spelled k.sp) = o' at hends ⊢
  cases hends with
  | gaveUp h => exact .gaveUp h
  | done a ht => exact .done (Except.ok a) ht
  | exit signal ht => exact .done (Except.error signal) ht
  | exhausted => exact .exhausted

theorem handle {image : α → β} {x : Run α} {y : Run β} {f : Signal → Run α} {g : Signal → Run β}
    (hx : k.Follows image x y)
    (hf : ∀ signal, k.Follows image (f signal) (g (signal.spelled k.sp))) :
    k.Follows image (Routine.handle x f) (Routine.handle y g) := by
  intro s hs
  have hends := hx s hs
  rw [Routine.handle, Routine.handle]
  generalize x s = o, y (s.spelled k.sp) = o' at hends ⊢
  cases hends with
  | gaveUp h => exact .gaveUp h
  | done a ht => exact .done a ht
  | exit signal ht => exact hf signal _ ht
  | exhausted => exact .exhausted

theorem inCall {image : α → β} {x : Run α} {y : Run β} (hx : k.Follows image x y) (m : AssocRef)
    (frame? : Option Frame) :
    k.Follows image (Run.inCall m frame? x)
      (Run.inCall m (frame?.map (Frame.spelled k.sp)) y) := by
  intro s hs
  have hentered : (s.spelled k.sp).entered m (frame?.map (Frame.spelled k.sp)) =
      (s.entered m frame?).spelled k.sp := by
    cases frame? <;>
      simp [Session.entered, Session.spelled, Scopes.spelled, Scopes.resume, Activation.fresh,
        Activation.spelled, Bindings.spelled_empty]
  have hback {t : Session} (ht : k.fit t) : k.fit (t.returnedTo s frame?) :=
    k.silent (s := t) ⟨rfl, rfl, rfl⟩ ht
  have hreturned (t : Session) :
      (t.spelled k.sp).returnedTo (s.spelled k.sp) (frame?.map (Frame.spelled k.sp)) =
        (t.returnedTo s frame?).spelled k.sp := by
    cases frame? with
    | none => rfl
    | some frame =>
      simp only [Session.returnedTo, Session.spelled, Option.map_some, Option.toList_some,
        List.length_singleton, List.map_drop]
      rfl
  have hends := hx (s.entered m frame?) (k.silent (s := s) ⟨rfl, rfl, rfl⟩ hs)
  rw [Run.inCall, Routine.closing, Run.inCall, Routine.closing, hentered]
  generalize x (s.entered m frame?) = o, y ((s.entered m frame?).spelled k.sp) = o' at hends ⊢
  cases hends with
  | gaveUp h => exact .gaveUp h
  | done a ht =>
    dsimp only
    rw [hreturned]
    exact .done a (hback ht)
  | exit signal ht =>
    dsimp only
    rw [hreturned]
    exact .exit signal (hback ht)
  | exhausted => exact .exhausted

theorem iterate {image : α → β} {var : γ → δ} {step : γ → Run (γ ⊕ α)} {step' : δ → Run (δ ⊕ β)}
    (hstep : ∀ b, k.Follows (Sum.map var image) (step b) (step' (var b))) (budget : Nat) (b : γ) :
    k.Follows image (Routine.iterate step budget b) (Routine.iterate step' budget (var b)) := by
  induction budget generalizing b with
  | zero => exact k.giveUp image
  | succ budget ih =>
    rw [Routine.iterate_succ_eq, Routine.iterate_succ_eq]
    refine k.bind (hstep b) fun r => ?_
    cases r with
    | inl b' => exact ih b'
    | inr a => exact k.ret image a

/-! ## Errors -/

theorem raise (image : α → β) (e : ScriptError) :
    k.Follows image (Run.raise e) (Run.raise (e.spelled k.sp)) := by
  intro s hs
  have hsilent : s.Silent (s.note (s.traced e)) := by
    unfold Session.note
    split <;> exact ⟨rfl, rfl, rfl⟩
  simp only [Run.raise, Session.traced_spelled, Session.note_spelled]
  exact .exit (.error (s.traced e)) (k.silent hsilent hs)

theorem error (image : α → β) {e : ScriptError} (hb : e.backtrace = none) (hx : e.extra = []) :
    k.Follows image (Run.raise e) (Run.raise e) := by
  have h := k.raise image e
  rwa [ScriptError.spelled_of_fresh hb hx] at h

theorem fault (image : α → β) (f : Fault) (location : Location) :
    k.Follows image (Run.fault f location) (Run.fault f location) :=
  k.error image rfl rfl

theorem location : k.Follows id (Routine.view Session.location) (Routine.view Session.location) :=
  k.look fun _ => rfl

theorem faultHere (image : α → β) (f : Fault) :
    k.Follows image (Run.faultHere f) (Run.faultHere f) :=
  k.bind k.location fun location => k.fault image f location

theorem moveTo (location : Location) :
    k.Follows id (Run.moveTo location) (Run.moveTo location) :=
  k.update (fun _ => ⟨rfl, rfl, rfl⟩) fun _ => rfl

theorem complain (text : String) :
    k.Follows id (Run.write .stderr text) (Run.write .stderr text) :=
  k.update (fun _ => ⟨rfl, rfl, rfl⟩) fun _ => rfl

/-! ## Pauses -/

theorem disarm : k.Follows id
    (Routine.modify fun s => { s with options := { s.options with stopOnCrash := false } })
    (Routine.modify fun s => { s with options := { s.options with stopOnCrash := false } }) :=
  k.update (fun _ => ⟨rfl, rfl, rfl⟩) fun _ => rfl

theorem debugMode (mode : Bool) : k.Follows id
    (Routine.modify fun s => { s with debugMode := mode })
    (Routine.modify fun s => { s with debugMode := mode }) :=
  k.update (fun _ => ⟨rfl, rfl, rfl⟩) fun _ => rfl

theorem quit (image : α → β) (location : Location) :
    k.Follows image (Run.quit location) (Run.quit location) :=
  k.bind k.disarm fun _ => k.leave image (.debugExit location)

theorem pauseAt (pause : Break) :
    k.Follows id (Run.pauseAt pause) (Run.pauseAt (pause.spelled k.sp)) := by
  have asked : k.Follows id (Routine.change (Session.consult · pause))
      (Routine.change (Session.consult · (pause.spelled k.sp))) := by
    intro s hs
    obtain ⟨heq, hfit⟩ := k.consult pause hs
    rw [Routine.change, Routine.change, heq]
    exact .done _ hfit
  refine k.bind asked fun action => ?_
  cases action with
  | proceed => exact k.debugMode false
  | step => exact k.ret id ()
  | exit => exact k.quit id pause.location

theorem checkpoint (statement : Statement) :
    k.Follows id (Run.checkpoint statement) (Run.checkpoint (statement.spelled k.sp)) := by
  have polled : k.Follows id Run.poll Run.poll := by
    unfold Run.poll
    rw [Routine.change_eq]
    refine k.bind (k.look fun _ => rfl) fun command => ?_
    exact k.bind (k.update (fun _ => ⟨rfl, rfl, rfl⟩) fun _ => rfl) fun _ => k.ret id command
  have hblock : Run.isBlock (statement.spelled k.sp) = Run.isBlock statement := by
    cases statement <;> rfl
  refine k.bind polled fun command => ?_
  cases command with
  | proceed => exact k.ret id ()
  | pause =>
    refine k.bind (k.debugMode true) fun _ => ?_
    rw [hblock, Statement.location_spelled, Statement.describe_spelled]
    split
    · exact k.ret id ()
    · exact k.pauseAt ⟨statement.location, statement.describe, none⟩
  | exit =>
    have hquit := k.quit (id : Unit → Unit) statement.location
    simpa only [Run.obey, Statement.location_spelled, id] using hquit

theorem crash (image : α → β) (signal : Signal) :
    k.Follows image (Run.crash signal) (Run.crash (signal.spelled k.sp)) := by
  cases signal with
  | error e =>
    refine k.bind (k.look fun _ => rfl) fun crashes => ?_
    cases crashes with
    | true =>
      refine k.bind k.disarm fun _ => k.bind k.location fun location => ?_
      exact k.bind (k.pauseAt ⟨location, "crash", some e⟩) fun _ => k.leave image (.error e)
    | false => exact k.leave image (.error e)
  | _ => exact k.leave image _

theorem escape (image : α → β) (signal : Signal) :
    k.Follows image (Run.escape signal) (Run.escape (signal.spelled k.sp)) := by
  cases signal with
  | exitFor | exitWhile | continueFor | continueWhile | goto => exact k.fault image _ _
  | returning | ending | debugExit | error => exact k.leave image _

/-! ## Collections -/

theorem array (r : ArrayRef) :
    k.Follows (ArrayObject.spelled k.sp) (Run.array r) (Run.array r) :=
  k.view fun s => s.heap.array_spelled r

theorem assoc (r : AssocRef) :
    k.Follows (AssocArray.spelled k.sp) (Run.assoc r) (Run.assoc r) :=
  k.view fun s => s.heap.assoc_spelled r

/-- A run that makes a value and changes the heap along with it. -/
theorem allocate {f g : Heap → Value × Heap}
    (h : ∀ heap : Heap, g (heap.spelled k.sp) =
      ((f heap).1.spelled k.sp, (f heap).2.spelled k.sp)) :
    k.Gives (Routine.change fun s => ((f s.heap).1, { s with heap := (f s.heap).2 }))
      (Routine.change fun s => ((g s.heap).1, { s with heap := (g s.heap).2 })) := by
  rw [Routine.change_eq, Routine.change_eq]
  refine k.bind (k.view fun s => congrArg Prod.fst (h s.heap)) fun v => ?_
  refine k.bind (k.update (fun _ => ⟨rfl, rfl, rfl⟩) fun s => ?_) fun _ => k.ret _ v
  exact congrArg (fun heap : Heap => { s.spelled k.sp with heap := heap })
    (congrArg Prod.snd (h s.heap))

theorem newArray (a : ArrayObject) : k.Gives (Run.newArray a) (Run.newArray (a.spelled k.sp)) :=
  k.allocate (f := fun h => (.array (h.newArray a).1, (h.newArray a).2))
    (g := fun h => (.array (h.newArray (a.spelled k.sp)).1, (h.newArray (a.spelled k.sp)).2))
    fun heap => congrArg (fun made => (Value.array made.1, made.2)) (heap.newArray_spelled a)

theorem newAssoc (a : AssocArray) : k.Gives (Run.newAssoc a) (Run.newAssoc (a.spelled k.sp)) :=
  k.allocate (f := fun h => (.assoc (h.newAssoc a).1, (h.newAssoc a).2))
    (g := fun h => (.assoc (h.newAssoc (a.spelled k.sp)).1, (h.newAssoc (a.spelled k.sp)).2))
    fun heap => congrArg (fun made => (Value.assoc made.1, made.2)) (heap.newAssoc_spelled a)

theorem modifyArray (r : ArrayRef) {f g : ArrayObject → ArrayObject}
    (h : ∀ a, g (a.spelled k.sp) = (f a).spelled k.sp) :
    k.Follows id (Run.modifyArray r f) (Run.modifyArray r g) :=
  k.update (fun _ => ⟨rfl, rfl, rfl⟩) fun s =>
    congrArg (fun heap : Heap => { s.spelled k.sp with heap := heap })
      (s.heap.modifyArray_spelled r h)

theorem modifyAssoc (r : AssocRef) {f g : AssocArray → AssocArray}
    (h : ∀ a, g (a.spelled k.sp) = (f a).spelled k.sp) :
    k.Follows id (Run.modifyAssoc r f) (Run.modifyAssoc r g) :=
  k.update (fun _ => ⟨rfl, rfl, rfl⟩) fun s =>
    congrArg (fun heap : Heap => { s.spelled k.sp with heap := heap })
      (s.heap.modifyAssoc_spelled r h)

/-! ## Bindings -/

theorem modifyScopes {f g : Scopes → Scopes} (h : ∀ s, g (s.spelled k.sp) = (f s).spelled k.sp) :
    k.Follows id (Run.modifyScopes f) (Run.modifyScopes g) :=
  k.update (fun _ => ⟨rfl, rfl, rfl⟩) fun s =>
    congrArg (fun scopes : Scopes => { s.spelled k.sp with scopes := scopes }) (h s.scopes)

/-- A variable is bound under a name whose spelling does not matter. -/
theorem bindLocal {name name' : Identifier} (hname : Text.fold name'.name = Text.fold name.name)
    (hlocation : name'.location = name.location) (v : Value) :
    k.Follows id (Run.bindLocal name v) (Run.bindLocal name' (v.spelled k.sp)) := by
  unfold Run.bindLocal
  rw [hname, hlocation, Value.kind_spelled]
  split
  · exact k.error id rfl rfl
  · refine k.modifyScopes fun s => ?_
    rw [Scopes.spelled_bind]
    simp only [Scopes.bind, hname]

theorem lookup (name : Identifier) : k.Gives (Run.lookup name) (Run.lookup (name.spelled k.sp)) :=
  k.view fun s => s.scopes.get_spelled name

theorem freshIdentity : k.Follows id Run.freshIdentity Run.freshIdentity := by
  unfold Run.freshIdentity
  rw [Routine.change_eq]
  refine k.bind (k.look fun _ => rfl) fun i => ?_
  exact k.bind (k.update (fun _ => ⟨rfl, rfl, rfl⟩) fun _ => rfl) fun _ => k.ret id i

theorem readClock : k.Follows id Run.readClock Run.readClock := by
  unfold Run.readClock
  rw [Routine.change_eq]
  refine k.bind (k.look fun _ => rfl) fun reading => ?_
  exact k.bind (k.update (fun _ => ⟨rfl, rfl, rfl⟩) fun _ => rfl) fun _ => k.ret id reading

end Mirror

end BrightScript
