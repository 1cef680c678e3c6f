import BrightScript.Proofs.Parameters
import BrightScript.Proofs.SharedScopes

/-!
# Runs that leave the variables alone

Expressions, pauses, refusals, declarations and the working out of a printed line change no variable
of the call they run in. The rules for statements pass nested expressions to helpers, which do the
same however nested statements are executed. A `print` binds its helpers and removes them again.
-/

namespace BrightScript

theorem Routine.state?_bind {ε σ α β : Type} {x : Routine ε σ α} {f : α → Routine ε σ β} {s u : σ}
    (h : ((x >>= f) s).state? = some u) :
    (∃ a t, x s = .done a t ∧ (f a t).state? = some u) ∨ ∃ e, x s = .exit e u := by
  rw [bind_apply] at h
  cases hx : x s with
  | done a t =>
    rw [hx] at h
    exact .inl ⟨a, t, rfl, h⟩
  | exit e t =>
    rw [hx] at h
    cases h
    exact .inr ⟨e, rfl⟩
  | exhausted =>
    rw [hx] at h
    cases h

theorem Run.rejectReserved_bind {α : Type} {name : Identifier} (h : name.isReserved = true)
    (message : String) (x : Run α) : (rejectReserved name message >>= fun _ => x) =
      raise (.plain s!"{message} '{name.name}'" name.location) := by
  rw [rejectReserved, if_pos h]
  rfl

/-- A run after which the variables of the current call are what they were. -/
def Run.Steady {α : Type} (x : Run α) : Prop :=
  ∀ s t, (x s).state? = some t → t.locals = s.locals ∧ s.scopes.GrowsTo t.scopes

namespace Run.Steady

variable {α β : Type}

theorem bind {x : Run α} {f : α → Run β} (hx : Steady x) (hf : ∀ a, Steady (f a)) :
    Steady (x >>= f) := by
  intro s u hu
  obtain ⟨a, t, ht, hu⟩ | ⟨e, he⟩ := Routine.state?_bind hu
  · have hfirst := hx s t (by rw [ht]; rfl)
    have hrest := hf a t u hu
    exact ⟨hrest.1.trans hfirst.1, hfirst.2.trans hrest.2⟩
  · exact hx s u (by rw [he]; rfl)

/-- A run after which all bindings are what they were. -/
theorem ofScopes {x : Run α} (hx : ∀ s t, (x s).state? = some t → t.scopes = s.scopes) :
    Steady x := by
  intro s t ht
  have hscopes := hx s t ht
  exact ⟨congrArg (fun scopes => scopes.active.locals) hscopes,
    .ofShared (congrArg Scopes.globals hscopes) (congrArg Scopes.modules hscopes)⟩

theorem pure (a : α) : Steady (Pure.pure a) :=
  ofScopes fun _ _ ht => by cases ht; rfl

theorem leave (signal : Signal) : Steady (Routine.leave signal : Run α) :=
  ofScopes fun _ _ ht => by cases ht; rfl

theorem view (f : Session → α) : Steady (Routine.view f) :=
  ofScopes fun _ _ ht => by cases ht; rfl

theorem change {f : Session → α × Session} (hf : ∀ s, (f s).2.scopes = s.scopes) :
    Steady (Routine.change f) :=
  ofScopes fun s _ ht => by cases ht; exact hf s

theorem modify {f : Session → Session} (hf : ∀ s, (f s).scopes = s.scopes) :
    Steady (Routine.modify f) :=
  change (f := fun s => ((), f s)) hf

theorem ofExpression {x : Run α}
    (h : ∀ sim : Simulation fun _ => True, sim.rel .expression (fun _ => True) x x) :
    Steady x := by
  intro s t ht
  have hframes := Contract.sameFrames_of_ends
    (h (Contract.frames False).simulation s False.elim).2 ht
  have hgrows := Contract.growsTo_of_ends (h Contract.sharedScopes.simulation s trivial).2 ht
  have hactive : t.scopes.active = s.scopes.active := hframes.active
  exact ⟨congrArg Activation.locals hactive, hgrows⟩

theorem evaluate (n : Nat) (e : Expr) : Steady (BrightScript.evaluate n e) :=
  ofExpression fun sim => (sim.ofBudget n).evaluate e

theorem raise (e : ScriptError) : Steady (Run.raise e : Run α) :=
  ofScopes fun s _ ht => by
    cases ht
    exact congrArg Core.scopes (Session.core_note s (s.traced e))

theorem setPending (label : Option String) :
    Steady (Run.modifyScopes (·.setPending label)) := by
  intro s t ht
  cases ht
  exact ⟨rfl, .ofShared rfl rfl⟩

theorem checkpoint (statement : Statement) : Steady (Run.checkpoint statement) := by
  refine ofScopes fun s t ht => ?_
  obtain ⟨u, hu, hcore⟩ | ⟨_, u, hu, hcore⟩ := Run.checkpoint_cases statement s
  all_goals
    rw [hu] at ht
    cases ht
    exact congrArg Core.scopes hcore

theorem approach (statement : Statement) : Steady (Evaluator.approach statement) := by
  refine ofScopes fun s t ht => ?_
  obtain ⟨u, hu, hcore⟩ | ⟨_, u, hu, hcore⟩ := Evaluator.approach_cases statement s
  all_goals
    rw [hu] at ht
    cases ht
    exact congrArg Core.scopes hcore

theorem crash (signal : Signal) : Steady (Run.crash signal : Run α) :=
  ofScopes fun _ _ ht => congrArg Core.scopes (Run.serviced_crash ht).core

theorem rejectReserved (name : Identifier) (message : String) :
    Steady (Run.rejectReserved name message) := by
  unfold Run.rejectReserved
  split
  · exact raise _
  · exact pure ()

theorem declare (name : Identifier) (body : Procedure) : Steady (Run.declare name body) := by
  intro s t ht
  have hgrows := Contract.growsTo_of_ends
    (Contract.sharedScopes.simulation.declare name body s trivial).2 ht
  refine ⟨?_, hgrows⟩
  obtain ⟨_, u, hu, ht⟩ | ⟨signal, hu⟩ := Routine.state?_bind ht
  · have hfirst := (rejectReserved name _ s u (by rw [hu]; rfl)).1
    rw [Routine.bind_apply, Routine.view_apply] at ht
    dsimp only at ht
    split at ht
    · cases hd : u.scopes.definedAt? name.name with
      | none =>
        rw [hd] at ht
        cases ht
        exact hfirst
      | some previous =>
        rw [hd] at ht
        dsimp only at ht
        split at ht
        · cases ht
          exact hfirst
        · exact (raise _ u t ht).1.trans hfirst
    · cases ht
      have hactive : (u.scopes.declare name body).active = u.scopes.active := by
        unfold Scopes.declare
        split <;> rfl
      exact (congrArg Activation.locals hactive).trans hfirst
  · exact (rejectReserved name _ s t (by rw [hu]; rfl)).1

end Run.Steady

/-! ## Evaluation with statements executed in another way -/

/-- Evaluation under a budget, with statements executed as given. -/
def Evaluator.executing (n : Nat) (execute : Statement → Run Unit) : Evaluator :=
  ⟨BrightScript.evaluate n, execute⟩

namespace Evaluator

variable (n : Nat) (execute : Statement → Run Unit)

theorem sizes_executing (total : Nat) (dimensions : List Expr) :
    (executing n execute).sizes total dimensions = (ofBudget n).sizes total dimensions := by
  induction dimensions generalizing total with
  | nil => rfl
  | cons dimension rest ih =>
    unfold sizes
    simp only [ih]
    rfl

theorem storeThrough_executing (closing location : Location) (v current : Value)
    (indexes : List Expr) :
    (executing n execute).storeThrough closing location v current indexes =
      (ofBudget n).storeThrough closing location v current indexes := by
  induction indexes generalizing current with
  | nil => rfl
  | cons index rest ih =>
    unfold storeThrough
    simp only [ih]
    rfl

theorem indexedSet_executing (object : Expr) (indexes : List Expr) (v : Value)
    (closing location : Location) :
    (executing n execute).indexedSet object indexes v closing location =
      (ofBudget n).indexedSet object indexes v closing location := by
  unfold indexedSet
  simp only [storeThrough_executing]
  rfl

theorem printItems_executing (line : String) (items : List PrintItem) :
    (executing n execute).printItems line items = (ofBudget n).printItems line items := by
  induction items generalizing line with
  | nil => rfl
  | cons item rest ih =>
    unfold printItems
    simp only [ih]
    rfl

theorem print_executing (items : List PrintItem) :
    (executing n execute).print items = (ofBudget n).print items := by
  unfold print printLine
  simp only [printItems_executing]

theorem bindParameters_executing (parameters : List Parameter) (args : List Value) :
    (executing n execute).bindParameters parameters args =
      (ofBudget n).bindParameters parameters args := by
  induction parameters generalizing args with
  | nil => rfl
  | cons p rest ih =>
    cases args with
    | nil =>
      unfold bindParameters
      simp only [ih]
      rfl
    | cons a more =>
      unfold bindParameters
      simp only [ih]

end Evaluator

/-! ## Printing -/

theorem Run.Steady.printLine (n : Nat) (items : List PrintItem) :
    Run.Steady ((Evaluator.ofBudget n).printLine items) := by
  have pieces (line : String) : Run.Steady ((Evaluator.ofBudget n).printItems line items) := by
    induction items generalizing line with
    | nil => exact pure line
    | cons item rest ih =>
      refine bind (ofExpression fun sim => sim.printItem (sim.ofBudget n) item) fun piece => ?_
      exact bind (modify fun _ => rfl) fun _ => ih _
  refine bind (pieces "") fun line => ?_
  split
  · exact pure line
  · exact bind (modify fun _ => rfl) fun _ => pure _

/-- After a `print` the names of its helpers are free, and all other variables are what they
were. -/
theorem Evaluator.locals_of_print {n : Nat} {items : List PrintItem} {s t : Session}
    (ht : ((ofBudget n).print items s).state? = some t) (key : String) :
    t.locals[key]? =
      if key = Text.fold Builtin.tab.name ∨ key = Text.fold Builtin.pos.name then none
      else s.locals[key]? := by
  let tab : Value := .function ⟨.fresh s.nextIdentity, .builtin .tab, none⟩
  let pos : Value := .function ⟨.fresh (s.nextIdentity + 1), .builtin .pos, none⟩
  let helped : Session :=
    { s with
      nextIdentity := s.nextIdentity + 2,
      scopes := (s.scopes.bind Builtin.tab.name tab).bind Builtin.pos.name pos }
  have hprint : (ofBudget n).print items s =
      Run.printing ((ofBudget n).printLine items) helped :=
    rfl
  obtain ⟨u, hu, htu⟩ : ∃ u, ((ofBudget n).printLine items helped).state? = some u ∧
      t.locals = (u.locals.erase (Text.fold Builtin.tab.name)).erase
        (Text.fold Builtin.pos.name) := by
    rw [hprint, Run.printing] at ht
    cases hx : (ofBudget n).printLine items helped with
    | done line u =>
      rw [hx] at ht
      cases ht
      exact ⟨u, rfl, rfl⟩
    | exit signal u =>
      rw [hx] at ht
      cases ht
      exact ⟨u, rfl, rfl⟩
    | exhausted =>
      rw [hx] at ht
      cases ht
  have hlocals : u.locals = (s.locals.insert (Text.fold Builtin.tab.name) tab).insert
      (Text.fold Builtin.pos.name) pos := (Run.Steady.printLine n items helped u hu).1
  have hcompare (name : String) : compare name key = .eq ↔ key = name :=
    ⟨fun h => (Std.LawfulEqCmp.eq_of_compare h).symm, fun h => h ▸ Std.ReflCmp.compare_self⟩
  rw [htu, hlocals]
  simp only [Std.ExtTreeMap.getElem?_erase, Std.ExtTreeMap.getElem?_insert, hcompare]
  by_cases htab : key = Text.fold Builtin.tab.name <;>
    by_cases hpos : key = Text.fold Builtin.pos.name <;> simp [htab, hpos]

end BrightScript
