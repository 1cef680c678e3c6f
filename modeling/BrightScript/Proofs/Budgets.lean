import BrightScript.Proofs.Contract

/-!
# Larger budgets

A run that ends does so in the same way under every larger budget. A budget bounds two things: how
deep evaluation nests, and how many passes a loop makes. They are compared one after the other.
Where the passes have the same bound, evaluators of which the first ends as the second one does
nest to such evaluators, because ending so is a simulation (`Simulation.within`). Where the
evaluator is the same, one more pass only helps a loop that had given up (`Run.Within.iterate`).
-/

namespace BrightScript

/-- A run gives up, or ends as another run does and with a result that satisfies `Q`. -/
def Run.Within {α : Type} (Q : α → Prop) (x x' : Run α) : Prop :=
  ∀ s, x s = .exhausted ∨ x s = x' s ∧ ∀ a t, x s = .done a t → Q a

namespace Run.Within

variable {α β : Type} {Q : α → Prop} {R : β → Prop}

theorem same {x : Run α} (h : ∀ s a t, x s = .done a t → Q a) : Within Q x x :=
  fun s => .inr ⟨rfl, h s⟩

theorem refl (x : Run α) : Within (fun _ => True) x x :=
  same fun _ _ _ _ => trivial

theorem trans {x y z : Run α} (h : Within Q x y) (h' : Within Q y z) : Within Q x z := by
  intro s
  rcases h s with hx | ⟨hxy, hq⟩
  · exact .inl hx
  · rcases h' s with hy | ⟨hyz, -⟩
    · exact .inl (hxy.trans hy)
    · exact .inr ⟨hxy.trans hyz, hq⟩

theorem bind {x x' : Run α} {f f' : α → Run β} (hx : Within Q x x')
    (hf : ∀ a, Q a → Within R (f a) (f' a)) : Within R (x >>= f) (x' >>= f') := by
  intro s
  rw [Routine.bind_apply, Routine.bind_apply]
  rcases hx s with hgave | ⟨heq, hq⟩
  · exact .inl (by rw [hgave])
  · rw [← heq]
    cases hxs : x s with
    | done a t => exact hf a (hq a t hxs) t
    | exit signal t => exact .inr ⟨rfl, fun _ _ h => by cases h⟩
    | exhausted => exact .inl rfl

theorem intercept {x x' : Run α} {f f' : Except Signal α → Run β} (hx : Within Q x x')
    (hok : ∀ a, Q a → Within R (f (.ok a)) (f' (.ok a)))
    (herror : ∀ signal, Within R (f (.error signal)) (f' (.error signal))) :
    Within R (Routine.attempt x >>= f) (Routine.attempt x' >>= f') := by
  intro s
  rw [Routine.attempt_bind_apply, Routine.attempt_bind_apply]
  rcases hx s with hgave | ⟨heq, hq⟩
  · exact .inl (by rw [hgave])
  · rw [← heq]
    cases hxs : x s with
    | done a t => exact hok a (hq a t hxs) t
    | exit signal t => exact herror signal t
    | exhausted => exact .inl rfl

theorem leave (signal : Signal) : Within Q (Routine.leave signal) (Routine.leave signal) :=
  same fun _ _ _ h => by cases h

theorem catching {x x' : Run Unit} {handler handler' : ScriptError → Run Unit}
    (hx : Within (fun _ => True) x x')
    (hh : ∀ e, Within (fun _ => True) (handler e) (handler' e)) :
    Within (fun _ => True) (Run.catching x handler) (Run.catching x' handler') := by
  intro s
  rw [Run.catching, Run.catching]
  rcases hx (s.withTry true) with hgave | ⟨heq, -⟩
  · exact .inl (by rw [hgave])
  · rw [← heq]
    rcases x (s.withTry true) with ⟨_, t⟩ | ⟨signal, t⟩ | _
    · exact .inr ⟨rfl, fun _ _ _ => trivial⟩
    · cases signal with
      | error e => exact hh e _
      | _ => exact .inr ⟨rfl, fun _ _ _ => trivial⟩
    · exact .inl rfl

theorem printing {x x' : Run String} (hx : Within (fun _ => True) x x') :
    Within (fun _ => True) (Run.printing x) (Run.printing x') := by
  intro s
  rw [Run.printing, Run.printing]
  rcases hx s with hgave | ⟨heq, -⟩
  · exact .inl (by rw [hgave])
  · rw [← heq]
    exact .inr ⟨rfl, fun _ _ _ => trivial⟩

theorem crashing {x x' : Run α} (hx : Within Q x x') :
    Within Q (Routine.handle x Run.crash) (Routine.handle x' Run.crash) := by
  intro s
  rw [Routine.handle, Routine.handle]
  rcases hx s with hgave | ⟨heq, hq⟩
  · exact .inl (by rw [hgave])
  · rw [← heq]
    cases hxs : x s with
    | done a t => exact .inr ⟨rfl, fun b u h => by cases h; exact hq a t hxs⟩
    | exit signal t =>
      refine .inr ⟨rfl, fun a u h => ?_⟩
      -- what is handed to the debugger stays a signal
      cases signal with
      | error e =>
        replace h : Run.crash (.error e) t = Outcome.done a u := h
        obtain ⟨v, hv | hv⟩ := Run.crash_error_cases (α := α) e t <;> rw [hv] at h <;> cases h
      | _ => cases h
    | exhausted => exact .inl rfl

theorem calling {frame? : Option Frame} {returns : Kind} {context : Option AssocRef}
    {call : Location} {x x' : Run Value} (hx : Within (fun _ => True) x x') :
    Within (fun _ => True) (Run.calling frame? returns context call x)
      (Run.calling frame? returns context call x') := by
  intro s
  unfold Run.calling
  split
  · exact .inr ⟨rfl, fun _ _ _ => trivial⟩
  · rw [Run.handle_inCall_apply, Run.handle_inCall_apply]
    rcases hx (s.entered (context.getD s.scopes.rootM) frame?) with hgave | ⟨heq, -⟩
    · exact .inl (by rw [hgave])
    · rw [← heq]
      exact .inr ⟨rfl, fun _ _ _ => trivial⟩

/-- With one more pass a loop that ends does so in the same way. -/
theorem iterate (step : β → Run (β ⊕ α)) (budget : Nat) (b : β) :
    Within (fun _ => True) (Routine.iterate step budget b)
      (Routine.iterate step (budget + 1) b) := by
  induction budget generalizing b with
  | zero => exact fun _ => .inl rfl
  | succ budget ih =>
    rw [Routine.iterate_succ_eq step budget, Routine.iterate_succ_eq step (budget + 1)]
    refine (refl (step b)).bind fun r _ => ?_
    cases r with
    | inl b' => exact ih b'
    | inr a => exact refl _

end Run.Within

/-- Ending as another run does is a simulation. -/
def Simulation.within : Simulation fun _ => True where
  rel _ _ Q x x' := Run.Within Q x x'
  admissible := .trivial
  ofExpression h := h
  ofStatement h := h
  ret ha := .same fun _ _ _ h => by cases h; exact ha
  bind := .bind
  giveUp := fun _ => .inl rfl
  view := fun _ hf => .same fun s _ _ h => by cases h; exact hf s (.trivial s)
  update _ := .refl _
  raise _ := .same fun _ _ _ h => by cases h
  stray _ _ := .same fun _ _ _ h => by cases h
  jump _ := .leave _
  ending := .leave _
  returning _ := .leave _
  intercept := fun hx hok hjump hrest => hx.intercept hok fun signal => by
    cases hj : signal.isJump with
    | true => exact hjump signal hj
    | false =>
      obtain ⟨hf, hf'⟩ := hrest signal hj
      rw [hf, hf']
      exact .leave signal
  checkpoint statement := .refl _
  catching hx hh := hx.catching fun e => hh e fun _ _ => trivial
  printing := .printing
  crashing := .crashing
  calling := .calling

/-! ## More passes -/

namespace Evaluator

variable (ev : Evaluator) (budget : Nat)

theorem call_within (c : Callable) (args : List Value) (context : Option AssocRef)
    (location closing : Location) :
    Run.Within (fun _ => True) (ev.call budget c args context location closing)
      (ev.call (budget + 1) c args context location closing) := by
  unfold call Run.call Run.dispatch
  split
  · refine .calling (.crashing ?_)
    cases c.target with
    | procedure body =>
      refine (Run.Within.refl _).bind fun _ _ => ?_
      exact (Run.Within.iterate _ budget _).bind fun _ _ => .refl _
    | _ => exact .refl _
  · exact .refl _

theorem expression_within (e : Expr) :
    Run.Within (fun _ => True) (ev.expression budget e) (ev.expression (budget + 1) e) := by
  refine (Run.Within.refl _).bind fun _ _ => ?_
  cases e with
  | call callee args optional closing location =>
    refine (Run.Within.refl _).bind fun f _ => (Run.Within.refl _).bind fun values _ => ?_
    cases f with
    | function c => exact ev.call_within budget _ _ _ _ _
    | boxed content =>
      cases content with
      | function c => exact ev.call_within budget _ _ _ _ _
      | _ => exact .refl _
    | _ => exact .refl _
  | _ => exact .refl _

theorem forLoop_within (counter : Identifier) (start final : Expr) (step : Option Expr)
    (body : Block) (resume : Bool) :
    Run.Within (fun _ => True) (ev.forLoop budget counter start final step body resume)
      (ev.forLoop (budget + 1) counter start final step body resume) := by
  refine (Run.Within.refl _).bind fun amount _ => ?_
  have passes (location : Location) : Run.Within (fun _ => True)
      (do Routine.iterate (ev.forPass counter (← ev.evaluate final).unbox amount location body)
            budget ())
      (do Routine.iterate (ev.forPass counter (← ev.evaluate final).unbox amount location body)
            (budget + 1) ()) :=
    (Run.Within.refl _).bind fun _ _ => .iterate _ budget ()
  cases resume with
  | true => exact (Run.Within.refl _).bind fun _ _ => passes _
  | false =>
    exact (Run.Within.refl _).bind fun _ _ => (Run.Within.refl _).bind fun _ _ => passes _

theorem search_within (label : String) (statement : Statement) :
    Run.Within (fun _ => True) (ev.search budget label statement)
      (ev.search (budget + 1) label statement) := by
  have goOn (form : LoopForm) (body : Block) {next next' : Run Unit}
      (h : Run.Within (fun _ => True) next next') :
      Run.Within (fun _ => True) (ev.searchLoop form body next)
        (ev.searchLoop form body next') := by
    refine (Run.Within.refl _).intercept (fun _ _ => (Run.Within.refl _).bind fun b _ => ?_)
      fun signal => ?_
    · cases b with
      | true => exact .refl _
      | false => exact h
    · dsimp only
      rcases signal.turn? form with _ | _ | _
      · exact .refl _
      · exact .refl _
      · exact h
  cases statement with
  | forLoop counter start final step body location =>
    exact goOn .counting body (ev.forLoop_within budget counter start final step body true)
  | whileLoop condition body location =>
    exact goOn .conditional body (Run.Within.iterate (ev.whilePass condition body) budget ())
  | _ => exact .refl _

theorem perform_within (statement : Statement) :
    Run.Within (fun _ => True) (ev.perform budget statement)
      (ev.perform (budget + 1) statement) := by
  cases statement with
  | forLoop counter start final step body location =>
    exact ev.forLoop_within budget counter start final step body false
  | whileLoop condition body location => exact .iterate _ budget ()
  | _ => exact .refl _

theorem statement_within (statement : Statement) :
    Run.Within (fun _ => True) (ev.statement budget statement)
      (ev.statement (budget + 1) statement) := by
  refine (Run.Within.refl _).bind fun pending _ => ?_
  cases pending with
  | some label => exact ev.search_within budget label statement
  | none => exact (Run.Within.refl _).bind fun _ _ => ev.perform_within budget statement

/-! ## All budgets -/

theorem ofBudget_succ (n : Nat) :
    Simulation.within.Related (ofBudget n) (ofBudget (n + 1)) := by
  induction n with
  | zero => exact ⟨fun _ _ => .inl rfl, fun _ _ => .inl rfl⟩
  | succ n ih =>
    have nested := ih.succ Simulation.within n
    exact ⟨fun e => (nested.evaluate e).trans ((ofBudget (n + 1)).expression_within n e),
      fun st => (nested.execute st).trans ((ofBudget (n + 1)).statement_within n st)⟩

/-- A run that ends does so in the same way under every larger budget. -/
theorem ofBudget_le {n m : Nat} (h : n ≤ m) :
    Simulation.within.Related (ofBudget n) (ofBudget m) := by
  induction h with
  | refl => exact Simulation.within.ofBudget n
  | step _ ih =>
    exact ⟨fun e => (ih.evaluate e).trans ((ofBudget_succ _).evaluate e),
      fun st => (ih.execute st).trans ((ofBudget_succ _).execute st)⟩

end Evaluator

/-! ## Families of runs -/

/-- Runs for every budget end in a given way where the budget is large enough, and elsewhere they do
so or give up. -/
def Run.ComesTo {α : Type} (x : Nat → Run α) (s : Session)
    (o : Nat → Outcome Signal Session α) : Prop :=
  ∃ enough, ∀ n, x n s = .exhausted ∧ n < enough ∨ x n s = o n

namespace Run.ComesTo

variable {α β : Type} {x : Nat → Run α} {s t : Session} {o : Nat → Outcome Signal Session α}

theorem ofWithin {Q : α → Prop} (hx : ∀ {n m}, n ≤ m → Within Q (x n) (x m)) {n : Nat}
    {o : Outcome Signal Session α} (hn : x n s = o) (ho : o ≠ .exhausted) :
    ComesTo x s fun _ => o := by
  refine ⟨n, fun m => ?_⟩
  rw [← hn] at ho ⊢
  obtain hlt | hle := Nat.lt_or_ge m n
  · obtain h | ⟨h, -⟩ := hx (Nat.le_of_lt hlt) s
    · exact .inl ⟨h, hlt⟩
    · exact .inr h
  · obtain h | ⟨h, -⟩ := hx hle s
    · exact absurd h ho
    · exact .inr h.symm

theorem bind {a : α} (hx : ComesTo x s fun _ => .done a t) (f : Nat → α → Run β) :
    ComesTo (fun n => x n >>= f n) s fun n => f n a t := by
  obtain ⟨enough, hx⟩ := hx
  refine ⟨enough, fun n => ?_⟩
  dsimp only
  rw [Routine.bind_apply]
  obtain ⟨hgave, hlt⟩ | hdone := hx n
  · exact .inl ⟨by rw [hgave], hlt⟩
  · exact .inr (by rw [hdone])

theorem trans {y : Nat → Run α} (hx : ComesTo x s fun n => y n t) (hy : ComesTo y t o) :
    ComesTo x s o := by
  obtain ⟨enough, hx⟩ := hx
  obtain ⟨later, hy⟩ := hy
  refine ⟨max enough later, fun n => ?_⟩
  obtain ⟨hgave, hlt⟩ | hsame := hx n
  · exact .inl ⟨hgave, by omega⟩
  · rw [hsame]
    obtain ⟨hgave, hlt⟩ | hends := hy n
    · exact .inl ⟨hgave, by omega⟩
    · exact .inr hends

end Run.ComesTo

end BrightScript
