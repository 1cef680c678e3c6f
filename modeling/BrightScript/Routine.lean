/-!
# Routines

A routine works on a state and ends in one of three ways: with a result, with an early exit, or
without either because its step budget is used up. The first two hand over the state they reached.
Parsing and running scripts are routines; their recursion is bounded by the budget, and an exhausted
outcome is never confused with a result or an exit.

`iterate` is the one loop: it repeats a step on a loop variable until the step says it is finished.
-/

namespace BrightScript

/-- How a routine ends. -/
inductive Outcome (ε σ α : Type) where
  | done (result : α) (state : σ)
  | exit (reason : ε) (state : σ)
  | exhausted

/-- A computation on a state of type `σ` with exits of type `ε`. -/
def Routine (ε σ α : Type) : Type :=
  σ → Outcome ε σ α

namespace Routine

variable {ε σ α β : Type}

/-- Ends with a result and changes nothing. -/
@[always_inline, inline]
protected def pure (a : α) : Routine ε σ α :=
  fun s => .done a s

/-- Goes on with the result of a routine, if it has one. -/
@[always_inline, inline]
protected def bind (x : Routine ε σ α) (f : α → Routine ε σ β) : Routine ε σ β :=
  fun s =>
    match x s with
    | .done a t => f a t
    | .exit e t => .exit e t
    | .exhausted => .exhausted

@[always_inline]
instance : Monad (Routine ε σ) where
  pure := Routine.pure
  bind := Routine.bind

@[always_inline, inline]
def get : Routine ε σ σ :=
  fun s => .done s s

@[always_inline, inline]
def view (f : σ → α) : Routine ε σ α :=
  fun s => .done (f s) s

@[always_inline, inline]
def modify (f : σ → σ) : Routine ε σ Unit :=
  fun s => .done () (f s)

@[always_inline, inline]
def change (f : σ → α × σ) : Routine ε σ α :=
  fun s =>
    match f s with
    | (a, t) => .done a t

@[always_inline, inline]
def leave (reason : ε) : Routine ε σ α :=
  fun s => .exit reason s

/-- Ends without a result or an exit. -/
@[always_inline, inline]
def giveUp : Routine ε σ α :=
  fun _ => .exhausted

/-- The way a routine ended, as a result; only exhaustion is passed on. -/
@[always_inline, inline]
def attempt (x : Routine ε σ α) : Routine ε σ (Except ε α) :=
  fun s =>
    match x s with
    | .done a t => .done (.ok a) t
    | .exit e t => .done (.error e) t
    | .exhausted => .exhausted

/-- Ends as the given attempt did. -/
@[always_inline, inline]
def resume (r : Except ε α) : Routine ε σ α :=
  match r with
  | .ok a => Routine.pure a
  | .error e => leave e

/-- Gives an early exit to a handler. -/
@[always_inline, inline]
def handle (x : Routine ε σ α) (handler : ε → Routine ε σ α) : Routine ε σ α :=
  fun s =>
    match x s with
    | .done a t => .done a t
    | .exit e t => handler e t
    | .exhausted => .exhausted

@[always_inline, inline]
def closing (close : σ → σ) (x : Routine ε σ α) : Routine ε σ α :=
  fun s =>
    match x s with
    | .done a t => .done a (close t)
    | .exit e t => .exit e (close t)
    | .exhausted => .exhausted

/-- Repeats a step at most `budget` times. The step either goes on with a new loop variable or
finishes with the result of the loop. -/
def iterate (step : β → Routine ε σ (β ⊕ α)) : (budget : Nat) → β → Routine ε σ α
  | 0, _ => giveUp
  | budget + 1, b => fun s =>
    match step b s with
    | .done (.inl b') t => iterate step budget b' t
    | .done (.inr a) t => .done a t
    | .exit e t => .exit e t
    | .exhausted => .exhausted

theorem id_map_apply (x : Routine ε σ α) : id <$> x = x := by
  funext s
  show Routine.bind x _ s = x s
  unfold Routine.bind
  cases x s <;> rfl

theorem assoc_apply {γ : Type} (x : Routine ε σ α) (f : α → Routine ε σ β) (g : β → Routine ε σ γ) :
    x >>= f >>= g = x >>= fun a => f a >>= g := by
  funext s
  show Routine.bind (Routine.bind x f) g s = Routine.bind x _ s
  unfold Routine.bind
  cases x s <;> rfl

instance : LawfulMonad (Routine ε σ) :=
  LawfulMonad.mk' (Routine ε σ) id_map_apply (fun _ _ => rfl) assoc_apply

/-! ## Equations -/

@[simp] theorem pure_apply (a : α) (s : σ) : (pure a : Routine ε σ α) s = .done a s := rfl

theorem bind_apply (x : Routine ε σ α) (f : α → Routine ε σ β) (s : σ) :
    (x >>= f) s =
      match x s with
      | .done a t => f a t
      | .exit e t => .exit e t
      | .exhausted => .exhausted := rfl

@[simp] theorem get_apply (s : σ) : (get : Routine ε σ σ) s = .done s s := rfl

@[simp] theorem view_apply (f : σ → α) (s : σ) : (view f : Routine ε σ α) s = .done (f s) s := rfl

@[simp] theorem modify_apply (f : σ → σ) (s : σ) :
    (modify f : Routine ε σ Unit) s = .done () (f s) := rfl

@[simp] theorem leave_apply (e : ε) (s : σ) : (leave e : Routine ε σ α) s = .exit e s := rfl

@[simp] theorem iterate_zero (step : β → Routine ε σ (β ⊕ α)) (b : β) (s : σ) :
    iterate step 0 b s = .exhausted := rfl

theorem iterate_succ (step : β → Routine ε σ (β ⊕ α)) (budget : Nat) (b : β) (s : σ) :
    iterate step (budget + 1) b s =
      match step b s with
      | .done (.inl b') t => iterate step budget b' t
      | .done (.inr a) t => .done a t
      | .exit e t => .exit e t
      | .exhausted => .exhausted := rfl

theorem iterate_succ_eq (step : β → Routine ε σ (β ⊕ α)) (budget : Nat) (b : β) :
    iterate step (budget + 1) b = step b >>= Sum.elim (iterate step budget) pure := by
  funext s
  rw [iterate_succ, bind_apply]
  rcases step b s with ⟨_ | _, t⟩ | ⟨e, t⟩ | _ <;> rfl

theorem bind_eq_done {x : Routine ε σ α} {f : α → Routine ε σ β} {s t : σ} {b : β} :
    (x >>= f) s = .done b t ↔ ∃ a u, x s = .done a u ∧ f a u = .done b t := by
  rw [bind_apply]
  cases x s with
  | done a u =>
    exact ⟨fun h => ⟨a, u, rfl, h⟩, fun ⟨_, _, he, h⟩ => by cases he; exact h⟩
  | exit e u => simp
  | exhausted => simp

theorem bind_eq_exit {x : Routine ε σ α} {f : α → Routine ε σ β} {s t : σ} {e : ε} :
    (x >>= f) s = .exit e t ↔
      x s = .exit e t ∨ ∃ a u, x s = .done a u ∧ f a u = .exit e t := by
  rw [bind_apply]
  cases x s with
  | done a u =>
    constructor
    · exact fun h => .inr ⟨a, u, rfl, h⟩
    · rintro (h | ⟨_, _, he, h⟩)
      · cases h
      · cases he
        exact h
  | exit e' u => simp
  | exhausted => simp

end Routine

end BrightScript
