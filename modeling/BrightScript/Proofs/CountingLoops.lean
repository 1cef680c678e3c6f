import BrightScript.Proofs.Budgets
import BrightScript.Proofs.DeclarationOrder
import BrightScript.Proofs.Discipline

/-!
# How often a counting loop runs its body

A loop over 32-bit integers is meant to run its body `⌊(last - first) / amount⌋ + 1` times, if that
is not negative. Its counter wraps around, and the loop is over only when the counter is seen past
the limit. So this is the number of passes just when the first value past the limit can be
represented (`Stretch.Fits`). Otherwise the counter comes back at the other end of the range, and
the loop makes more passes or never ends.

A body is anything that ends, in a session of a set that it does not leave (`Block.Passes`), and
that leaves the counter as it is, for which it is enough that no statement of it binds the counter
(`Block.EndsPass.counter_kept`).
-/

namespace BrightScript

/-! ## The counter in exact numbers -/

/-- What a loop over integers counts through. -/
structure Stretch where
  first : Int32
  last : Int32
  amount : Int32
  nonzero : amount ≠ 0

namespace Stretch

variable (c : Stretch)

/-- The value of the counter in a pass, passes being numbered from zero. -/
def value (n : Nat) : Int32 :=
  .ofInt (c.first.toInt + n * c.amount.toInt)

def count : Nat :=
  ((c.last.toInt - c.first.toInt).fdiv c.amount.toInt + 1).toNat

/-- Whether the counter is past the limit when a pass is to begin. -/
def IsPast (n : Nat) : Prop :=
  if 0 < c.amount then c.last < c.value n else c.value n < c.last

/-- Whether the first value past the limit is in range. -/
def Fits : Prop :=
  -2147483648 ≤ c.first.toInt + c.count * c.amount.toInt ∧
    c.first.toInt + c.count * c.amount.toInt < 2147483648

instance : Decidable c.Fits :=
  inferInstanceAs (Decidable (_ ∧ _))

theorem value_zero : c.value 0 = c.first := by
  simp [value]

theorem value_succ (n : Nat) : c.value (n + 1) = c.value n + c.amount := by
  have hsum : c.first.toInt + ((n + 1 : Nat) : Int) * c.amount.toInt =
      (c.first.toInt + n * c.amount.toInt) + c.amount.toInt := by
    rw [Int.natCast_add, Int.add_mul]
    omega
  rw [value, hsum, Int32.ofInt_add, Int32.ofInt_toInt]
  rfl

theorem toInt_value {n : Nat} (hlow : -2147483648 ≤ c.first.toInt + n * c.amount.toInt)
    (hhigh : c.first.toInt + n * c.amount.toInt < 2147483648) :
    (c.value n).toInt = c.first.toInt + n * c.amount.toInt := by
  rw [value, Int32.toInt_ofInt]
  exact Int.bmod_eq_of_le hlow hhigh

/-- Going up, the passes that are to be made are those in which the counter is not above the
limit. -/
theorem lt_count_iff_of_pos (h : 0 < c.amount.toInt) (n : Nat) :
    n < c.count ↔ c.first.toInt + n * c.amount.toInt ≤ c.last.toInt := by
  have hdiv : (n : Int) ≤ (c.last.toInt - c.first.toInt).fdiv c.amount.toInt ↔
      n * c.amount.toInt ≤ c.last.toInt - c.first.toInt := by
    rw [Int.fdiv_eq_ediv_of_nonneg _ (by omega), Int.le_ediv_iff_mul_le h]
  rw [count]
  omega

/-- Going down, they are those in which it is not below. -/
theorem lt_count_iff_of_neg (h : c.amount.toInt < 0) (n : Nat) :
    n < c.count ↔ c.last.toInt ≤ c.first.toInt + n * c.amount.toInt := by
  have hdiv : (n : Int) ≤ (c.last.toInt - c.first.toInt).fdiv c.amount.toInt ↔
      n * -c.amount.toInt ≤ -(c.last.toInt - c.first.toInt) := by
    rw [← Int.neg_fdiv_neg, Int.fdiv_eq_ediv_of_nonneg _ (by omega),
      Int.le_ediv_iff_mul_le (by omega)]
  rw [Int.mul_neg] at hdiv
  rw [count]
  omega

theorem amount_pos_or_neg : 0 < c.amount.toInt ∨ c.amount.toInt < 0 := by
  have h : c.amount.toInt ≠ 0 := fun h => c.nonzero (Int32.toInt_inj.1 h)
  omega

theorem isPast_iff_of_pos (h : 0 < c.amount.toInt) (n : Nat) :
    c.IsPast n ↔ c.last.toInt < (c.value n).toInt := by
  have hpos : 0 < c.amount := Int32.lt_iff_toInt_lt.2 (by rwa [Int32.toInt_zero])
  rw [IsPast, if_pos hpos, Int32.lt_iff_toInt_lt]

theorem isPast_iff_of_neg (h : c.amount.toInt < 0) (n : Nat) :
    c.IsPast n ↔ (c.value n).toInt < c.last.toInt := by
  have hpos : ¬0 < c.amount := fun hpos => by
    have := Int32.lt_iff_toInt_lt.1 hpos
    rw [Int32.toInt_zero] at this
    omega
  rw [IsPast, if_neg hpos, Int32.lt_iff_toInt_lt]

/-- Before the limit is passed all values are exact. -/
theorem toInt_value_of_lt {n : Nat} (hn : n < c.count) :
    (c.value n).toInt = c.first.toInt + n * c.amount.toInt := by
  have hfirst := c.first.le_toInt
  have hfirst' := c.first.toInt_lt
  have hlast := c.last.le_toInt
  have hlast' := c.last.toInt_lt
  obtain h | h := c.amount_pos_or_neg
  · have hle := (c.lt_count_iff_of_pos h n).1 hn
    have hup : 0 ≤ n * c.amount.toInt := Int.mul_nonneg (by omega) (by omega)
    exact c.toInt_value (by omega) (by omega)
  · have hle := (c.lt_count_iff_of_neg h n).1 hn
    have hdown : n * c.amount.toInt ≤ 0 := Int.mul_nonpos_of_nonneg_of_nonpos (by omega) (by omega)
    exact c.toInt_value (by omega) (by omega)

theorem not_isPast_of_lt {n : Nat} (hn : n < c.count) : ¬c.IsPast n := by
  have hexact := c.toInt_value_of_lt hn
  obtain h | h := c.amount_pos_or_neg
  · have hle := (c.lt_count_iff_of_pos h n).1 hn
    rw [c.isPast_iff_of_pos h]
    omega
  · have hle := (c.lt_count_iff_of_neg h n).1 hn
    rw [c.isPast_iff_of_neg h]
    omega

theorem isPast_count (h : c.Fits) : c.IsPast c.count := by
  have hexact := c.toInt_value h.1 h.2
  obtain hk | hk := c.amount_pos_or_neg
  · have hgt := mt (c.lt_count_iff_of_pos hk c.count).2 (Nat.lt_irrefl _)
    rw [c.isPast_iff_of_pos hk]
    omega
  · have hgt := mt (c.lt_count_iff_of_neg hk c.count).2 (Nat.lt_irrefl _)
    rw [c.isPast_iff_of_neg hk]
    omega

/-- A first value past the limit that is out of range comes back on the other side of the limit. -/
theorem not_isPast_count (h : ¬c.Fits) : ¬c.IsPast c.count := by
  have hfirst := c.first.le_toInt
  have hfirst' := c.first.toInt_lt
  have hlast := c.last.le_toInt
  have hlast' := c.last.toInt_lt
  have hamount := c.amount.le_toInt
  have hamount' := c.amount.toInt_lt
  -- There is a last pass, and its value is one step back and within the limit.
  obtain ⟨m, hm⟩ : ∃ m, c.count = m + 1 := by
    refine Nat.exists_eq_succ_of_ne_zero fun hzero => h ?_
    rw [Fits, hzero]
    omega
  have hstep : c.first.toInt + c.count * c.amount.toInt =
      c.first.toInt + m * c.amount.toInt + c.amount.toInt := by
    rw [hm, Int.natCast_add, Int.add_mul]
    omega
  have hwrapped : (c.value c.count).toInt =
      (c.first.toInt + c.count * c.amount.toInt).bmod 4294967296 := by
    rw [value, Int32.toInt_ofInt, Int32.size]
  rw [Fits] at h
  obtain hk | hk := c.amount_pos_or_neg
  · have hle := (c.lt_count_iff_of_pos hk m).1 (by omega)
    have hup : 0 ≤ c.count * c.amount.toInt := Int.mul_nonneg (by omega) (by omega)
    rw [c.isPast_iff_of_pos hk, hwrapped, Int.bmod_def]
    split <;> omega
  · have hle := (c.lt_count_iff_of_neg hk m).1 (by omega)
    have hdown : c.count * c.amount.toInt ≤ 0 :=
      Int.mul_nonpos_of_nonneg_of_nonpos (by omega) (by omega)
    rw [c.isPast_iff_of_neg hk, hwrapped, Int.bmod_def]
    split <;> omega

end Stretch

/-! ## Counters -/

/-- A variable whose name does not end in a kind letter and has no meaning of its own. -/
structure Identifier.IsOrdinary (name : Identifier) : Prop where
  designator : name.designator? = none
  m : Text.fold name.name ≠ "m"
  line : Text.fold name.name ≠ "line_num"
  global : Text.fold name.name ≠ "global"

def Session.counting (s : Session) (counter : Identifier) (i : Int32) : Session :=
  { s with scopes := s.scopes.bind counter.name (.integer i) }

section Counters

variable {counter : Identifier} (hcounter : counter.IsOrdinary)
include hcounter

theorem Identifier.IsOrdinary.get_of_locals {s : Session} {v : Value}
    (h : s.locals[Text.fold counter.name]? = some v) : s.scopes.get counter = v := by
  replace h : s.scopes.active.locals[Text.fold counter.name]? = some v := h
  simp [Scopes.get, Scopes.get?, hcounter.m, hcounter.line, h]

/-- What all calls share are functions, so a number is the value of a variable. -/
theorem Identifier.IsOrdinary.locals_of_get {s : Session} {i : Int32}
    (hshared : s.scopes.SharesFunctions) (h : s.scopes.get counter = .integer i) :
    s.locals[Text.fold counter.name]? = some (.integer i) := by
  show s.scopes.active.locals[Text.fold counter.name]? = _
  cases hlocal : s.scopes.active.locals[Text.fold counter.name]? with
  | some v => rw [← h, hcounter.get_of_locals hlocal]
  | none =>
    have hget : ((s.scopes.modules[Text.fold counter.name]?).or
        (s.scopes.globals[Text.fold counter.name]?)).getD .uninitialized = .integer i := by
      simpa [Scopes.get, Scopes.get?, hcounter.m, hcounter.line, hlocal] using h
    cases hmodule : s.scopes.modules[Text.fold counter.name]? with
    | some v =>
      obtain ⟨c, rfl⟩ := hshared _ _ (.inl hmodule)
      rw [hmodule] at hget
      cases hget
    | none =>
      cases hglobal : s.scopes.globals[Text.fold counter.name]? with
      | some v =>
        obtain ⟨c, rfl⟩ := hshared _ _ (.inr hglobal)
        rw [hmodule, hglobal] at hget
        cases hget
      | none =>
        rw [hmodule, hglobal] at hget
        cases hget

theorem Identifier.IsOrdinary.get_counting (s : Session) (i : Int32) :
    (s.counting counter i).scopes.get counter = .integer i :=
  hcounter.get_of_locals Std.ExtTreeMap.getElem?_insert_self

theorem Run.assign_counter (s : Session) (i : Int32) (location : Location) :
    Run.assign counter (.integer i) location s = .done () (s.counting counter i) := by
  rw [Run.assign, hcounter.designator]
  dsimp only
  rw [Run.bindLocal, if_neg hcounter.global]
  rfl

theorem Evaluator.stepCounter_integer {s : Session} {i : Int32}
    (h : s.scopes.get counter = .integer i) (amount : Int32) (location : Location) :
    stepCounter counter (.integer amount) location s =
      .done () (s.counting counter (i + amount)) := by
  rw [stepCounter, Routine.bind_apply, Run.lookup, Routine.view_apply, h]
  exact Run.assign_counter hcounter s (i + amount) location

end Counters

theorem Evaluator.isPast_value (c : Stretch) (n : Nat) :
    isPast (Value.integer c.amount).isPositive (.integer (c.value n)) (.integer c.last) = true ↔
      c.IsPast n := by
  have less (a b : Int32) : (Value.integer a).lessThan (.integer b) = true ↔ a < b := by
    show decide (a.toInt64 < b.toInt64) = true ↔ a < b
    rw [decide_eq_true_iff, Int64.lt_iff_toInt_lt, Int32.lt_iff_toInt_lt, Int32.toInt_toInt64,
      Int32.toInt_toInt64]
  rw [isPast, Stretch.IsPast, Value.isPositive, Value.greaterThan]
  by_cases h : 0 < c.amount
  · rw [decide_eq_true h, if_pos rfl, if_pos h, less]
  · rw [decide_eq_false h, if_neg h, ← less]
    rfl

/-! ## Passes -/

/-- A body comes to its end, or to a `continue for`, under some budget. -/
def Block.EndsPass (body : Block) (s t : Session) : Prop :=
  ∃ n, (Evaluator.ofBudget n).executeBlock body s = .done () t ∨
    ∃ location, (Evaluator.ofBudget n).executeBlock body s = .exit (.continueFor location) t

/-- A body that comes to its end from every session of a set, in a session of the set, and leaves a
counter as it is. The set does not depend on the counter. -/
structure Block.Completes (body : Block) (counter : Identifier) (within : Session → Prop) :
    Prop where
  counted : ∀ s i, within s → within (s.counting counter i)
  ends : ∀ s, within s → ∃ t, body.EndsPass s t ∧ within t
  kept : ∀ s t i, within s → s.scopes.get counter = .integer i → body.EndsPass s t →
    t.scopes.get counter = .integer i

/-- Passes of a loop one after the other, with the values that the counter has in them. -/
inductive Block.Passes (body : Block) (counter : Identifier) (amount : Int32) :
    List Int32 → Session → Session → Prop
  | none {s : Session} : Passes body counter amount [] s s
  | pass {s t u : Session} {i : Int32} {seen : List Int32}
      (value : s.scopes.get counter = .integer i) (ends : body.EndsPass s t)
      (rest : Passes body counter amount seen (t.counting counter (i + amount)) u) :
      Passes body counter amount (i :: seen) s u

theorem Block.EndsPass.comesTo {body : Block} {s t : Session} (h : body.EndsPass s t) :
    ∃ o, (o = .done () t ∨ ∃ location, o = .exit (.continueFor location) t) ∧
      Run.ComesTo (fun n => (Evaluator.ofBudget n).executeBlock body) s fun _ => o := by
  obtain ⟨n, h⟩ := h
  refine ⟨_, h, .ofWithin
    (fun hle => Simulation.within.executeBlock (Evaluator.ofBudget_le hle) body) rfl ?_⟩
  obtain h | ⟨location, h⟩ := h <;> rw [h] <;> simp

namespace Evaluator

section Loop

variable {counter : Identifier} (hcounter : counter.IsOrdinary) {body : Block} (c : Stretch)
  {s t : Session} {i : Nat} (hi : s.scopes.get counter = .integer (c.value i))
  (location : Location)

/-- A pass of a loop that counts through `c`, under a budget for what it nests. -/
abbrev countingPass (counter : Identifier) (body : Block) (c : Stretch) (location : Location)
    (n : Nat) : Unit → Run (Unit ⊕ Unit) :=
  (ofBudget n).forPass counter (.integer c.last) (.integer c.amount) location body

include hi in
/-- A loop ends where its counter is past the limit. -/
theorem countingPass_of_isPast (hpast : c.IsPast i) (n : Nat) :
    countingPass counter body c location n () s = .done (.inr ()) s := by
  rw [countingPass, forPass, Routine.bind_apply, Run.lookup, Routine.view_apply, hi]
  exact congrFun (if_pos ((isPast_value c i).2 hpast)) s

include hcounter hi in
theorem countingPass_of_endsPass (hpast : ¬c.IsPast i) (hends : body.EndsPass s t)
    (ht : t.scopes.get counter = .integer (c.value i)) :
    Run.ComesTo (fun n => countingPass counter body c location n ()) s fun _ =>
      .done (.inl ()) (t.counting counter (c.value (i + 1))) := by
  obtain ⟨o, ho, enough, hends⟩ := hends.comesTo
  have hmoved : (do stepCounter counter (.integer c.amount) location; return Sum.inl ()) t =
      .done (.inl () : Unit ⊕ Unit) (t.counting counter (c.value (i + 1))) := by
    rw [Routine.bind_apply, stepCounter_integer hcounter ht, c.value_succ]
    rfl
  refine ⟨enough, fun n => ?_⟩
  dsimp only at hends ⊢
  rw [countingPass, forPass, Routine.bind_apply, Run.lookup, Routine.view_apply, hi]
  dsimp only
  split
  · next h => exact absurd ((isPast_value c i).1 h) hpast
  · rw [inLoop, Routine.attempt_bind_apply]
    obtain ⟨hgave, hlt⟩ | hsame := hends n
    · exact .inl ⟨by rw [hgave], hlt⟩
    · rw [hsame]
      obtain rfl | ⟨place, rfl⟩ := ho
      · exact .inr hmoved
      · exact .inr hmoved

include hcounter hi

/-- Passes before the counter is past the limit are made one after the other. -/
theorem iterate_passes {within : Session → Prop} (hbody : body.Completes counter within)
    (hs : within s) (passes : Nat) (hpast : ∀ j < passes, ¬c.IsPast (i + j)) :
    ∃ t, body.Passes counter c.amount ((List.range' i passes).map c.value) s t ∧
      t.scopes.get counter = .integer (c.value (i + passes)) ∧
      ∃ enough, ∀ n ≥ enough, ∀ budget,
        Routine.iterate (countingPass counter body c location n) (budget + passes) () s =
          Routine.iterate (countingPass counter body c location n) budget () t := by
  induction passes generalizing s i with
  | zero => exact ⟨s, .none, hi, 0, fun _ _ _ => rfl⟩
  | succ passes ih =>
    obtain ⟨t, hends, ht⟩ := hbody.ends s hs
    have hkept := hbody.kept s t _ hs hi hends
    obtain ⟨enough, hpass⟩ :=
      countingPass_of_endsPass hcounter c hi location (hpast 0 (by omega)) hends hkept
    dsimp only at hpass
    have hlater (j : Nat) (hj : j < passes) : ¬c.IsPast (i + 1 + j) := by
      rw [Nat.add_assoc, Nat.add_comm 1 j]
      exact hpast (j + 1) (by omega)
    obtain ⟨u, hpasses, hu, later, hiterate⟩ :=
      ih (hcounter.get_counting t (c.value (i + 1))) (hbody.counted t _ ht) hlater
    refine ⟨u, .pass hi hends (c.value_succ i ▸ hpasses), ?_, max enough later,
      fun n hn budget => ?_⟩
    · rwa [Nat.add_comm passes, ← Nat.add_assoc]
    · obtain ⟨-, hlt⟩ | hdone := hpass n
      · omega
      · rw [← Nat.add_assoc, Routine.iterate_succ, hdone]
        exact hiterate n (by omega) budget

/-- A loop whose counter is never past the limit does not end. -/
theorem iterate_endless {within : Session → Prop} (hbody : body.Completes counter within)
    (hs : within s) (hpast : ∀ j, ¬c.IsPast j) (n budget : Nat) :
    Routine.iterate (countingPass counter body c location n) budget () s = .exhausted := by
  induction budget generalizing s i with
  | zero => rfl
  | succ budget ih =>
    obtain ⟨t, hends, ht⟩ := hbody.ends s hs
    have hkept := hbody.kept s t _ hs hi hends
    obtain ⟨_, hpass⟩ := countingPass_of_endsPass hcounter c hi location (hpast i) hends hkept
    dsimp only at hpass
    rw [Routine.iterate_succ]
    obtain ⟨hgave, -⟩ | hdone := hpass n
    · rw [hgave]
    · rw [hdone]
      exact ih (hcounter.get_counting t _) (hbody.counted t _ ht)

end Loop

end Evaluator

/-! ## Loops -/

/-- A loop that starts in `s` counts through `c`, and its first pass would begin in `u`: its step,
its first value and, with the counter set, its limit are evaluated in this order. -/
def Stretch.StartsIn (c : Stretch) (counter : Identifier) (start final : Expr)
    (step : Option Expr) (s u : Session) : Prop :=
  ∃ n t v limit, (Evaluator.ofBudget n).stepOf step s = .done (.integer c.amount) t ∧
    (Evaluator.ofBudget n).evaluate start t = .done (.integer c.first) v ∧
    (Evaluator.ofBudget n).evaluate final (v.counting counter c.first) = .done limit u ∧
    limit.unbox = .integer c.last

namespace Stretch.StartsIn

variable {c : Stretch} {counter : Identifier} (hcounter : counter.IsOrdinary) {start final : Expr}
  {step : Option Expr} {s u : Session} (h : c.StartsIn counter start final step s u)
include hcounter h

theorem get_counter : u.scopes.get counter = .integer (c.value 0) := by
  obtain ⟨n, t, v, limit, -, -, hfinal, -⟩ := h
  have hlocals := (Run.Steady.evaluate n final (v.counting counter c.first) u
    (congrArg Outcome.state? hfinal)).1
  rw [c.value_zero]
  refine hcounter.get_of_locals ?_
  rw [hlocals]
  exact Std.ExtTreeMap.getElem?_insert_self

theorem forLoop_comesTo (body : Block) : ∃ location, Run.ComesTo
    (fun n => (Evaluator.ofBudget n).forLoop n counter start final step body false) s fun n =>
      Routine.iterate (Evaluator.countingPass counter body c location n) n () u := by
  obtain ⟨n, t, v, limit, hstep, hstart, hfinal, hlimit⟩ := h
  have evaluated {e : Expr} {w w' : Session} {r : Value}
      (he : (Evaluator.ofBudget n).evaluate e w = .done r w') :
      Run.ComesTo (fun n => (Evaluator.ofBudget n).evaluate e) w fun _ => .done r w' :=
    .ofWithin (fun hle => (Evaluator.ofBudget_le hle).evaluate e) he (by simp)
  have stepped : Run.ComesTo (fun n => (Evaluator.ofBudget n).stepOf step) s fun _ =>
      .done (.integer c.amount) t :=
    .ofWithin (fun hle => Simulation.within.stepOf (Evaluator.ofBudget_le hle) step) hstep (by simp)
  refine ⟨(step.map Expr.location).getD counter.location, ?_⟩
  unfold Evaluator.countingPass
  rw [← hlimit]
  refine (stepped.bind _).trans ?_
  refine ((evaluated hstart).bind _).trans ?_
  have hset : Run.ComesTo (fun _ => Run.assign counter (.integer c.first) start.location) v fun _ =>
      .done () (v.counting counter c.first) :=
    ⟨0, fun _ => .inr (Run.assign_counter hcounter v c.first start.location)⟩
  exact (hset.bind _).trans ((evaluated hfinal).bind _)

end Stretch.StartsIn

/-! ## Bodies that do not bind the counter -/

/-- Variables may be bound under all names but one, whose value stays. -/
def Discipline.sparing (key : String) (v : Value) : Discipline where
  fits other w := other = key → w = v
  allows _ name := Text.fold name.name ≠ key
  accepts _ := False
  assigned h _ _ heq := absurd heq h
  counted h _ heq := absurd heq h
  stepped h _ _ heq := absurd heq h
  dimmed h _ _ heq := absurd heq h
  walked h _ heq := absurd heq h
  caught h _ heq := absurd heq h
  received h := h.elim

/-- A body in which no statement binds the counter leaves it as it is, unless the counter has the
name of a helper of `print`. -/
theorem Block.EndsPass.counter_kept {body : Block} {counter : Identifier} {s t : Session}
    {i : Int32} (hcounter : counter.IsOrdinary)
    (htab : Text.fold counter.name ≠ Text.fold Builtin.tab.name)
    (hpos : Text.fold counter.name ≠ Text.fold Builtin.pos.name)
    (hfollows : ∀ st ∈ body.statements,
      st.Follows fun _ name => Text.fold name.name ≠ Text.fold counter.name)
    (hshared : s.scopes.SharesFunctions) (hi : s.scopes.get counter = .integer i)
    (h : body.EndsPass s t) : t.scopes.get counter = .integer i := by
  have hlocal := hcounter.locals_of_get hshared hi
  obtain ⟨n, h⟩ := h
  have hstate : ((Evaluator.ofBudget n).executeBlock body s).state? = some t := by
    obtain h | ⟨location, h⟩ := h <;> rw [h] <;> rfl
  have hok : (Discipline.sparing (Text.fold counter.name) (.integer i)).Ok s := by
    refine ⟨fun key v hv heq => ?_, hshared⟩
    rw [heq, hlocal] at hv
    exact (Option.some.inj hv).symm
  have hkeeps : (Discipline.sparing (Text.fold counter.name) (.integer i)).Keeps
      ((Evaluator.ofBudget n).executeAll body.statements)
      ((Evaluator.supervised (fun _ => True) (fun _ => Routine.giveUp) n).executeAll
        body.statements) :=
    Discipline.executeAll_supervised (fun _ _ => trivial) _ n hfollows
  have hfits := ((hkeeps s hok).2 t hstate).locals
  have hframes := Contract.sameFrames_of_ends
    ((Contract.frames False).simulation.executeBlock
      ((Contract.frames False).simulation.ofBudget n) body s False.elim).2 hstate
  have hbound : Text.fold counter.name ∈ s.locals :=
    Std.ExtTreeMap.mem_iff_isSome_getElem?.2 (by rw [hlocal]; rfl)
  have hmem : Text.fold counter.name ∈ t.locals := hframes.active.2 _ hbound htab hpos
  obtain ⟨v, hv⟩ : ∃ v, t.locals[Text.fold counter.name]? = some v :=
    Option.isSome_iff_exists.1 (Std.ExtTreeMap.mem_iff_isSome_getElem?.1 hmem)
  rw [hcounter.get_of_locals hv, hfits _ v hv rfl]

/-! ## The number of passes -/

/-- A loop that counts through 32-bit integers makes the passes that exact arithmetic demands, with
the exact values, just where the first value past the limit is in range. Where it is not, the
counter is not past the limit after that many passes. In every case the loop ends after the passes
that begin with a counter that is not past the limit, and if it never is, the loop does not end. A
body in which no statement binds the counter leaves it as it is, if it is not a helper of
`print`. -/
theorem counting_loop {c : Stretch} {counter : Identifier} {start final : Expr}
    {step : Option Expr} {body : Block} {within : Session → Prop} {s u : Session}
    (hcounter : counter.IsOrdinary) (hbody : body.Completes counter within)
    (hstarts : c.StartsIn counter start final step s u) (hu : within u) :
    (c.Fits →
      (∀ n < c.count, (c.value n).toInt = c.first.toInt + n * c.amount.toInt) ∧
      ∃ t, body.Passes counter c.amount ((List.range c.count).map c.value) u t ∧
        ∃ enough, ∀ n ≥ enough,
          (Evaluator.ofBudget n).forLoop n counter start final step body false s = .done () t) ∧
    (¬c.Fits → ∀ n ≤ c.count, ¬c.IsPast n) ∧
    (∀ passes, (∀ n < passes, ¬c.IsPast n) → c.IsPast passes →
      ∃ t, body.Passes counter c.amount ((List.range passes).map c.value) u t ∧
        ∃ enough, ∀ n ≥ enough,
          (Evaluator.ofBudget n).forLoop n counter start final step body false s = .done () t) ∧
    ((∀ n, ¬c.IsPast n) → ∀ n,
      (Evaluator.ofBudget n).forLoop n counter start final step body false s = .exhausted) ∧
    ∀ {body : Block}, Text.fold counter.name ≠ Text.fold Builtin.tab.name →
      Text.fold counter.name ≠ Text.fold Builtin.pos.name →
      (∀ st ∈ body.statements,
        st.Follows fun _ name => Text.fold name.name ≠ Text.fold counter.name) →
      ∀ v v' i, v.scopes.SharesFunctions → v.scopes.get counter = .integer i →
        body.EndsPass v v' → v'.scopes.get counter = .integer i := by
  have hfirst := hstarts.get_counter hcounter
  obtain ⟨location, enough, hloop⟩ := hstarts.forLoop_comesTo hcounter body
  dsimp only at hloop
  have ended (passes : Nat) (hbefore : ∀ n < passes, ¬c.IsPast n) (hpast : c.IsPast passes) :
      ∃ t, body.Passes counter c.amount ((List.range passes).map c.value) u t ∧
        ∃ enough, ∀ n ≥ enough,
          (Evaluator.ofBudget n).forLoop n counter start final step body false s = .done () t := by
    obtain ⟨t, hpasses, ht, later, hiterate⟩ :=
      Evaluator.iterate_passes hcounter c hfirst location hbody hu passes (by simpa using hbefore)
    rw [Nat.zero_add] at ht
    refine ⟨t, by rwa [List.range_eq_range'], max enough (max later (passes + 1)), fun n hn => ?_⟩
    obtain ⟨-, hlt⟩ | hsame := hloop n
    · omega
    · obtain ⟨rest, rfl⟩ : ∃ rest, n = rest + 1 + passes := ⟨n - (passes + 1), by omega⟩
      rw [hsame, hiterate _ (by omega), Routine.iterate_succ,
        Evaluator.countingPass_of_isPast c ht location hpast]
  refine ⟨fun hfits => ⟨fun n hn => c.toInt_value_of_lt hn, ?_⟩, fun hfits n hn => ?_, ended,
    fun hnever n => ?_, fun htab hpos hfollows v v' i hshared hi hends => ?_⟩
  · exact ended c.count (fun n hn => c.not_isPast_of_lt hn) (c.isPast_count hfits)
  · obtain hlt | rfl := Nat.lt_or_eq_of_le hn
    · exact c.not_isPast_of_lt hlt
    · exact c.not_isPast_count hfits
  · obtain ⟨hgave, -⟩ | hsame := hloop n
    · exact hgave
    · rw [hsame, Evaluator.iterate_endless hcounter c hfirst location hbody hu hnever]
  · exact hends.counter_kept hcounter htab hpos hfollows hshared hi

def counterI : Identifier :=
  ⟨"i", .builtin⟩

/-- `x = i`, then `continue for`. -/
def copyingBody : Block :=
  ⟨[.assignment ⟨"x", .builtin⟩ (.reference counterI) .builtin, .continueFor .builtin], .builtin⟩

def downByFour : Stretch :=
  ⟨10, 1, -4, by decide⟩

theorem copyingBody_follows : ∀ st ∈ copyingBody.statements,
    st.Follows fun _ name => Text.fold name.name ≠ Text.fold counterI.name := by
  intro st hst
  obtain rfl | rfl : st = _ ∨ st = _ := by simpa [copyingBody] using hst
  · refine .intro (fun binder name h => ?_) fun block hblock => (by cases hblock)
    cases h
    decide
  · exact .intro (fun binder name h => (by cases h)) fun block hblock => (by cases hblock)

theorem copyingBody_endsPass {s : Session} (h : s.Quiet) :
    copyingBody.EndsPass s
      { s with
        scopes := s.scopes.bind "x" (s.scopes.get counterI),
        location := .builtin } := by
  let copied : Session :=
    { s with scopes := s.scopes.bind "x" (s.scopes.get counterI), location := .builtin }
  have hcopied : copied.Quiet := ⟨h.pending, h.suspension, h.debugMode, h.debugger⟩
  have hassigned : execute 2 (.assignment ⟨"x", .builtin⟩ (.reference counterI) .builtin) s =
      .done () copied := by
    rw [h.execute_eq]
    rfl
  have hcontinued : execute 2 (.continueFor .builtin) copied =
      .exit (.continueFor .builtin) copied := by
    rw [hcopied.execute_eq]
    rfl
  refine ⟨2, .inr ⟨.builtin, ?_⟩⟩
  show (execute 2 _ >>= fun _ => execute 2 _ >>= fun _ => pure ()) s = _
  rw [Routine.bind_apply, hassigned]
  dsimp only
  rw [Routine.bind_apply, hcontinued]

theorem copyingBody_completes :
    copyingBody.Completes counterI fun s => s.Quiet ∧ s.scopes.SharesFunctions where
  counted s i h := ⟨⟨h.1.pending, h.1.suspension, h.1.debugMode, h.1.debugger⟩, h.2⟩
  ends s h := ⟨_, copyingBody_endsPass h.1,
    ⟨h.1.pending, h.1.suspension, h.1.debugMode, h.1.debugger⟩, h.2⟩
  kept s t i h hi hends := hends.counter_kept ⟨rfl, by decide, by decide, by decide⟩ (by decide)
    (by decide) copyingBody_follows h.2 hi

/-- The limit and the step of the loop `for i = 10 to 1 step -4`. -/
theorem downByFour_startsIn (s : Session) :
    downByFour.StartsIn counterI (.literal (.integer 10) .builtin)
      (.literal (.integer 1) .builtin)
      (some (.unary .negate (.literal (.integer 4) .builtin) .builtin)) s
      { s.counting counterI 10 with location := .builtin } :=
  ⟨2, _, _, _, rfl, rfl, rfl, rfl⟩

/-- The loop `for i = 10 to 1 step -4` makes passes with ten, six and two. -/
theorem counting_loop_downByFour :
    counterI.IsOrdinary ∧ ∃ within, copyingBody.Completes counterI within ∧
      ∃ u, within u ∧ ∃ t, copyingBody.Passes counterI (-4) [10, 6, 2] u t ∧
        ∃ enough, ∀ n ≥ enough,
          (Evaluator.ofBudget n).forLoop n counterI (.literal (.integer 10) .builtin)
            (.literal (.integer 1) .builtin)
            (some (.unary .negate (.literal (.integer 4) .builtin) .builtin)) copyingBody false
            (.new .standard) = .done () t := by
  have hcounter : counterI.IsOrdinary := ⟨rfl, by decide, by decide, by decide⟩
  have hnew := (Session.new_quiet .standard).1
  have hshared := Scopes.sharesFunctions_new .standard
  have hstarts := downByFour_startsIn (.new .standard)
  have hvalues : (List.range downByFour.count).map downByFour.value = [10, 6, 2] := by decide
  generalize Session.new .standard = s at hnew hshared hstarts ⊢
  have hu : ({ s.counting counterI 10 with location := .builtin } : Session).Quiet :=
    ⟨hnew.pending, hnew.suspension, hnew.debugMode, hnew.debugger⟩
  obtain ⟨hfits, -⟩ := counting_loop hcounter copyingBody_completes hstarts ⟨hu, hshared⟩
  obtain ⟨-, t, hpasses, hends⟩ := hfits (by decide)
  rw [hvalues] at hpasses
  exact ⟨hcounter, _, copyingBody_completes, _, ⟨hu, hshared⟩, t, hpasses, hends⟩

/-- A loop over one number by a step that takes the counter around the range once. -/
def wrappingLoop : Statement :=
  .forLoop counterI (.literal (.integer 2147483645) .builtin)
    (.literal (.integer 2147483645) .builtin) (some (.literal (.integer 1431655766) .builtin))
    ⟨[.print [.expression (.reference counterI)] .builtin], .builtin⟩ .builtin

/-- A loop whose counter is taken away by the `print` in its body. -/
def helperLoop : Statement :=
  .forLoop ⟨"tab", .builtin⟩ (.literal (.integer 1) .builtin) (.literal (.integer 2) .builtin) none
    ⟨[.print [.expression (.literal (.integer 7) .builtin)] .builtin], .builtin⟩ .builtin

/-- The first loop is to make one pass and makes three, and the second is to make two and fails
after one. -/
theorem counting_loop_miscounts :
    ((Stretch.mk 2147483645 2147483645 1431655766 (by decide)).count = 1 ∧
      ((Session.new { Options.standard with entryPoint := false }).exec 8 [wrappingLoop] []).map
        (fun (r, t) => (r.toBool, t.stdout)) =
          some (true, " 2147483645\n-715827885\n 715827881\n")) ∧
    (Stretch.mk 1 2 1 (by decide)).count = 2 ∧
      ((Session.new { Options.standard with entryPoint := false }).exec 8 [helperLoop] []).map
        (fun (r, t) => (r.toBool, t.stdout)) = some (false, " 7\n") := by
  decide +kernel

end BrightScript
