import BrightScript.Proofs.Budgets
import BrightScript.Proofs.Frames

/-!
# The sizes of arrays

Storing at an index, the method `setEntry` and `dim` check the sizes of arrays before they change
anything. The other ways to an array do not: it can be made with any number of elements (by a
literal, from a text, from the keys or the entries of an associative array, from a backtrace), and
elements are added at its ends without a limit. `Evaluator.capped` looks at the heap after each of
these, and gives up if an array has become too large. Until then it does what evaluation does, and
from a heap with capped arrays it comes to capped arrays only.
-/

namespace BrightScript

variable {s t : Session} {total : Nat}

instance (h : Heap) : Decidable h.Capped :=
  inferInstanceAs (Decidable (∀ a ∈ h.arrays, _))

/-! ## Runs that are looked at -/

/-- Gives up where a run comes to an array that is too large. -/
def Run.checked (x : Run Value) : Run Value :=
  fun s =>
    match x s with
    | .done v t => if t.heap.Capped then .done v t else .exhausted
    | .exit signal t => if t.heap.Capped then .exit signal t else .exhausted
    | .exhausted => .exhausted

/-- An outcome that was given up, or is another one and comes with capped arrays. -/
def Outcome.Caps {α : Type} (o o' : Outcome Signal Session α) : Prop :=
  o = .exhausted ∨ o = o' ∧ ∀ t, o.state? = some t → t.heap.Capped

theorem Run.checked_caps (x : Run Value) (s : Session) : (Run.checked x s).Caps (x s) := by
  unfold Run.checked
  cases x s with
  | done v t =>
    dsimp only
    split
    · next ht => exact .inr ⟨rfl, fun u hu => by cases hu; exact ht⟩
    · exact .inl rfl
  | exit signal t =>
    dsimp only
    split
    · next ht => exact .inr ⟨rfl, fun u hu => by cases hu; exact ht⟩
    · exact .inl rfl
  | exhausted => exact .inl rfl

/-- What is given up is a run that makes an array too large. -/
theorem Run.not_capped_of_checked {x : Run Value} (h : Run.checked x s ≠ x s) :
    ∃ t, (x s).state? = some t ∧ ¬ t.heap.Capped := by
  unfold Run.checked at h
  cases hx : x s with
  | done v t | exit signal t =>
    refine ⟨t, rfl, fun ht => h ?_⟩
    rw [hx]
    exact if_pos ht
  | exhausted =>
    rw [hx] at h
    exact absurd rfl h

namespace Evaluator

variable (ev : Evaluator) (guard : Run Value → Run Value)

/-- Runs a function, with a guard around what grows arrays without a check. -/
def guardedInvoke (budget : Nat) (target : Target) (args : List Value) : Run Value :=
  if target.isLax then guard (ev.invoke budget target args) else ev.invoke budget target args

def guardedExpression (budget : Nat) (e : Expr) : Run Value :=
  match e with
  | .arrayLiteral elements location => do
    Run.moveTo location
    let values ← ev.evaluateAll elements
    guard (Run.newArray (.ofList values))
  | .call callee args optional closing location => do
    Run.moveTo location
    ev.callExpression (ev.guardedInvoke guard budget) callee args optional closing
  | e => ev.expression budget e

def guardedStatement (budget : Nat) (statement : Statement) : Run Unit :=
  match statement with
  | .tryCatch tryBlock binding catchBlock _ =>
    ev.around budget statement (Run.catching (ev.executeBlock tryBlock) fun e => do
      let v ← guard (Run.caught e)
      Run.bindLocal binding v
      ev.executeBlock catchBlock)
  | statement => ev.statement budget statement

/-- Evaluation under a budget, with a guard around what grows arrays without a check. Where an
expression or a statement is started in a session that fails a check, it turns to another
evaluator. -/
def guarded (check : Session → Prop) [DecidablePred check] (otherwise : Evaluator) :
    (budget : Nat) → Evaluator
  | 0 => ofBudget 0
  | n + 1 =>
    ⟨fun e s => if check s then (guarded check otherwise n).guardedExpression guard n e s
      else otherwise.evaluate e s,
     fun st s => if check s then (guarded check otherwise n).guardedStatement guard n st s
      else otherwise.execute st s⟩

/-- Evaluation that gives up where an array becomes too large, and turns to another evaluator
wherever an expression or a statement is started with such an array. -/
def capped (otherwise : Evaluator) (budget : Nat) : Evaluator :=
  guarded Run.checked (fun s => s.heap.Capped) otherwise budget

end Evaluator

/-! ## Guards in simulations -/

namespace Simulation

variable {lax : Prop} (sim : Simulation (fun _ => True) lax) {ev ev' : Evaluator}
  {guard guard' : Run Value → Run Value}

section Guarded

variable (h : sim.Related ev ev')
  (hguard : ∀ x, sim.rel .expression (fun _ => True) (guard x) (guard' x))
include h hguard

theorem guardedInvoke (budget : Nat) :
    sim.Invokes (ev.guardedInvoke guard budget) (ev'.guardedInvoke guard' budget) := by
  intro c args hc hargs
  unfold Evaluator.guardedInvoke
  split
  · next hlax =>
    -- a method is run in the same way by all evaluators
    cases htarget : c.target with
    | method m receiver => exact sim.lift (hguard _)
    | procedure | builtin => rw [htarget] at hlax; cases hlax
  · next hlax => exact sim.invoke h budget (fun hlax' => absurd hlax' hlax) hc hargs

theorem guardedExpression (budget : Nat) (e : Expr) :
    sim.rel .expression (fun _ => True) (ev.guardedExpression guard budget e)
      (ev'.guardedExpression guard' budget e) := by
  cases e with
  | arrayLiteral elements location =>
    refine sim.bind sim.moveTo fun _ _ => ?_
    exact sim.bind (sim.evaluateAll h elements) fun values _ => hguard _
  | call callee args optional closing location =>
    refine sim.bind sim.moveTo fun _ _ => ?_
    exact sim.callExpression h sim.calls (sim.guardedInvoke h hguard budget) callee args optional
      closing
  | _ => exact sim.toWalk.expression h budget _ fun hopen => by cases hopen

theorem guardedStatement (budget : Nat) (statement : Statement) :
    sim.performs (ev.guardedStatement guard budget statement)
      (ev'.guardedStatement guard' budget statement) := by
  cases statement with
  | tryCatch tryBlock binding catchBlock location =>
    refine sim.around h budget _ (sim.catching (sim.executeBlock h tryBlock) fun e _ => ?_)
    refine sim.first (hguard _) fun v _ => ?_
    exact sim.bind (sim.bindLocal trivial binding) fun _ _ => sim.executeBlock h catchBlock
  | returning value location =>
    refine sim.toWalk.statement h budget _ fun _ => ?_
    exact sim.first (sim.returnValue h value) fun _ hv => sim.returning hv
  | _ => exact sim.toWalk.statement h budget _ fun hends => by cases hends

end Guarded

end Simulation

theorem Session.capped_ofCore (h : t.core = s.core) (hs : s.heap.Capped) : t.heap.Capped := by
  have hheap : t.heap = s.heap := congrArg Core.heap h
  rwa [hheap]

/-- The arrays of a session stay capped where nothing grows them without a check. -/
def Contract.capped : Contract (fun _ => True) False :=
  Invariant.contract {
    inv s := s.heap.Capped
    admissible := .trivial
    holds := fun {s} _ => .trivial s
    update := fun hf hs => by
      cases hf with
      | heap _ hm => exact hm.resolve_left id _ hs
      | _ => exact hs
    serviced := fun h => Session.capped_ofCore h.core
    raise := fun _ => Session.capped_ofCore (Session.core_note _ _)
    tried := id
    untried := fun _ => id
    unhelped := id
    rewound := id
    entered := fun _ => id
    returnedTo := fun _ => id }

namespace Evaluator

variable (otherwise : Evaluator) (n : Nat)

theorem checked_keeps (x : Run Value) :
    Contract.capped.Keeps .expression (fun _ => True) (Run.checked x) (Run.checked x) := by
  intro s _
  refine ⟨rfl, ?_⟩
  obtain hgave | ⟨-, hcapped⟩ := Run.checked_caps x s
  · rw [hgave]
    trivial
  · cases hx : Run.checked x s with
    | done v t => exact ⟨trivial, hcapped t (by rw [hx]; rfl), trivial⟩
    | exit signal t => exact ⟨.trivial signal, hcapped t (by rw [hx]; rfl), trivial⟩
    | exhausted => trivial

theorem capped_related :
    Contract.capped.simulation.Related (capped otherwise n)
      (guarded Run.checked (fun _ => True) otherwise n) := by
  induction n with
  | zero => exact ⟨fun _ _ _ => ⟨rfl, trivial⟩, fun _ _ _ => ⟨rfl, trivial⟩⟩
  | succ n ih =>
    constructor
    · intro e s hs
      have heq : (capped otherwise (n + 1)).evaluate e s =
          (capped otherwise n).guardedExpression Run.checked n e s := if_pos hs
      rw [heq]
      exact Contract.capped.simulation.guardedExpression ih checked_keeps n e s hs
    · intro st s hs
      have heq : (capped otherwise (n + 1)).execute st s =
          (capped otherwise n).guardedStatement Run.checked n st s := if_pos hs
      rw [heq]
      exact Contract.capped.simulation.guardedStatement ih checked_keeps n st s hs

theorem guardedInvoke_id (ev : Evaluator) (budget : Nat) :
    ev.guardedInvoke id budget = ev.invoke budget := by
  funext target args
  exact ite_self _

theorem guardedExpression_id (ev : Evaluator) (budget : Nat) (e : Expr) :
    ev.guardedExpression id budget e = ev.expression budget e := by
  cases e with
  | call callee args optional closing location =>
    rw [guardedExpression, guardedInvoke_id]
    rfl
  | _ => rfl

theorem guardedStatement_id (ev : Evaluator) (budget : Nat) (statement : Statement) :
    ev.guardedStatement id budget statement = ev.statement budget statement := by
  cases statement with
  | tryCatch tryBlock binding catchBlock location =>
    rw [statement, perform, tryCatch]
    rfl
  | _ => rfl

theorem checked_within (x : Run Value) : Run.Within (fun _ => True) (Run.checked x) x := by
  intro s
  obtain hgave | ⟨heq, -⟩ := Run.checked_caps x s
  · exact .inl hgave
  · exact .inr ⟨heq, fun _ _ _ => trivial⟩

theorem guarded_within :
    Simulation.within.Related (guarded Run.checked (fun _ => True) otherwise n) (ofBudget n) := by
  induction n with
  | zero => exact Simulation.within.ofBudget 0
  | succ n ih =>
    constructor
    · intro e
      show Run.Within _ _ ((ofBudget n).expression n e)
      rw [← guardedExpression_id]
      exact Simulation.within.guardedExpression ih checked_within n e
    · intro st
      show Run.Within _ _ ((ofBudget n).statement n st)
      rw [← guardedStatement_id]
      exact Simulation.within.guardedStatement ih checked_within n st

/-- What keeps arrays capped and ends as evaluation does. -/
theorem caps_of_keeps {g : Grade} {α : Type} {Q R : α → Prop} {x y z : Run α}
    (h : Contract.capped.Keeps g Q x y) (h' : Run.Within R y z) (hs : s.heap.Capped) :
    (x s).Caps (z s) := by
  obtain ⟨heq, hends⟩ := h s hs
  obtain hgave | ⟨heq', -⟩ := h' s
  · exact .inl (heq.trans hgave)
  · refine .inr ⟨heq.trans heq', fun t ht => ?_⟩
    cases hx : x s with
    | done | exit => rw [hx] at hends ht; cases ht; exact hends.2.1
    | exhausted => rw [hx] at ht; cases ht

theorem capped_invokes (budget : Nat) :
    Contract.capped.simulation.Invokes ((capped otherwise n).guardedInvoke Run.checked budget)
      ((guarded Run.checked (fun _ => True) otherwise n).guardedInvoke Run.checked budget) :=
  Contract.capped.simulation.guardedInvoke (capped_related otherwise n) checked_keeps budget

theorem within_invokes (budget : Nat) :
    Simulation.within.Invokes
      ((guarded Run.checked (fun _ => True) otherwise n).guardedInvoke Run.checked budget)
      ((ofBudget n).invoke budget) := by
  rw [← guardedInvoke_id]
  exact Simulation.within.guardedInvoke (guarded_within otherwise n) checked_within budget

end Evaluator

/-! ## Checks -/

/-- An outcome that is the error of an index out of bounds, with the heap of a session. -/
def Outcome.Refused {α : Type} (s : Session) (o : Outcome Signal Session α) : Prop :=
  ∃ e t, o = .exit (.error e) t ∧ e.number = 16 ∧ t.heap = s.heap

theorem Run.fault_refused {α : Type} (location : Location) (s : Session) :
    ((Run.fault .indexOutOfBounds location : Run α) s).Refused s := by
  refine ⟨s.traced (.ofFault .indexOutOfBounds location), _, rfl, ?_, ?_⟩
  · rfl
  · exact congrArg Core.heap (Session.core_note _ _)

theorem ArrayObject.place_error {index : Int64}
    (h : ¬ (0 ≤ index ∧ index.toInt.toNat < maxSize)) :
    place index = .error .indexOutOfBounds :=
  if_neg h

theorem Library.setEntry_refused {i v : Value} {n : Int64} (hi : i.toInt64? = some n)
    (hn : ¬ (0 ≤ n ∧ n.toInt.toNat < ArrayObject.maxSize)) (r : ArrayRef) (args : List Value)
    (s : Session) : (arrayMethod .setEntry r (i :: v :: args) s).Refused s := by
  obtain ⟨e, t, hrefused, hnumber, hheap⟩ := Run.fault_refused (α := Unit) s.location s
  refine ⟨e, t, ?_, hnumber, hheap⟩
  simp only [arrayMethod, List.head?_cons, Option.bind_some, hi, List.getElem?_cons_succ,
    List.getElem?_cons_zero, ArrayObject.place_error hn]
  have hhere : (Run.faultHere .indexOutOfBounds : Run Unit) s = .exit (.error e) t := hrefused
  rw [Routine.bind_apply, hhere]

theorem Evaluator.storeThrough_refused (ev : Evaluator) {index : Expr} {n : Int64}
    (hindex : ev.arrayIndex index s = .done n t)
    (hn : ¬ (0 ≤ n ∧ n.toInt.toNat < ArrayObject.maxSize)) (closing location : Location) (v : Value)
    (r : ArrayRef) : (ev.storeThrough closing location v (.array r) [index] s).Refused t := by
  obtain ⟨e, u, hrefused, hrest⟩ := Run.fault_refused (α := Unit) closing t
  refine ⟨e, u, ?_, hrest⟩
  rw [storeThrough, Routine.bind_apply, hindex]
  simp only [List.isEmpty_nil, if_true, ArrayObject.place_error hn, hrefused]

theorem Evaluator.sizes_refused (ev : Evaluator) {dimension : Expr} {v : Value} {highest : Int64}
    (hv : ev.evaluate dimension s = .done v t) (hhighest : v.unbox.toInt64? = some highest)
    (hsize : ArrayObject.maxSize < total * (highest.toInt + 1).toNat) (rest : List Expr) :
    (ev.sizes total (dimension :: rest) s).Refused t := by
  obtain ⟨e, u, hrefused, hrest⟩ := Run.fault_refused (α := List Nat) dimension.location t
  refine ⟨e, u, ?_, hrest⟩
  rw [sizes, Routine.bind_apply, hv]
  simp only [hhighest, hsize, if_true, hrefused]

/-- The sizes that a `dim` works out are within bounds. -/
theorem Evaluator.fits_sizes (ev : Evaluator) {dimensions : List Expr} {found : List Nat}
    (h : ev.sizes total dimensions s = .done found t) : Heap.Fits total found := by
  have hev : Simulation.within.Related ev ev := ⟨fun _ => .refl _, fun _ => .refl _⟩
  obtain hgave | ⟨-, hfits⟩ := Simulation.within.sizes hev total dimensions s
  · rw [hgave] at h
    cases h
  · exact hfits found t h

theorem Session.capped_new (options : Options) : (Session.new options).heap.Capped := by
  intro a ha
  cases Array.not_mem_empty a ha

/-- From a session with capped arrays, such as a new one, evaluation that looks at the heap after
each step without a check does what evaluation does, up to the first such step that makes an array
too large; there it gives up. Everything on the way is started with capped arrays, and so it ends.
The other steps have checks: an index out of bounds is an error that leaves the heap alone, for
`setEntry` as for the last of the indexes that something is stored at, and so is a `dim` with too
many elements; the arrays of a `dim` that comes to its end are capped. -/
theorem array_sizes (options : Options) (ev : Evaluator) (s t : Session) :
    (Session.new options).heap.Capped ∧
    (∀ (otherwise : Evaluator) (n : Nat), s.heap.Capped →
      let capped := Evaluator.capped otherwise n
      let invoke := capped.guardedInvoke Run.checked n
      (∀ e : Expr, (capped.evaluate e s).Caps (evaluate n e s)) ∧
      (∀ statements : List Statement,
        (capped.executeAll statements s).Caps ((Evaluator.ofBudget n).executeAll statements s)) ∧
      (∀ (c : Callable) (args : List Value) (context : Option AssocRef)
          (location closing : Location),
        (Run.call invoke c args context location closing s).Caps
          ((Evaluator.ofBudget n).call n c args context location closing s)) ∧
      ∀ (statements : List Statement) (args : List Value) (r : Except ScriptError Finish),
        s.exec n statements args = some (r, t) →
          capped.program invoke statements args s ≠ .exhausted → t.heap.Capped) ∧
    (∀ x : Run Value, Run.checked x s ≠ x s → ∃ u, (x s).state? = some u ∧ ¬ u.heap.Capped) ∧
    (∀ (r : ArrayRef) (i v : Value) (args : List Value) (n : Int64),
      i.toInt64? = some n → ¬ (0 ≤ n ∧ n.toInt.toNat < ArrayObject.maxSize) →
        (Library.arrayMethod .setEntry r (i :: v :: args) s).Refused s) ∧
    (∀ (closing location : Location) (v : Value) (r : ArrayRef) (index : Expr) (n : Int64),
      ev.arrayIndex index s = .done n t → ¬ (0 ≤ n ∧ n.toInt.toNat < ArrayObject.maxSize) →
        (ev.storeThrough closing location v (.array r) [index] s).Refused t) ∧
    (∀ (total : Nat) (dimension : Expr) (rest : List Expr) (v : Value) (highest : Int64),
      ev.evaluate dimension s = .done v t → v.unbox.toInt64? = some highest →
        ArrayObject.maxSize < total * (highest.toInt + 1).toNat →
          (ev.sizes total (dimension :: rest) s).Refused t) ∧
    (∀ (dimensions : List Expr) (found : List Nat),
      ev.sizes 1 dimensions s = .done found t → t.heap.Capped →
        (Heap.newGrid found t.heap).2.Capped) := by
  refine ⟨Session.capped_new options, ?_, ?_, ?_, ?_, ?_, ?_⟩
  · intro otherwise n hs
    have hcapped := Evaluator.capped_related otherwise n
    have hwithin := Evaluator.guarded_within otherwise n
    let sim := Contract.capped.simulation
    refine ⟨fun e => ?_, fun statements => ?_, fun c args context location closing => ?_,
      fun statements args r hexec hends => ?_⟩
    · exact Evaluator.caps_of_keeps (hcapped.evaluate e) (hwithin.evaluate e) hs
    · exact Evaluator.caps_of_keeps (sim.executeAll hcapped statements)
        (Simulation.within.executeAll hwithin statements) hs
    · exact Evaluator.caps_of_keeps
        (sim.toWalk.call sim.calls (Evaluator.capped_invokes otherwise n n) trivial
          (fun _ _ => trivial) context location closing)
        (Simulation.within.toWalk.call Simulation.within.calls
          (Evaluator.within_invokes otherwise n n) trivial (fun _ _ => trivial) context location
          closing) hs
    · obtain ⟨u, hu, hcore⟩ := Session.core_exec hexec
      have hcaps := Evaluator.caps_of_keeps
        (sim.programOf hcapped (Evaluator.capped_invokes otherwise n n) statements
          fun v (_ : v ∈ args) => trivial)
        (Simulation.within.programOf hwithin (Evaluator.within_invokes otherwise n n) statements
          fun v (_ : v ∈ args) => trivial) hs
      obtain ⟨heq, hstate⟩ := hcaps.resolve_left hends
      exact Session.capped_ofCore hcore (hstate u (by rw [heq]; exact hu))
  · exact fun x h => Run.not_capped_of_checked h
  · exact fun r i v args n hi hn => Library.setEntry_refused hi hn r args s
  · exact fun closing location v r index n hindex hn =>
      ev.storeThrough_refused hindex hn closing location v r
  · exact fun total dimension rest v highest hv hhighest hsize =>
      ev.sizes_refused hv hhighest hsize rest
  · exact fun dimensions found h hcapped => hcapped.newGrid Nat.one_pos (ev.fits_sizes h)

/-- A script that makes arrays within arrays, and an index beyond the last one. -/
theorem array_sizes_of_grid :
    (∃ t : Session, (Session.new { Options.standard with entryPoint := false }).exec 3
        [.dim ⟨"a", .builtin⟩ [.literal (.integer 1) .builtin, .literal (.integer 2) .builtin]
          .builtin] [] = some (.ok ⟨.invalid, .completed⟩, t) ∧ t.heap.Capped) ∧
    (Library.arrayMethod .setEntry ⟨0⟩ [.integer 16777216, .invalid]
      (Session.new .standard)).Refused (Session.new .standard) := by
  obtain ⟨t, ht⟩ : ∃ t : Session, (Session.new { Options.standard with entryPoint := false }).exec 3
      [.dim ⟨"a", .builtin⟩ [.literal (.integer 1) .builtin, .literal (.integer 2) .builtin]
        .builtin] [] = some (.ok ⟨.invalid, .completed⟩, t) := ⟨_, rfl⟩
  obtain ⟨hnew, hruns, -⟩ := array_sizes { Options.standard with entryPoint := false }
    (.ofBudget 0) (.new { Options.standard with entryPoint := false }) t
  obtain ⟨-, -, -, hexec⟩ := hruns (.ofBudget 0) 3 hnew
  obtain ⟨-, -, -, hset, -⟩ := array_sizes .standard (.ofBudget 0) (.new .standard) t
  refine ⟨⟨t, ht, hexec _ _ _ ht ?_⟩, hset ⟨0⟩ _ _ [] 16777216 rfl (by decide)⟩
  intro hgave
  cases hgave

/-- An array that is filled up to the greatest size by storing at its last index grows beyond it by a
`push`. -/
theorem array_sizes_pushed : ∃ s t u : Session,
    Run.newArray default (Session.new .standard) = .done (.array ⟨0⟩) s ∧
    Library.arrayMethod .setEntry ⟨0⟩ [.integer 16777215, .invalid] s = .done .invalid t ∧
    t.heap.Capped ∧ Library.arrayMethod .push ⟨0⟩ [.invalid] t = .done .invalid u ∧
    ¬ u.heap.Capped := by
  let full : ArrayObject := ArrayObject.put default 16777215 .invalid
  have hfull : full.size = ArrayObject.maxSize := ArrayObject.size_put _ _ _
  refine ⟨_, _, _, rfl, rfl, ?_, rfl, ?_⟩
  · have hone := (Session.capped_new .standard).newArray (a := default) (Nat.zero_le _)
    have hplace : ArrayObject.place 16777215 = .ok 16777215 := rfl
    exact hone.modifyArray (.put hplace _) _
  · intro hcapped
    have hpushed := hcapped.array ⟨0⟩
    rw [Heap.array_modifyArray (by decide), Heap.array_modifyArray (by decide)] at hpushed
    have hsize : full.size + 1 ≤ ArrayObject.maxSize := by
      rwa [ArrayObject.size, Array.size_push] at hpushed
    omega

end BrightScript
