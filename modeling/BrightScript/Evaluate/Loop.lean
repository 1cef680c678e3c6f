import BrightScript.Evaluate.Assign

/-!
# Branches and loops

`exit` and `continue` end a loop or the current pass of it; every other signal leaves the loop. A
loop that a `goto` jumped into goes on after the pass it landed in: a counting loop by stepping its
counter, a `for each` with the element after the one it was left at.
-/

namespace BrightScript

/-- The forms of loops, by what counts their passes. -/
inductive LoopForm where
  | counting
  | conditional

/-- Whether a loop goes on after a signal that left its body, if the signal does not leave the loop
as well. -/
def Signal.turn? (signal : Signal) (form : LoopForm) : Option Bool :=
  match form, signal with
  | .counting, .continueFor _ | .conditional, .continueWhile _ => some true
  | .counting, .exitFor _ | .conditional, .exitWhile _ => some false
  | _, _ => none

namespace Evaluator

variable (ev : Evaluator)

/-- Runs the body of a loop, and then what is given for its end, for a signal after which the loop
goes on, and for one that ends the loop. -/
def inLoop {α : Type} (form : LoopForm) (body : Block) (ended goOn stop : Run α) : Run α := do
  match ← Routine.attempt (ev.executeBlock body) with
  | .ok () => ended
  | .error signal =>
    match signal.turn? form with
    | some true => goOn
    | some false => stop
    | none => Routine.leave signal

/-- The first clause whose condition holds, or the last resort. -/
def clauses (elseBranch : Option Block) : List Clause → Run Unit
  | [] =>
    match elseBranch with
    | some block => ev.executeBlock block
    | none => pure ()
  | clause :: rest => do
    if ← ev.holds clause.condition then ev.executeBlock clause.block
    else clauses elseBranch rest

def conditional (condition : Expr) (thenBranch : Block) (elseIfs : List Clause)
    (elseBranch : Option Block) : Run Unit :=
  ev.clauses elseBranch (⟨condition, thenBranch⟩ :: elseIfs)

/-- The step of a counting loop; a fraction is cut off. -/
def stepOf (step : Option Expr) : Run Value := do
  match step with
  | none => return .integer 1
  | some e =>
    let v ← ev.evaluate e
    match v.unbox with
    | .float x => return .integer x.toFloat.toInt32
    | .double x => return .integer x.toInt32
    | other => return other

def stepCounter (counter : Identifier) (step : Value) (location : Location) : Run Unit := do
  let current := (← Run.lookup counter).unbox
  match current.arithmetic .add step with
  | .ok next => Run.assign counter next location
  | .error _ =>
    Run.raise (.mismatch (Run.operatorText "+") ⟨current.kind, counter.location⟩
      (some ⟨step.kind, location⟩))

/-- Whether a counter has passed its limit. A step of zero counts as a step down. -/
def isPast (ascending : Bool) (current limit : Value) : Bool :=
  if ascending then current.greaterThan limit else current.lessThan limit

def forPass (counter : Identifier) (limit step : Value) (location : Location) (body : Block)
    (_ : Unit) : Run (Unit ⊕ Unit) := do
  let current := (← Run.lookup counter).unbox
  if isPast step.isPositive current limit then return .inr ()
  else
    let next : Run (Unit ⊕ Unit) := do
      stepCounter counter step location
      return .inl ()
    ev.inLoop .counting body next next (return .inr ())

/-- A counting loop. With `resume` the counter is stepped instead of started. -/
def forLoop (budget : Nat) (counter : Identifier) (start final : Expr) (step : Option Expr)
    (body : Block) (resume : Bool) : Run Unit := do
  let amount ← ev.stepOf step
  let location := (step.map Expr.location).getD counter.location
  if resume then stepCounter counter amount location
  else
    let first ← ev.evaluate start
    Run.assign counter first start.location
  let limit ← ev.evaluate final
  Routine.iterate (ev.forPass counter limit.unbox amount location body) budget ()

/-- The passes of a `for each` over the elements left. The variable runs through elements before
`skip` without a pass. -/
def forEachPasses (item : Identifier) (body : Block) (skip : Nat) :
    (index : Nat) → List Value → Run Unit
  | _, [] => pure ()
  | index, element :: rest => do
    Run.bindLocal item element
    if index < skip then forEachPasses item body skip (index + 1) rest
    else
      match ← Routine.attempt (ev.executeBlock body) with
      | .ok () | .error (.continueFor _) => forEachPasses item body skip (index + 1) rest
      | .error (.exitFor _) => pure ()
      | .error (.goto label location) =>
        Routine.modify fun s => { s with resumeAt := some (index + 1) }
        Routine.leave (.goto label location)
      | .error signal => Routine.leave signal

def notEnumerable (item : Identifier) : String :=
  "BRIGHTSCRIPT: ERROR: Runtime: FOR EACH value is not an enumerable object: " ++
    item.location.packageText ++ "\n"

/-- The element a `for each` goes on with, which is forgotten. -/
def takeResume : Run Nat :=
  Routine.change fun s => (s.resumeAt.getD 0, { s with resumeAt := none })

/-- A `for each`. It walks over the elements that the collection has at the start. -/
def forEach (item : Identifier) (target : Expr) (body : Block) (resume : Bool) : Run Unit := do
  let collection ← ev.evaluate target
  match ← Routine.view fun s => s.heap.elements? collection with
  | none => Run.write .stderr (notEnumerable item)
  | some elements =>
    let skip ← if resume then takeResume else pure 0
    ev.forEachPasses item body skip 0 elements

def whilePass (condition : Expr) (body : Block) (_ : Unit) : Run (Unit ⊕ Unit) := do
  if ← ev.holds condition then
    ev.inLoop .conditional body (return .inl ()) (return .inl ()) (return .inr ())
  else return .inr ()

def whileLoop (budget : Nat) (condition : Expr) (body : Block) : Run Unit :=
  Routine.iterate (ev.whilePass condition body) budget ()

end Evaluator

end BrightScript
