import BrightScript.Evaluate.Pause
import BrightScript.Value.Compare

/-!
# Nested evaluation

The rules for expressions and statements are written over an `Evaluator`, which evaluates and
executes what is nested inside them. Each rule is thus a definition without recursion; the recursion
is tied in one place, by a budget.
-/

namespace BrightScript

structure Evaluator where
  evaluate : Expr → Run Value
  execute : Statement → Run Unit

namespace Evaluator

variable (ev : Evaluator)

def evaluateAll : List Expr → Run (List Value)
  | [] => pure []
  | e :: rest => do
    let v ← ev.evaluate e
    let vs ← evaluateAll rest
    return v :: vs

def executeAll : List Statement → Run Unit
  | [] => pure ()
  | s :: rest => do
    ev.execute s
    executeAll rest

def executeBlock (b : Block) : Run Unit :=
  ev.executeAll b.statements

def holds (condition : Expr) : Run Bool := do
  let v ← ev.evaluate condition
  return v.unbox.equals (.boolean true)

end Evaluator

end BrightScript
