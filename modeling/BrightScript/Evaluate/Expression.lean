import BrightScript.Evaluate.Access
import BrightScript.Evaluate.Call
import BrightScript.Evaluate.Operator

/-!
# Expressions

The rule for every form of expression.
-/

namespace BrightScript.Evaluator

variable (ev : Evaluator)

def evaluateMembers : List Member → Run (List (String × Value))
  | [] => pure []
  | member :: rest => do
    let v ← ev.evaluate member.value
    let vs ← evaluateMembers rest
    return (member.name, v) :: vs

def newFunction (body : Procedure) : Run Value := do
  return .function ⟨← Run.freshIdentity, .procedure body, none⟩

def expression (budget : Nat) (e : Expr) : Run Value := do
  Run.moveTo e.location
  match e with
  | .literal value _ => return .ofLiteral value
  | .grouping inner _ => ev.evaluate inner
  | .reference name => Run.lookup name
  | .binary left op right location => ev.binary left op right location
  | .unary op inner location => ev.unary op inner location
  | .procedure body => newFunction body
  | .arrayLiteral elements _ =>
    let values ← ev.evaluateAll elements
    Run.newArray (.ofList values)
  | .assocLiteral members _ =>
    let values ← ev.evaluateMembers members
    Run.newAssoc (.ofMembers values)
  | .dottedGet object name optional _ =>
    let source ← ev.evaluate object
    Run.dottedGet source name optional
  | .attributeGet object name _ =>
    let source ← ev.evaluate object
    Run.attributeGet source name
  | .indexedGet object indexes optional closing location =>
    ev.indexedGet object indexes optional closing location
  | .call callee args optional closing _ =>
    ev.callExpression (ev.invoke budget) callee args optional closing

end BrightScript.Evaluator
