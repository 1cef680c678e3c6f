import BrightScript.Evaluate.Expression
import BrightScript.Evaluate.Loop
import BrightScript.Evaluate.Print
import BrightScript.Evaluate.Throw

/-!
# Statements

The rule for every form of statement. While a `goto` is looking for its label, statements are not
executed but searched: branches, loop bodies and catch blocks are entered, everything else is passed
over. Once the label is found, execution goes on from there.
-/

namespace BrightScript.Evaluator

variable (ev : Evaluator)

def searching : Run Bool :=
  Routine.view fun s => s.scopes.pending.isSome

def searchBlocks : List Block → Run Unit
  | [] => pure ()
  | block :: rest => do
    ev.executeBlock block
    if ← searching then searchBlocks rest

/-- Searches the body of a loop, and goes on with the loop if the label was in it. -/
def searchLoop (form : LoopForm) (body : Block) (goOn : Run Unit) : Run Unit :=
  ev.inLoop form body (do if ← searching then return else goOn) goOn (return)

def search (budget : Nat) (label : String) (statement : Statement) : Run Unit :=
  match statement with
  | .label name =>
    if Text.fold name.name = label then Run.modifyScopes (·.setPending none) else pure ()
  | .block body => ev.executeBlock body
  | .conditional _ thenBranch elseIfs elseBranch _ =>
    ev.searchBlocks (thenBranch :: elseIfs.map Clause.block ++ elseBranch.toList)
  | .tryCatch _ _ catchBlock _ => ev.executeBlock catchBlock
  | .forLoop counter start final step body _ =>
    ev.searchLoop .counting body (ev.forLoop budget counter start final step body true)
  | .forEach item target body _ => ev.searchLoop .counting body (ev.forEach item target body true)
  | .whileLoop condition body _ =>
    ev.searchLoop .conditional body (ev.whileLoop budget condition body)
  | _ => pure ()

def returnValue (value : Option Expr) : Run (Option Value) := do
  match value with
  | some e => return some (← ev.evaluate e)
  | none => return none

def stop (statement : Statement) : Run Unit := do
  Routine.modify fun s => { s with debugMode := true }
  Run.checkpoint statement

def perform (budget : Nat) (statement : Statement) : Run Unit := do
  match statement with
  | .expression value => discard (ev.evaluate value)
  | .assignment name value _ => ev.assignment name value
  | .dim name dimensions _ => ev.dim name dimensions
  | .block body => ev.executeBlock body
  | .exitFor location => Routine.leave (.exitFor location)
  | .exitWhile location => Routine.leave (.exitWhile location)
  | .continueFor location => Routine.leave (.continueFor location)
  | .continueWhile location => Routine.leave (.continueWhile location)
  | .declaration name body => Run.declare name body
  | .conditional condition thenBranch elseIfs elseBranch _ =>
    ev.conditional condition thenBranch elseIfs elseBranch
  | .increment target op location => ev.increment target op location
  | .print items _ => ev.print items
  | .goto label location => Routine.leave (.goto label.name location)
  | .label _ => pure ()
  | .returning value location =>
    let v ← ev.returnValue value
    Routine.leave (.returning v location)
  | .ending location => Routine.leave (.ending location)
  | .stopping _ => stop statement
  | .forLoop counter start final step body _ =>
    ev.forLoop budget counter start final step body false
  | .forEach item target body _ => ev.forEach item target body false
  | .whileLoop condition body _ => ev.whileLoop budget condition body
  | .dottedSet object name value _ =>
    let v ← ev.evaluate value
    ev.dottedSet object name v
  | .indexedSet object indexes value closing location =>
    let v ← ev.evaluate value
    ev.indexedSet object indexes v closing location
  | .library _ _ => pure ()
  | .tryCatch tryBlock binding catchBlock _ => ev.tryCatch tryBlock binding catchBlock
  | .throwing value location =>
    let v ← ev.evaluate value
    Run.throwValue v location

def isStop : Statement → Bool
  | .stopping _ => true
  | _ => false

/-- What is done before a statement: the run may pause, and the statement is the one being worked
on. -/
def approach (statement : Statement) : Run Unit := do
  if !isStop statement then Run.checkpoint statement
  Run.moveTo statement.location

/-- What is done about a statement: it is searched while a label is looked for, and performed
otherwise. -/
def around (budget : Nat) (statement : Statement) (performed : Run Unit) : Run Unit := do
  match ← Routine.view fun s => s.scopes.pending with
  | some label => ev.search budget label statement
  | none =>
    approach statement
    performed

def statement (budget : Nat) (statement : Statement) : Run Unit :=
  ev.around budget statement (ev.perform budget statement)

end BrightScript.Evaluator
