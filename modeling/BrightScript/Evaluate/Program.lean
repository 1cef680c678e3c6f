import BrightScript.Evaluate.Statement

/-!
# Running scripts

The rules for expressions and statements are tied together by a budget: a rule at budget `n + 1`
nests rules at budget `n`, and its loops make at most `n` passes. A run that ends does so with the
same result under every larger budget.

Running a script executes its statements and then calls its entry function.
-/

namespace BrightScript

mutual

def evaluate : (budget : Nat) → Expr → Run Value
  | 0, _ => Routine.giveUp
  | n + 1, e => Evaluator.expression ⟨evaluate n, execute n⟩ n e

def execute : (budget : Nat) → Statement → Run Unit
  | 0, _ => Routine.giveUp
  | n + 1, s => Evaluator.statement ⟨evaluate n, execute n⟩ n s

end

def Evaluator.ofBudget (budget : Nat) : Evaluator :=
  ⟨BrightScript.evaluate budget, BrightScript.execute budget⟩

def ampleBudget : Nat :=
  Nat.pow 2 62

/-- Why a script that did not fail came to its end. -/
inductive Reason where
  | completed
  | endStatement
  | debugExit
  deriving DecidableEq, Repr

/-- The end of a script that did not fail. -/
structure Finish where
  value : Value
  reason : Reason

def entryNames : List String :=
  ["RunUserInterface", "Main"]

def Session.entry? (s : Session) : Option Callable :=
  entryNames.findSome? fun name =>
    match s.scopes.get? ⟨name, .builtin⟩ with
    | some (.function c) => some c
    | _ => none

def Callable.takesArguments (c : Callable) : Bool :=
  match c.overloads with
  | s :: _ => !s.arguments.isEmpty
  | [] => false

namespace Evaluator

variable (ev : Evaluator)

/-- Calls the entry function, if the script has one, given what runs functions. -/
def callEntry (invoke : Target → List Value → Run Value) (args : List Value) : Run Value := do
  match ← Routine.view Session.entry? with
  | some c =>
    let given := if c.takesArguments then args else []
    let location := c.target.location?.getD .builtin
    Run.call invoke c given none location location
  | none => return .invalid

/-- Executes the statements of a script and calls its entry function. -/
def program (invoke : Target → List Value → Run Value) (statements : List Statement)
    (args : List Value) : Run Value := do
  Routine.handle (ev.executeAll statements) Run.crash
  if (← Routine.view fun s => s.options.entryPoint) then callEntry invoke args
  else return .invalid

end Evaluator

namespace Run

def finish (signal : Signal) : Run Finish :=
  match signal with
  | .returning v _ => pure ⟨v.getD .invalid, .completed⟩
  | .ending _ => pure ⟨.invalid, .endStatement⟩
  | .debugExit _ => pure ⟨.invalid, .debugExit⟩
  | signal => escape signal

end Run

def Evaluator.script (ev : Evaluator) (budget : Nat) (statements : List Statement)
    (args : List Value) : Run Finish :=
  Routine.handle (do return ⟨← ev.program (ev.invoke budget) statements args, .completed⟩)
    Run.finish

namespace Run

abbrev callEntry (budget : Nat) (args : List Value) : Run Value :=
  Evaluator.callEntry ((Evaluator.ofBudget budget).invoke budget) args

abbrev program (budget : Nat) (statements : List Statement) (args : List Value) : Run Value :=
  (Evaluator.ofBudget budget).program ((Evaluator.ofBudget budget).invoke budget) statements args

abbrev script (budget : Nat) (statements : List Statement) (args : List Value) : Run Finish :=
  (Evaluator.ofBudget budget).script budget statements args

end Run

def Signal.toError (signal : Signal) (s : Session) : ScriptError :=
  match signal with
  | .error e => e
  | _ => .ofFault .internal s.location

/-- Runs a script: how it ended, and the session afterwards. There is no answer if the budget is too
small. -/
def Session.exec (s : Session) (budget : Nat) (statements : List Statement) (args : List Value) :
    Option (Except ScriptError Finish × Session) :=
  match Run.script budget statements args s with
  | .done finish t => some (.ok finish, t)
  | .exit signal t => some (.error (signal.toError t), t)
  | .exhausted => none

end BrightScript
