import BrightScript.Evaluate.Evaluator
import BrightScript.Library.Globals
import BrightScript.Overload

/-!
# Calls

A call picks the signature the arguments satisfy and runs the function in an activation of its own.
The caller's activation comes back whatever happens inside. A jump never leaves the function it
stands in: `return` becomes the result of the call, a `goto` runs the body again looking for its
label, and all others are errors.
-/

namespace BrightScript

def Session.isFull (s : Session) : Bool :=
  s.options.maxCallDepth ≤ s.stack.length

def Session.entered (s : Session) (m : AssocRef) (frame? : Option Frame) : Session :=
  { s with stack := frame?.toList ++ s.stack, scopes := s.scopes.resume (.fresh m) }

/-- The session after a call, given the one before and the frame of the call. -/
def Session.returnedTo (t s : Session) (frame? : Option Frame) : Session :=
  { t with
    stack := t.stack.drop frame?.toList.length
    scopes := t.scopes.resume s.scopes.active }

/-- The frame of a call; only procedures have one. -/
def Evaluator.frameOf? (c : Callable) (signature : Signature) (call : Location) : Option Frame :=
  c.target.location?.map fun location => ⟨c.name, location, call, signature⟩

namespace Run

/-- Runs the body of a call in a new activation, with a frame on the call stack if it is a
procedure's. Afterwards that frame is taken off the stack. -/
def inCall {α : Type} (m : AssocRef) (frame? : Option Frame) (body : Run α) : Run α :=
  fun s => Routine.closing (·.returnedTo s frame?) body (s.entered m frame?)

/-- The result of a call that ended with `return`. -/
def returned (returns : Kind) (value? : Option Value) (location : Location) : Run Value :=
  match value? with
  | none => if returns = .void then pure .invalid else fault .returnWithoutValue location
  | some v =>
    if returns = .void then fault .returnWithValue location
    else
      match v.coerce? returns with
      | some w => pure w
      | none => raise (.cast ⟨returns, location⟩ ⟨v.kind, location⟩)

def leaveCall (returns : Kind) (signal : Signal) : Run Value :=
  match signal with
  | .returning value? location => returned returns value? location
  | signal => escape signal

/-- The error of a `goto` whose label is not in its function. Its backtrace starts with the
caller. -/
def labelMissing {α : Type} (location : Location) : Run α := do
  let callers ← Routine.view fun s => s.stack.tail
  raise { ScriptError.ofFault .missingLineNumber location with backtrace := some callers }

/-- A call, given its frame, if it is a procedure's, and what it runs. A frame is refused when the
stack is full. -/
def calling (frame? : Option Frame) (returns : Kind) (context : Option AssocRef) (call : Location)
    (body : Run Value) : Run Value :=
  fun s =>
    if frame?.isSome && s.isFull then fault .stackOverflow call s
    else
      Routine.handle (inCall (context.getD s.scopes.rootM) frame? body) (leaveCall returns) s

/-- Runs the first of some signatures that the arguments satisfy. -/
def dispatch (name : String) (overloads : List Signature) (args : List Value) (closing : Location)
    (run : Satisfied → Run Value) : Run Value :=
  match firstSatisfied args 0 overloads with
  | some chosen => run chosen
  | none => raise (.noOverload name overloads args closing)

/-- Calls a function, given what runs it. Functions that a host writes are called by this rule too;
no value of a script is one. -/
def call (invoke : Target → List Value → Run Value) (c : Callable) (args : List Value)
    (context : Option AssocRef) (call closing : Location) : Run Value :=
  dispatch c.name c.overloads args closing fun chosen =>
    calling (Evaluator.frameOf? c chosen.signature call) chosen.signature.returns context call
      (Routine.handle (invoke c.target chosen.args) crash)

end Run

namespace Evaluator

variable (ev : Evaluator)

/-- The value of a parameter that was left out: its default, turned into its kind if that is
possible. -/
def defaultValue (p : Parameter) : Run Value := do
  match p.default? with
  | some e =>
    let v ← ev.evaluate e
    return (v.coerce? p.kind).getD v
  | none => return .invalid

def bindParameters : List Parameter → List Value → Run Unit
  | [], _ => pure ()
  | p :: ps, v :: vs => do
    Run.bindLocal p.name v
    bindParameters ps vs
  | p :: ps, [] => do
    let v ← ev.defaultValue p
    Run.bindLocal p.name v
    bindParameters ps []

/-- Runs the body of a procedure once, from the start or looking for a label. A `goto` that leaves
the body says where it stands and asks for another run. -/
def runBody (body : Procedure) (last : Location) : Run (Location ⊕ Location) := do
  match ← Routine.attempt (ev.executeBlock body.body) with
  | .ok () => return .inr last
  | .error (.goto label location) =>
    Run.modifyScopes (·.setPending (some (Text.fold label)))
    return .inl location
  | .error signal => Routine.leave signal

def runProcedure (budget : Nat) (body : Procedure) (args : List Value) : Run Value := do
  ev.bindParameters body.parameters args
  let last ← Routine.iterate (ev.runBody body) budget body.location
  if (← Routine.view fun s => s.scopes.pending).isSome then Run.labelMissing last
  else return .invalid

def invoke (budget : Nat) (target : Target) (args : List Value) : Run Value :=
  match target with
  | .procedure body => ev.runProcedure budget body args
  | .builtin b => b.invoke args
  | .method m receiver => m.invoke receiver args

def call (budget : Nat) (c : Callable) (args : List Value) (context : Option AssocRef)
    (call closing : Location) : Run Value :=
  Run.call (ev.invoke budget) c args context call closing

/-- Whether a function called by this expression runs with the associative array it was read from as
its `m`. -/
def keepsContext : Expr → Bool
  | .dottedGet .. | .indexedGet .. => true
  | _ => false

def callExpression (invoke : Target → List Value → Run Value) (callee : Expr) (args : List Expr)
    (optional : Bool) (closing : Location) : Run Value := do
  let f ← ev.evaluate callee
  let values ← ev.evaluateAll args
  match f with
  | .function c | .boxed (.function c) =>
    let context := if keepsContext callee then c.context else none
    Run.call invoke c values context callee.location closing
  | .invalid => if optional then return .invalid else Run.fault .notAFunction closing
  | _ => Run.fault .notAFunction closing

end Evaluator

end BrightScript
