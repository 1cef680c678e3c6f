import BrightScript.Evaluate.Access
import BrightScript.Evaluate.Operator
import BrightScript.Value.Coercion

/-!
# Binding names

Assignments, `dim`, steps of one, and declarations of functions. Reserved names are refused where a
script assigns, dimensions or declares them. A variable whose name ends in a kind letter takes
values of that kind only.
-/

namespace BrightScript

/-- Binds a declared function, unless the script has a function of that name. -/
def Scopes.declare (s : Scopes) (name : Identifier) (body : Procedure) : Scopes :=
  if Text.fold name.name ∈ s.modules then s
  else s.defineModule name.name (.function (.ofDeclaration name.name body)) (some body.location)

namespace Run

def rejectReserved (name : Identifier) (message : String) : Run Unit :=
  if name.isReserved then raise (.plain s!"{message} '{name.name}'" name.location) else pure ()

def reservedTarget : String :=
  "Cannot assign a value to reserved name"

def reservedFunction : String :=
  "Cannot create a named function with reserved name"

def assign (name : Identifier) (v : Value) (valueLocation : Location) : Run Unit :=
  match name.designator? with
  | some designator =>
    let target := Kind.ofDesignator designator
    match v.coerceForDesignator? target with
    | some w => bindLocal name w
    | none => raise (.cast ⟨target, name.location⟩ ⟨v.kind, valueLocation⟩)
  | none => bindLocal name v

/-- What is said about a function that is declared twice. -/
def redeclared (name : Identifier) (body : Procedure) (previous : Location) : String :=
  s!"Attempting to declare function '{name.name}' at {body.location.file}, " ++
    s!"but it already exists in this scope from {previous.file}"

/-- Declares a function. A second declaration at the same place changes nothing, and one at another
place is an error. -/
def declare (name : Identifier) (body : Procedure) : Run Unit := do
  rejectReserved name reservedFunction
  let scopes ← Routine.view Session.scopes
  if scopes.has name.name [.module] then
    match scopes.definedAt? name.name with
    | some previous =>
      if previous = body.location then return
      else raise (.plain (redeclared name body previous) name.location)
    | none => return
  else modifyScopes (·.declare name body)

end Run

namespace Evaluator

variable (ev : Evaluator)

def assignment (name : Identifier) (value : Expr) : Run Unit := do
  Run.rejectReserved name Run.reservedTarget
  let v ← ev.evaluate value
  Run.assign name v value.location

/-- Evaluates the dimensions of an array to sizes, given the number of arrays so far. A dimension is
the highest index, one less than the size. -/
def sizes (total : Nat) : List Expr → Run (List Nat)
  | [] => pure []
  | dimension :: rest => do
    let v ← ev.evaluate dimension
    match v.unbox.toInt64? with
    | none => Run.fault .nonNumericArrayIndex dimension.location
    | some highest =>
      let size := (highest.toInt + 1).toNat
      if ArrayObject.maxSize < total * size then Run.fault .indexOutOfBounds dimension.location
      else
        let more ← sizes (total * size) rest
        return size :: more

def dim (name : Identifier) (dimensions : List Expr) : Run Unit := do
  Run.rejectReserved name Run.reservedTarget
  let found ← ev.sizes 1 dimensions
  let grid ← Routine.change fun s =>
    let (v, heap) := Heap.newGrid found s.heap
    (v, { s with heap := heap })
  Run.bindLocal name grid

def stepOperator : IncrementOp → BinaryOp × String
  | .increment => (.add, "increment")
  | .decrement => (.subtract, "decrement")

/-- The value after a step of one, which only a number without a box can take. -/
def stepped (op : IncrementOp) (v : Value) (location : Location) : Run Value :=
  let (operator, word) := stepOperator op
  match v.arithmetic operator (.integer 1), v.isNumber with
  | .ok w, true => pure w
  | _, _ =>
    Run.raise (.mismatch s!"Attempting to {word} value of non-numeric type" ⟨v.kind, location⟩ none)

def increment (target : Expr) (op : IncrementOp) (location : Location) : Run Unit := do
  let v ← ev.evaluate target
  let w ← stepped op v.unbox location
  match target with
  | .reference name => Run.bindLocal name w
  | .dottedGet object name _ _ => ev.dottedSet object name w
  | .indexedGet object indexes _ closing location => ev.indexedSet object indexes w closing location
  | other => Run.fault .badTarget other.location

end Evaluator

end BrightScript
