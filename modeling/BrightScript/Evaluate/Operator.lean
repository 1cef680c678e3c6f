import BrightScript.Evaluate.Evaluator
import BrightScript.Value.Arithmetic

/-!
# Operators

Operands are taken out of their boxes first. `and` and `or` look at the right side only if the left
one does not settle the result, and work on bits if both sides are numbers. An operator that does
not fit its operands is a type mismatch that names both.
-/

namespace BrightScript

/-- A value and the location of the expression it came from. -/
structure Evaluated where
  value : Value
  location : Location

def Evaluated.operand (e : Evaluated) : Operand :=
  ⟨e.value.kind, e.location⟩

namespace Run

def operatorText (symbol : String) : String :=
  s!"Operator \"{symbol}\" can't be applied to"

def operatorMismatch {α : Type} (op : BinaryOp) (left right : Evaluated) : Run α :=
  raise (.mismatch (operatorText op.symbol) left.operand (some right.operand))

def arithmetic (op : BinaryOp) (left right : Evaluated) (location : Location) : Run Value :=
  match left.value.arithmetic op right.value with
  | .ok v => pure v
  | .error .divideByZero => fault .divideByZero location
  | .error .unsupported => operatorMismatch op left right

/-- Whether a number can be the amount of a shift: the whole part of its double lies between 0 and
31. -/
def isShiftAmount (v : Value) : Bool :=
  match v.toFloat? with
  | some x => -1 < x && x < 32
  | none => false

def isEquatable (v : Value) : Bool :=
  v.kind.rank < Kind.dynamic.rank || v.isUnboxable || v.isComparable

def ordering (op : BinaryOp) (a b : Value) : Bool :=
  match op with
  | .less => a.lessThan b
  | .lessEqual => a.lessThan b || a.equals b
  | .greater => a.greaterThan b
  | _ => a.greaterThan b || a.equals b

/-- The result of an operator on two operands without boxes. -/
def operate (op : BinaryOp) (left right : Evaluated) (location : Location) : Run Value :=
  let a := left.value
  let b := right.value
  let numbers := a.isNumber && b.isNumber
  match op with
  | .leftShift | .rightShift =>
    if !numbers then operatorMismatch op left right
    else if !isShiftAmount b then fault .badBitShift right.location
    else arithmetic op left right location
  | .subtract | .multiply | .divide | .intDivide | .modulo | .power =>
    if numbers then arithmetic op left right location else operatorMismatch op left right
  | .add =>
    match a, b with
    | .string x, .string y => pure (.string (x ++ y))
    | _, _ =>
      if numbers then arithmetic op left right location else operatorMismatch op left right
  | .less | .lessEqual | .greater | .greaterEqual =>
    if numbers || (a.isString && b.isString) then pure (.boolean (ordering op a b))
    else operatorMismatch op left right
  | .equal | .notEqual =>
    if a.isInvalid || b.isInvalid || (isEquatable a && isEquatable b) then
      pure (.boolean (if op = .equal then a.equals b else !a.equals b))
    else operatorMismatch op left right
  | .and | .or => operatorMismatch op left right

/-- The result of `and` and `or` once both sides are known. -/
def combine (op : BinaryOp) (left right : Evaluated) (location : Location) : Run Value :=
  match left.value, right.value with
  | .boolean _, .boolean b => pure (.boolean b)
  | .boolean _, b =>
    if b.isNumber then pure (.boolean b.toBool) else operatorMismatch op left right
  | a, .boolean b =>
    if a.isNumber then
      pure (.boolean (if op = .and then a.toBool && b else a.toBool || b))
    else operatorMismatch op left right
  | a, b =>
    if a.isNumber && b.isNumber then arithmetic op left right location
    else operatorMismatch op left right

/-- Whether the left side of `and` or `or` settles the result. -/
def settles (op : BinaryOp) : Value → Bool
  | .boolean b => if op = .and then !b else b
  | _ => false

/-- The result of an operator on one operand without a box. -/
def unary? (op : UnaryOp) (v : Value) : Option Value :=
  match op with
  | .plus => some v
  | .negate => if v.isNumber then (v.arithmetic .multiply (.integer (-1))).toOption else none
  | .not =>
    match v with
    | .boolean b => some (.boolean !b)
    | v => v.complement?

end Run

namespace Evaluator

variable (ev : Evaluator)

def operand (e : Expr) : Run Evaluated := do
  let v ← ev.evaluate e
  return ⟨v.unbox, e.location⟩

def logical (op : BinaryOp) (left : Evaluated) (right : Expr) (location : Location) :
    Run Value := do
  if Run.settles op left.value then return left.value
  else if left.value.isBoolean || left.value.isNumber then
    Run.combine op left (← ev.operand right) location
  else Run.operatorMismatch op left ⟨.invalid, right.location⟩

def binary (left : Expr) (op : BinaryOp) (right : Expr) (location : Location) : Run Value := do
  let a ← ev.operand left
  if op = .and ∨ op = .or then ev.logical op a right location
  else Run.operate op a (← ev.operand right) location

def unary (op : UnaryOp) (e : Expr) (location : Location) : Run Value := do
  let a ← ev.operand e
  match Run.unary? op a.value with
  | some v => return v
  | none => Run.raise (.mismatch (Run.operatorText op.symbol) ⟨a.value.kind, location⟩ none)

end Evaluator

end BrightScript
