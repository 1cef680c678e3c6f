import BrightScript.Decimal.Whole
import BrightScript.Value

/-!
# Coercion

Three rules turn a value into one of a demanded kind. `convert?` changes one kind of number into
another. `coerce?` is the rule of parameters and results: it boxes, unboxes and converts numbers.
`coerceForDesignator?` is the narrower rule of variables whose name ends in a kind letter.
-/

namespace BrightScript.Value

def convert? : Value → Kind → Option Value
  | integer n, .longInteger => some (longInteger n.toInt64)
  | integer n, .float => some (ofFloat (Decimal.ofInt64 n.toInt64))
  | integer n, .double => some (double (Decimal.ofInt64 n.toInt64))
  | longInteger n, .integer => some (integer n.toInt32)
  | longInteger n, .float => some (ofFloat (Decimal.ofInt64 n))
  | longInteger n, .double => some (double (Decimal.ofInt64 n))
  | float x, .integer => some (integer x.toFloat.toInt32)
  | float x, .longInteger => some (longInteger x.toFloat.toInt64)
  | float x, .double => some (double x.toFloat)
  | double x, .integer => some (integer x.toInt32)
  | double x, .longInteger => some (longInteger x.toInt64)
  | double x, .float => some (ofFloat x)
  | v, kind => if v.kind = kind then some v else none

def coerce? (v : Value) (target : Kind) : Option Value :=
  if v.kind = target ∨ target = .dynamic then some v
  else
    match target with
    | .object => if v.isBoxable then some (boxed v) else none
    | .interface => if v.isObject then some v else none
    | _ =>
      match v with
      | boxed content => content.coerce? target
      | v => if v.isNumber && target.isNumeric then v.convert? target else none

/-- The value for a variable of the demanded kind: of that kind already, in a box or not, or widened
from integer to long integer or from float to double. -/
def coerceForDesignator? (v : Value) (target : Kind) : Option Value :=
  if target = .dynamic then some v
  else if v.unbox.kind = target then some v.unbox
  else
    match v.unbox, target with
    | integer n, .longInteger => some (longInteger n.toInt64)
    | float x, .double => some (double x.toFloat)
    | _, _ => none

end BrightScript.Value
