import BrightScript.Decimal.Whole
import BrightScript.Value

/-!
# Values as numbers, truth values and in order

Numbers of different kinds are compared as integers if both are integers and as doubles otherwise. A
value that is not a number orders with nothing, and strings order by their characters.
-/

namespace BrightScript.Value

/-- Whether the integer part of a number is not zero; a value that is no number counts as such. -/
def hasIntegerPart (x : Float) : Bool :=
  !(-1 < x && x < 1)

def toBool : Value → Bool
  | boolean b => b
  | integer n => n != 0
  | longInteger n => n != 0
  | float x => hasIntegerPart x.toFloat
  | double x => hasIntegerPart x
  | boxed content => content.toBool
  | _ => false

def toFloat? : Value → Option Float
  | integer n => some (Decimal.ofInt64 n.toInt64)
  | longInteger n => some (Decimal.ofInt64 n)
  | float x => some x.toFloat
  | double x => some x
  | boxed content => content.toFloat?
  | _ => none

/-- The value as a 64-bit integer: its integer part, kept within the range. -/
def toInt64? : Value → Option Int64
  | integer n => some n.toInt64
  | longInteger n => some n
  | float x => some x.toFloat.toInt64
  | double x => some x.toInt64
  | boxed content => content.toInt64?
  | _ => none

def isPositive : Value → Bool
  | integer n => 0 < n
  | longInteger n => 0 < n
  | float x => 0 < x.toFloat
  | double x => 0 < x
  | boxed content => content.isPositive
  | _ => false

def isNonNegative : Value → Bool
  | integer n => 0 ≤ n
  | longInteger n => 0 ≤ n
  | float x => x.toFloat.isNaN || 0 ≤ x.toFloat
  | double x => x.isNaN || 0 ≤ x
  | boxed content => content.isNonNegative
  | _ => false

/-- The value as an integer, if it is of an integer kind. -/
def wholeNumber? : Value → Option Int64
  | integer n => some n.toInt64
  | longInteger n => some n
  | _ => none

def numberEquals (a b : Value) : Bool :=
  match a.wholeNumber?, b.wholeNumber? with
  | some m, some n => m == n
  | _, _ =>
    match a.toFloat?, b.toFloat? with
    | some x, some y => x == y
    | _, _ => false

def numberLess (a b : Value) : Bool :=
  match a.wholeNumber?, b.wholeNumber? with
  | some m, some n => m < n
  | _, _ =>
    match a.toFloat?, b.toFloat? with
    | some x, some y => x < y
    | _, _ => false

def equals : Value → Value → Bool
  | invalid, invalid => true
  | boolean a, boolean b => a == b
  | boolean a, b => b.isNumber && a == b.toBool
  | a, boolean b => a.isNumber && a.toBool == b
  | string a, string b => a == b
  | uninitialized, string text => Text.sameWord text "<uninitialized>"
  | string text, uninitialized => Text.sameWord text "<uninitialized>"
  | function a, function b => a.same b
  | a, b => a.isNumber && b.isNumber && numberEquals a b

def lessThan : Value → Value → Bool
  | string a, string b => a < b
  | a, b => a.isNumber && b.isNumber && numberLess a b

def greaterThan (a b : Value) : Bool :=
  lessThan b a

end BrightScript.Value
