import BrightScript.Decimal.Whole
import BrightScript.Value.Compare

/-!
# Arithmetic

Numbers come in four kinds. A sum, difference, product or remainder has the widest kind among its
operands, in the order integer, long integer, float, double. Integer results wrap around at the
width of their kind; single-precision results are computed in double precision and then rounded.
Quotients are never integers; powers, shifts, bit operations and integer quotients have rules of
their own.
-/

namespace BrightScript

/-- A number of one of the four kinds. -/
inductive Number where
  | integer (value : Int32)
  | longInteger (value : Int64)
  | float (value : Float32)
  | double (value : Float)

inductive ArithmeticError where
  | divideByZero
  | unsupported
  deriving DecidableEq, Repr

def ArithmeticError.message : ArithmeticError → String
  | divideByZero => "divide by zero"
  | unsupported => "operator not defined for numbers"

namespace Number

def ofValue? (v : Value) : Option Number :=
  match v.unbox with
  | .integer n => some (integer n)
  | .longInteger n => some (longInteger n)
  | .float x => some (float x)
  | .double x => some (double x)
  | _ => none

def toFloat : Number → Float
  | integer n => Decimal.ofInt64 n.toInt64
  | longInteger n => Decimal.ofInt64 n
  | float x => x.toFloat
  | double x => x

/-- The number as a 32-bit integer: long integers lose their high bits, and floating-point numbers
their fraction, being kept within the range. -/
def toInt32 : Number → Int32
  | integer n => n
  | longInteger n => n.toInt32
  | float x => x.toFloat.toInt32
  | double x => x.toInt32

/-- The number as a 64-bit integer, floating-point numbers losing their fraction and being kept
within the range. -/
def toInt64 : Number → Int64
  | integer n => n.toInt64
  | longInteger n => n
  | float x => x.toFloat.toInt64
  | double x => x.toInt64

def isWhole : Number → Bool
  | integer _ | longInteger _ => true
  | _ => false

/-- Whether the number is zero, which is seen on its double. -/
def isZero (a : Number) : Bool :=
  a.toFloat == 0

def isWholeZero : Number → Bool
  | integer n => n == 0
  | longInteger n => n == 0
  | _ => false

def widest (onInt32 : Int32 → Int32 → Int32) (onInt64 : Int64 → Int64 → Int64)
    (onFloat : Float → Float → Float) : Number → Number → Value
  | integer m, integer n => .integer (onInt32 m n)
  | double x, b => .double (onFloat x b.toFloat)
  | a, double y => .double (onFloat a.toFloat y)
  | float x, b => .ofFloat (onFloat x.toFloat b.toFloat)
  | a, float y => .ofFloat (onFloat a.toFloat y.toFloat)
  | a, b => .longInteger (onInt64 a.toInt64 b.toInt64)

def add : Number → Number → Value :=
  widest (· + ·) (· + ·) (· + ·)

def sub : Number → Number → Value :=
  widest (· - ·) (· - ·) (· - ·)

def mul : Number → Number → Value :=
  widest (· * ·) (· * ·) (· * ·)

/-- The remainder of a division toward zero. Only integers have no remainder by zero. -/
def mod (a b : Number) : Except ArithmeticError Value :=
  if a.isWhole && b.isWholeZero then .error .divideByZero
  else .ok (widest (· % ·) (· % ·) Decimal.wholeRemainder a b)

/-- A quotient, never an integer. -/
def div : Number → Number → Value
  | double x, b => .double (x / b.toFloat)
  | a, double y => .double (a.toFloat / y)
  | a, b => .ofFloat (a.toFloat / b.toFloat)

/-- The integer part of a quotient: of integers exactly, of other numbers by way of the quotient of
doubles. It is a long integer if one of the operands is. -/
def wholeQuotient : Number → Number → Value
  | integer m, integer n => .integer (m / n)
  | integer m, longInteger n => .longInteger (m.toInt64 / n)
  | longInteger m, integer n => .longInteger (m / n.toInt64)
  | longInteger m, longInteger n => .longInteger (m / n)
  | longInteger m, b => .longInteger (Decimal.ofInt64 m / b.toFloat).toInt64
  | a, longInteger n => .longInteger (a.toFloat / Decimal.ofInt64 n).toInt64
  | a, b => .integer (a.toFloat / b.toFloat).toInt32

/-- The integer part of a quotient, if the divisor is not zero. -/
def intDiv (a b : Number) : Except ArithmeticError Value :=
  if b.isZero then .error .divideByZero else .ok (a.wholeQuotient b)

/-- A power, computed in doubles. A double exponent gives a double, and otherwise a single-precision
base a single-precision number. A long integer exponent, or a long integer base with an integer
exponent, gives a long integer, and all other powers are single-precision numbers. -/
def pow (a b : Number) : Value :=
  let power := Float.pow a.toFloat b.toFloat
  match a, b with
  | _, double _ => .double power
  | float _, _ => .ofFloat power
  | _, longInteger _ => .longInteger power.toInt64
  | longInteger _, integer _ => .longInteger power.toInt64
  | _, _ => .ofFloat power

def shiftLeft (a b : Number) : Value :=
  match a with
  | longInteger m => .longInteger (m <<< b.toInt32.toInt64)
  | a => .integer (a.toInt32 <<< b.toInt32)

/-- The bits of an integer shifted to the right, zeros coming in, and at most the greatest
integer. -/
def shiftBitsRight (m amount : Int32) : Int32 :=
  let shifted := m.toUInt32 >>> amount.toUInt32
  if shifted < 0x80000000 then shifted.toInt32 else Int32.maxValue

/-- A shift to the right. Integers take in zeros, all other numbers their sign. -/
def shiftRight (a b : Number) : Value :=
  match a with
  | integer m => .integer (shiftBitsRight m b.toInt32)
  | longInteger m => .longInteger (m >>> b.toInt32.toInt64)
  | a => .integer (a.toInt32 >>> b.toInt32)

/-- An operation on bits, on 64 of them if one of the operands is a long integer. -/
def bitwise (onInt32 : Int32 → Int32 → Int32) (onInt64 : Int64 → Int64 → Int64) :
    Number → Number → Value
  | longInteger m, b => .longInteger (onInt64 m b.toInt64)
  | a, longInteger n => .longInteger (onInt64 a.toInt64 n)
  | a, b => .integer (onInt32 a.toInt32 b.toInt32)

def apply (op : BinaryOp) (a b : Number) : Except ArithmeticError Value :=
  match op with
  | .add => .ok (a.add b)
  | .subtract => .ok (a.sub b)
  | .multiply => .ok (a.mul b)
  | .divide => .ok (a.div b)
  | .intDivide => a.intDiv b
  | .modulo => a.mod b
  | .power => .ok (a.pow b)
  | .leftShift => .ok (a.shiftLeft b)
  | .rightShift => .ok (a.shiftRight b)
  | .and => .ok (bitwise (· &&& ·) (· &&& ·) a b)
  | .or => .ok (bitwise (· ||| ·) (· ||| ·) a b)
  | .equal | .notEqual | .less | .lessEqual | .greater | .greaterEqual => .error .unsupported

def complement : Number → Value
  | longInteger m => .longInteger (~~~m)
  | a => .integer (~~~a.toInt32)

end Number

def Value.arithmetic (op : BinaryOp) (a b : Value) : Except ArithmeticError Value :=
  match Number.ofValue? a, Number.ofValue? b with
  | some m, some n => m.apply op n
  | _, _ => .error .unsupported

def Value.complement? (v : Value) : Option Value :=
  (Number.ofValue? v).map Number.complement

end BrightScript
