import BrightScript.Decimal.Dyadic

/-!
# Integers, whole parts and remainders of doubles

An integer becomes a double by way of its magnitude. The remainder of a division of doubles is again
a double, so it is computed exactly: both numbers are brought to the same power of two and divided
as natural numbers.
-/

namespace BrightScript.Decimal

def ofInt64 (n : Int64) : Float :=
  if n < 0 then -(-n).toUInt64.toFloat else n.toUInt64.toFloat

def truncate (x : Float) : Float :=
  if x < 0 then x.ceil else x.floor

def notANumber : Float :=
  0 / 0

namespace Dyadic

/-- The number as a multiple of `2 ^ unit`, given that `unit` does not exceed its exponent. -/
def scaled (d : Dyadic) (unit : Int) : Nat :=
  d.mantissa * Nat.pow 2 (d.exponent - unit).toNat

def wholeRemainder (a b : Dyadic) : Nat :=
  let unit := min a.exponent b.exponent
  let remainder := a.scaled unit % b.scaled unit
  if unit < 0 then remainder / Nat.pow 2 unit.natAbs else remainder * Nat.pow 2 unit.natAbs

end Dyadic

/-- The whole part of the remainder of a division, with the sign of the dividend. There is none for
an infinite dividend or a divisor of zero. -/
def wholeRemainder (a b : Float) : Float :=
  if a.isNaN || b.isNaN || a.isInf || b == 0 then notANumber
  else if b.isInf then truncate a
  else
    let magnitude := Float.ofNat (Dyadic.wholeRemainder (.ofFloat a) (.ofFloat b))
    if signBit a then -magnitude else magnitude

end BrightScript.Decimal
