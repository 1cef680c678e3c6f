/-!
# Floating-point numbers as exact values

Every finite double is a natural number times a power of two, with a sign. `Dyadic.ofFloat` reads
that form off its bits, so that decimal digits can be chosen by exact arithmetic on `Nat`.
-/

namespace BrightScript.Decimal

/-- The number `mantissa * 2 ^ exponent`. -/
structure Dyadic where
  mantissa : Nat
  exponent : Int
  deriving DecidableEq, Repr

/-- Whether the sign bit is set; zero and NaN have one as well. -/
def signBit (x : Float) : Bool :=
  x.toBits.toNat / Nat.pow 2 63 == 1

def Dyadic.ofFloat (x : Float) : Dyadic :=
  let bits := x.toBits.toNat
  let field : Nat := bits / Nat.pow 2 52 % Nat.pow 2 11
  let fraction := bits % Nat.pow 2 52
  if field = 0 then ⟨fraction, -1074⟩ else ⟨Nat.pow 2 52 + fraction, (field : Int) - 1075⟩

/-- Whether the doubles just below are twice as close as those just above, which is so for the
powers of two that have the full precision. -/
def Dyadic.isBinade (d : Dyadic) : Bool :=
  d.mantissa == Nat.pow 2 52 && d.exponent != -1074

/-- The exact decimal expansion: the number is `coefficient` divided by `10 ^ places`. -/
structure Expansion where
  coefficient : Nat
  places : Nat

/-- A power of two below one is a power of five over a power of ten, so the expansion is finite. -/
def Dyadic.expansion (d : Dyadic) : Expansion :=
  match d.exponent with
  | .ofNat k => ⟨d.mantissa * Nat.pow 2 k, 0⟩
  | .negSucc k => ⟨d.mantissa * Nat.pow 5 (k + 1), k + 1⟩

end BrightScript.Decimal
