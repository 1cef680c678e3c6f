import BrightScript.Decimal.Dyadic

/-!
# Decimal digits of a number

Two ways to choose digits. `significant` rounds the exact value to a number of digits, a half going
to the even neighbour. `shortest` takes the fewest digits that read back as the same double: it
tries one digit, two digits and so on, and looks at the two neighbours of the value on that grid; of
two that read back the nearer wins, and of two equally near ones the greater.
-/

namespace BrightScript.Decimal

/-- Digits without trailing zeros, the first one of the order `10 ^ exponent`. -/
structure Digits where
  figures : List Char
  exponent : Int
  deriving DecidableEq, Repr

def divHalfEven (n d : Nat) : Nat :=
  let q := n / d
  let r := n % d
  if 2 * r < d then q
  else if d < 2 * r then q + 1
  else if q % 2 = 0 then q else q + 1

/-- How many decimal digits a number has. -/
def figureCount (n : Nat) : Nat :=
  (Nat.toDigits 10 n).length

def dropZeros (figures : List Char) : List Char :=
  (figures.reverse.dropWhile (· == '0')).reverse

/-- The digits of `n * 10 ^ unit`. -/
def Digits.ofNat (n : Nat) (unit : Int) : Digits :=
  let figures := Nat.toDigits 10 n
  ⟨dropZeros figures, unit + figures.length - 1⟩

/-- The order of the leading digit of a positive number. -/
def Expansion.order (e : Expansion) : Int :=
  (figureCount e.coefficient : Int) - 1 - e.places

/-- A number with `count` digits and the order of the last of them, nearest to the given value. It
has one digit more when the rounding carries out of the leading digit. -/
def Expansion.round (e : Expansion) (count : Nat) : Nat × Int :=
  let figures := figureCount e.coefficient
  if figures ≤ count then
    (e.coefficient * Nat.pow 10 (count - figures), -(e.places : Int) - (count - figures : Nat))
  else
    (divHalfEven e.coefficient (Nat.pow 10 (figures - count)),
      (figures - count : Nat) - (e.places : Int))

/-- The value of a finite double to `count` significant digits. -/
def significant (count : Nat) (x : Float) : Digits :=
  let (n, unit) := (Dyadic.ofFloat x).expansion.round count
  Digits.ofNat n unit

/-- The numbers `weight * 2 ^ shift / 10 ^ unit` for three weights, as numerators over one
denominator: the ends of the interval that reads back as a double, and the double itself between
them. -/
structure Grid where
  low : Nat
  value : Nat
  high : Nat
  denominator : Nat

/-- The interval of the decimals that read back as `d`, in units of `10 ^ unit`. -/
def Grid.ofDyadic (d : Dyadic) (unit : Int) : Grid :=
  let shift := d.exponent - 2
  let up := Nat.pow 2 shift.toNat * Nat.pow 10 (-unit).toNat
  let down := Nat.pow 2 (-shift).toNat * Nat.pow 10 unit.toNat
  let below := if d.isBinade then 1 else 2
  ⟨(4 * d.mantissa - below) * up, 4 * d.mantissa * up, (4 * d.mantissa + 2) * up, down⟩

/-- Whether a whole number of units lies in the interval. Its ends belong to it when the mantissa is
even, since a half is read as the even neighbour. -/
def Grid.admits (g : Grid) (ends : Bool) (n : Nat) : Bool :=
  let scaled := n * g.denominator
  if ends then g.low ≤ scaled && scaled ≤ g.high else g.low < scaled && scaled < g.high

/-- The neighbour of the value on the grid that reads back, if there is one. -/
def Grid.choose (g : Grid) (ends : Bool) : Option Nat :=
  let n := g.value / g.denominator
  match g.admits ends n, g.admits ends (n + 1) with
  | true, true => some (if 2 * (g.value % g.denominator) < g.denominator then n else n + 1)
  | true, false => some n
  | false, true => some (n + 1)
  | false, false => none

/-- The fewest digits that read back as the given positive finite double. Seventeen always do. -/
def shortest (x : Float) : Digits :=
  let d := Dyadic.ofFloat x
  let order := d.expansion.order
  let ends := d.mantissa % 2 == 0
  let found := (List.range 17).findSome? fun (k : Nat) =>
    let unit := order - k
    ((Grid.ofDyadic d unit).choose ends).map (Digits.ofNat · unit)
  found.getD (significant 17 x)

end BrightScript.Decimal
