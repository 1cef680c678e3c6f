import BrightScript.Decimal.Digits

/-!
# Reading numbers

A decimal numeral is read as the nearest double. Its value is `coefficient * 10 ^ exponent`, and
exponents so large or so small that the result is infinite or zero anyway are settled without
computing the power. The digits of a written exponent count until they make a number of at least
`exponentLimit`; the digits after those are passed over.
-/

namespace BrightScript.Decimal

/-- The value of a digit in bases up to 36, letters of either case counting from ten. -/
def digitValue (c : Char) : Option Nat :=
  if c.isDigit then some (c.toNat - '0'.toNat)
  else if 'a' ≤ c && c ≤ 'z' then some (c.toNat - 'a'.toNat + 10)
  else if 'A' ≤ c && c ≤ 'Z' then some (c.toNat - 'A'.toNat + 10)
  else none

/-- The number a list of digits writes in a base; no number if one of them is not a digit there. -/
def readNat (base : Nat) (figures : List Char) : Option Nat :=
  figures.foldlM (fun total c => do
    let d ← digitValue c
    if d < base then some (total * base + d) else none) 0

/-- The value of decimal digits; characters that are no digits count as zeros. -/
def decimalValue (figures : List Char) : Nat :=
  figures.foldl (fun total c => total * 10 + (digitValue c).getD 0) 0

def infinity : Float :=
  Float.ofBits 0x7FF0000000000000

/-- The double nearest to `coefficient * 10 ^ exponent`. -/
def nearest (coefficient : Nat) (exponent : Int) : Float :=
  let order := (figureCount coefficient : Int) + exponent
  if coefficient = 0 then 0
  else if 400 < order then infinity
  else if order < -400 then 0
  else Float.ofScientific coefficient (exponent < 0) exponent.natAbs

/-- A decimal numeral: digits before and after the point, and a power of ten. -/
structure Numeral where
  whole : List Char
  fraction : List Char
  exponent : Int

/-- How many digits are kept of a long numeral. A double, or a number halfway between two doubles,
has fewer. -/
def decisiveCount : Nat :=
  800

/-- Digits that decide the nearest double, and how many powers of ten they lost. The digits after
the kept ones are replaced by one that says whether any of them counts: no double and no halfway
number lies strictly between the kept digits and the next number of as many digits. -/
def decisive (figures : List Char) : List Char × Nat :=
  match figures.drop decisiveCount with
  | [] => (figures, 0)
  | rest =>
    (figures.take decisiveCount ++ [if rest.all (· == '0') then '0' else '1'], rest.length - 1)

def Numeral.toFloat (n : Numeral) : Float :=
  let (figures, lost) := decisive ((n.whole ++ n.fraction).dropWhile (· == '0'))
  nearest (decimalValue figures) (n.exponent - n.fraction.length + lost)

/-- A sign, if one stands in front, and the characters after it. -/
def takeSign : List Char → Bool × List Char
  | '-' :: rest => (true, rest)
  | '+' :: rest => (false, rest)
  | text => (false, text)

/-- The bound at which a written exponent stops growing. -/
def exponentLimit : Nat :=
  0x10000

/-- The number the digits of an exponent write. Once it has reached the limit, further digits leave
it as it is. -/
def exponentValue (figures : List Char) : Nat :=
  figures.foldl (fun total c =>
    if total < exponentLimit then total * 10 + (digitValue c).getD 0 else total) 0

/-- The exponent part of a numeral: empty, or the letter `e` with a signed number up to the end. -/
def readExponent : List Char → Option Int
  | [] => some 0
  | mark :: rest =>
    if mark == 'e' || mark == 'E' then
      let (negative, figures) := takeSign rest
      if figures.isEmpty || !figures.all Char.isDigit then none
      else some (if negative then -(exponentValue figures : Int) else exponentValue figures)
    else none

/-- Reads a whole text as a signed decimal numeral with at least one digit before the exponent. -/
def readFloat (text : List Char) : Option Float := do
  let (negative, unsigned) := takeSign text
  let whole := unsigned.takeWhile Char.isDigit
  let afterWhole := unsigned.dropWhile Char.isDigit
  let (fraction, rest) :=
    match afterWhole with
    | '.' :: more => (more.takeWhile Char.isDigit, more.dropWhile Char.isDigit)
    | _ => ([], afterWhole)
  if whole.isEmpty && fraction.isEmpty then none
  else
    let exponent ← readExponent rest
    let magnitude := (Numeral.mk whole fraction exponent).toFloat
    some (if negative then -magnitude else magnitude)

/-- The value of a finite double to single precision and then to seven significant digits. -/
def roundSingle (x : Float) : Float32 :=
  let single := x.toFloat32
  let wide := single.toFloat
  if wide.isFinite && wide != 0 then
    let (n, unit) := (Dyadic.ofFloat wide).expansion.round 7
    let magnitude := (nearest n unit).toFloat32
    if signBit wide then -magnitude else magnitude
  else single

end BrightScript.Decimal
