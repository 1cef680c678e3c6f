import BrightScript.Decimal.Digits

/-!
# Written numbers

A `NumberFormat` says how digits are chosen and laid out: within a range of orders the number is
written with a point where it belongs, outside it with an exponent. `general` is the format of
single-precision values and `full` that of double-precision values.
-/

namespace BrightScript.Decimal

/-- The decisions that fix the text of a number. -/
structure NumberFormat where
  /-- The number of significant digits; without it, the fewest that read back. -/
  figures : Option Nat
  /-- The least order written without an exponent. -/
  leastPlain : Int
  /-- The greatest order written without an exponent. -/
  greatestPlain : Int
  exponentWidth : Nat
  signedZero : Bool
  nan : String
  infinity : String

/-- Six significant digits, an exponent of at least two digits from a million on and below a
ten-thousandth. -/
def NumberFormat.general : NumberFormat :=
  ⟨some 6, -4, 5, 2, false, "nan", "inf"⟩

/-- The fewest digits that read back, an exponent from `1e21` on and below a millionth. -/
def NumberFormat.full : NumberFormat :=
  ⟨none, -6, 20, 1, true, "NaN", "Infinity"⟩

/-- The digits with a point after the one of order zero, and zeros where digits are missing. -/
def Digits.plain (d : Digits) : String :=
  match d.exponent with
  | .ofNat e =>
    let whole := d.figures.take (e + 1)
    let fraction := d.figures.drop (e + 1)
    let padded := String.ofList (whole ++ List.replicate (e + 1 - whole.length) '0')
    if fraction.isEmpty then padded else padded ++ "." ++ String.ofList fraction
  | .negSucc e => "0." ++ String.ofList (List.replicate e '0' ++ d.figures)

/-- The digits with a point after the first one and the order as a signed exponent. -/
def Digits.scientific (width : Nat) (d : Digits) : String :=
  let mantissa :=
    match d.figures with
    | first :: second :: rest => String.ofList (first :: '.' :: second :: rest)
    | figures => String.ofList figures
  let power := Nat.toDigits 10 d.exponent.natAbs
  let padded := String.ofList (List.replicate (width - power.length) '0' ++ power)
  mantissa ++ (if d.exponent < 0 then "e-" else "e+") ++ padded

def NumberFormat.write (format : NumberFormat) (x : Float) : String :=
  if x.isNaN then format.nan
  else
    let sign := if signBit x then "-" else ""
    if x.isInf then sign ++ format.infinity
    else if x == 0 then (if format.signedZero then sign else "") ++ "0"
    else
      let digits :=
        match format.figures with
        | some count => significant count x
        | none => shortest x
      let plain := format.leastPlain ≤ digits.exponent && digits.exponent ≤ format.greatestPlain
      sign ++ (if plain then digits.plain else digits.scientific format.exponentWidth)

end BrightScript.Decimal
