import BrightScript.Token
import BrightScript.Decimal.Reading

/-!
# Numeric literals

A hexadecimal literal is `&h` with digits and an optional `&`; up to 32 bits it is an integer's bit
pattern, beyond that a long integer's. A decimal literal is an integer when it has neither point nor
exponent, a double with the exponent letter `d`, and a float otherwise, unless one of the letters
`% & ! #` behind it says its kind.
-/

namespace BrightScript

/-- A numeric literal found at the front of a text: how many characters it takes, and its token or
what is wrong with it. -/
structure NumericLiteral where
  length : Nat
  content : Except String TokenKind

namespace NumericLiteral

def isHexDigit (c : Char) : Bool :=
  c.isDigit || ('a' ≤ c && c ≤ 'f') || ('A' ≤ c && c ≤ 'F')

/-- The token of a hexadecimal number; a long integer if it is marked so or needs the room. -/
def hexKind (figures : List Char) (long : Bool) : Except String TokenKind :=
  match Decimal.readNat 16 figures with
  | some n =>
    if n < Nat.pow 2 64 then
      if !long && n < Nat.pow 2 32 then .ok (.integer (Int32.ofNat n))
      else .ok (.longInteger (Int64.ofNat n))
    else .error s!"Hex literal &h{String.ofList figures} is out of range"
  | none => .error s!"Hex literal &h{String.ofList figures} is out of range"

/-- A hexadecimal literal after its `&h`. -/
def hex (text : List Char) : Option NumericLiteral :=
  let figures := text.takeWhile isHexDigit
  if figures.isEmpty then none
  else
    let long := text.drop figures.length |>.head? |> (· == some '&')
    some ⟨2 + figures.length + (if long then 1 else 0), hexKind figures long⟩

/-- The digits before and after a point at the front of a text, and how many characters they take
together with the point. -/
def mantissa (text : List Char) : Option (List Char × List Char × Bool) :=
  let whole := text.takeWhile Char.isDigit
  match text.drop whole.length with
  | '.' :: rest =>
    let fraction := rest.takeWhile Char.isDigit
    if whole.isEmpty && fraction.isEmpty then none else some (whole, fraction, true)
  | _ => if whole.isEmpty then none else some (whole, [], false)

/-- An exponent at the front of a text: its letter, its value and its length. A letter without
digits after it is no exponent. -/
def exponent : List Char → Option (Char × Int × Nat)
  | letter :: rest =>
    if letter == 'e' || letter == 'E' || letter == 'd' || letter == 'D' then
      let (negative, unsigned) := Decimal.takeSign rest
      let figures := unsigned.takeWhile Char.isDigit
      if figures.isEmpty then none
      else
        let value : Int := Decimal.exponentValue figures
        some (letter, if negative then -value else value,
          1 + (rest.length - unsigned.length) + figures.length)
    else none
  | [] => none

def suffix : List Char → Option Char
  | c :: _ => if c == '%' || c == '!' || c == '#' || c == '&' then some c else none
  | [] => none

def decimalKind (whole fraction : List Char) (pointed : Bool) (power : Option (Char × Int × Nat))
    (letter : Option Char) : TokenKind :=
  let value := (Decimal.Numeral.mk whole fraction (power.map (·.2.1) |>.getD 0)).toFloat
  let integral := !pointed && power.isNone
  let n := Decimal.decimalValue whole
  let exact := integral && n < Nat.pow 2 63
  match letter with
  | some '%' => .integer (if exact then Int32.ofNat n else value.toInt32)
  | some '&' => .longInteger (if exact then Int64.ofNat n else value.toInt64)
  | some '!' => .float value.toFloat32
  | some '#' => .double value
  | _ =>
    match power with
    | some ('d', _) => .double value
    | some ('D', _) => .double value
    | _ =>
      if !integral then .float value.toFloat32
      else if n < Nat.pow 2 31 then .integer (Int32.ofNat n)
      else if exact then .longInteger (Int64.ofNat n)
      else .double value

def decimal (text : List Char) : Option NumericLiteral :=
  match mantissa text with
  | none => none
  | some (whole, fraction, pointed) =>
    let mantissaLength := whole.length + fraction.length + (if pointed then 1 else 0)
    let afterMantissa := text.drop mantissaLength
    let power := exponent afterMantissa
    let powerLength := (power.map (·.2.2)).getD 0
    let letter := suffix (afterMantissa.drop powerLength)
    some ⟨mantissaLength + powerLength + (if letter.isSome then 1 else 0),
      .ok (decimalKind whole fraction pointed power letter)⟩

def ofText? (text : List Char) : Option NumericLiteral :=
  match text with
  | '&' :: 'h' :: rest => hex rest
  | '&' :: 'H' :: rest => hex rest
  | _ => decimal text

end NumericLiteral

end BrightScript
