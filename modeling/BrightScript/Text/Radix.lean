import BrightScript.Decimal.Reading
import BrightScript.Text.Blank

/-!
# Numbers in texts

Integers are written and read in bases from 2 to 36, with small letters for the digits from ten on.
Scripts also read a number from the start of a text and ignore what follows it.
-/

namespace BrightScript.Text

def radixDigits : List Char :=
  "0123456789abcdefghijklmnopqrstuvwxyz".toList

def radixDigit (n : Nat) : Char :=
  radixDigits.getD n '0'

/-- The digits of a number in a base of at least two. -/
def radixFigures (base n : Nat) : List Char :=
  if _h : base < 2 ∨ n < base then [radixDigit n]
  else radixFigures base (n / base) ++ [radixDigit (n % base)]
termination_by n
decreasing_by exact Nat.div_lt_self (by omega) (by omega)

def writeInt (base : Nat) (n : Int) : String :=
  let figures := String.ofList (radixFigures base n.natAbs)
  if n < 0 then "-" ++ figures else figures

/-- Reads a whole text as an integer of 64 bits in a base: a sign, if any, and at least one
digit. -/
def readInt64? (base : Nat) (text : List Char) : Option Int64 := do
  let (negative, figures) := Decimal.takeSign text
  if figures.isEmpty then none
  else
    let magnitude ← Decimal.readNat base figures
    let n : Int := if negative then -(magnitude : Int) else magnitude
    if Int64.minValue.toInt ≤ n && n ≤ Int64.maxValue.toInt then some (Int64.ofInt n) else none

/-- The integer at the start of a text, after blanks; zero if there is none or it does not fit. -/
def leadingInt (text : String) : Int64 :=
  let (negative, rest) := Decimal.takeSign (trimStart text).toList
  let figures := rest.takeWhile Char.isDigit
  match if figures.isEmpty then none else readInt64? 10 figures with
  | some n => if negative then -n else n
  | none => 0

/-- Whether a character can follow in a decimal numeral. A sign stands first or after the exponent
mark, and a point and an exponent mark come at most once and in this order. -/
def continuesNumeral (previous : Option Char) (pointSeen markSeen : Bool) (c : Char) : Bool :=
  if c.isDigit then true
  else if c == '+' || c == '-' then previous.all fun p => p == 'e' || p == 'E'
  else if c == '.' then !pointSeen && !markSeen
  else if c == 'e' || c == 'E' then !markSeen && previous.isSome
  else false

def numeralRun (previous : Option Char) (pointSeen markSeen : Bool) : List Char → List Char
  | [] => []
  | c :: rest =>
    if continuesNumeral previous pointSeen markSeen c then
      c :: numeralRun (some c) (pointSeen || c == '.') (markSeen || c == 'e' || c == 'E') rest
    else []

/-- The value of the longest numeral that a run of characters, given in reverse, starts with. -/
def longestNumeral : List Char → Float
  | [] => 0
  | c :: rest =>
    match Decimal.readFloat (c :: rest).reverse with
    | some x => x
    | none => longestNumeral rest

def leadingFloat (text : String) : Float :=
  longestNumeral (numeralRun none false false (trimStart text).toList).reverse

end BrightScript.Text
