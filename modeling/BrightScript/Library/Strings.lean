import BrightScript.Library.Arguments
import BrightScript.Run
import BrightScript.Text.LetterCase
import BrightScript.Text.Radix

/-!
# Texts

Pieces of texts and searching, for the global functions and the methods of strings. The methods
count positions from zero, the global functions from one.
-/

namespace BrightScript.Library

/-- At most `count` characters from a position on; negative numbers count as zero. -/
def substring (text : String) (start : Int) (count : Option Int) : String :=
  Text.slice text start.toNat (count.map Int.toNat)

/-- The last `count` characters, as far as there are that many. -/
def ending (text : String) (count : Int) : String :=
  Text.slice text (text.length - count.toNat) none

def find (text needle : String) (start : Int) : Int :=
  match Text.findFrom text needle start.toNat with
  | some i => i
  | none => -1

/-- The text in a box: of a string the string itself. -/
def contentText (h : Heap) (receiver : Value) : String :=
  h.text receiver.unbox

def stringMethod (m : StringMethod) (receiver : Value) (args : List Value) : Run Value := do
  let text ← Routine.view fun s => contentText s.heap receiver
  match m with
  | .len => return int32 text.length
  | .left => return .string (substring text 0 (some (integerAt args 0)))
  | .right => return .string (ending text (integerAt args 0))
  | .mid =>
    let count := if args.length < 2 then none else some (integerAt args 1)
    return .string (substring text (integerAt args 0) count)
  | .instr =>
    if args.length < 2 then return int32 (find text (textAt args 0) 0)
    else return int32 (find text (textAt args 1) (integerAt args 0))
  | .trim => return .string (Text.trim text)
  | .toInt => return .integer (Text.leadingInt text).toInt32
  | .toFloat => return .ofFloat (Text.leadingFloat text)
  | .toStr => return .string text
  | .getString => return receiver.unbox
  | .ucase => return .string (Text.toCapitals text)
  | .lcase => return .string (Text.toSmall text)
  | .split => Run.newArray (.ofList ((Text.splitOn text (textAt args 0)).map .string))

end BrightScript.Library
