import BrightScript.Value.Compare

/-!
# Arguments of library functions

Library functions find their arguments by position, already turned into the kinds their signatures
ask for. An argument that was left out counts as an empty text or as zero.
-/

namespace BrightScript.Library

def textAt (args : List Value) (i : Nat) : String :=
  match args[i]?.map Value.unbox with
  | some (.string s) => s
  | _ => ""

def integerAt (args : List Value) (i : Nat) : Int :=
  ((args[i]?.bind Value.toInt64?).getD 0).toInt

def numberAt (args : List Value) (i : Nat) : Float :=
  (args[i]?.bind Value.toFloat?).getD 0

def int32 (n : Int) : Value :=
  .integer (Int32.ofInt n)

end BrightScript.Library
