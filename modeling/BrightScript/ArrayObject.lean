import BrightScript.Fault
import BrightScript.Value

/-!
# Arrays

An array grows when something is stored beyond its end; the places in between are `invalid`. Reading
outside an array gives `invalid` as well, while storing at a negative index or at or beyond the
greatest size is a fault.
-/

namespace BrightScript

structure ArrayObject where
  elements : Array Value

namespace ArrayObject

instance : Inhabited ArrayObject := ⟨⟨#[]⟩⟩

def maxSize : Nat := Nat.pow 2 24

def ofList (elements : List Value) : ArrayObject :=
  ⟨elements.toArray⟩

def size (a : ArrayObject) : Nat :=
  a.elements.size

def isEmpty (a : ArrayObject) : Bool :=
  a.elements.isEmpty

def toList (a : ArrayObject) : List Value :=
  a.elements.toList

def get (a : ArrayObject) (index : Int64) : Value :=
  if index < 0 then .invalid else a.elements.getD index.toInt.toNat .invalid

def place (index : Int64) : Except Fault Nat :=
  if 0 ≤ index ∧ index.toInt.toNat < maxSize then .ok index.toInt.toNat
  else .error .indexOutOfBounds

def put (a : ArrayObject) (place : Nat) (v : Value) : ArrayObject :=
  if place < a.size then ⟨a.elements.setIfInBounds place v⟩
  else ⟨(a.elements ++ Array.replicate (place - a.size) Value.invalid).push v⟩

def set (a : ArrayObject) (index : Int64) (v : Value) : Except Fault ArrayObject :=
  (place index).map (a.put · v)

end ArrayObject

end BrightScript
