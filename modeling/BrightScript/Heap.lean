import BrightScript.ArrayObject
import BrightScript.AssocArray
import BrightScript.Decimal.Format

/-!
# The heap

Arrays and associative arrays in the order they were made. References are never reused. The text of
a value needs the heap, because a collection shows its elements; inside a listing, collections show
only their name and strings are quoted.
-/

namespace BrightScript

structure Heap where
  arrays : Array ArrayObject
  assocs : Array AssocArray

namespace Heap

def empty : Heap :=
  ⟨#[], #[]⟩

instance : Inhabited Heap := ⟨empty⟩

def array (h : Heap) (r : ArrayRef) : ArrayObject :=
  h.arrays.getD r.index default

def assoc (h : Heap) (r : AssocRef) : AssocArray :=
  h.assocs.getD r.index default

def newArray (h : Heap) (a : ArrayObject) : ArrayRef × Heap :=
  (⟨h.arrays.size⟩, { h with arrays := h.arrays.push a })

def newAssoc (h : Heap) (a : AssocArray) : AssocRef × Heap :=
  (⟨h.assocs.size⟩, { h with assocs := h.assocs.push a })

def modifyArray (h : Heap) (r : ArrayRef) (f : ArrayObject → ArrayObject) : Heap :=
  { h with arrays := h.arrays.modify r.index f }

def modifyAssoc (h : Heap) (r : AssocRef) (f : AssocArray → AssocArray) : Heap :=
  { h with assocs := h.assocs.modify r.index f }

def newMany (make : Heap → Value × Heap) : (count : Nat) → Array Value → Heap → Array Value × Heap
  | 0, made, h => (made, h)
  | count + 1, made, h =>
    let (v, h) := make h
    newMany make count (made.push v) h

/-- Makes arrays within arrays, as many in each as the sizes say, with empty arrays innermost. -/
def newGrid : List Nat → Heap → Value × Heap
  | [], h =>
    let (ref, h) := h.newArray default
    (.array ref, h)
  | size :: rest, h =>
    let (elements, h) := newMany (newGrid rest) size #[] h
    let (ref, h) := h.newArray ⟨elements⟩
    (.array ref, h)

end Heap

namespace Value

def componentText (c : Component) : String :=
  s!"<Component: {c.name}>"

def nestedText : Value → String
  | invalid => "invalid"
  | uninitialized => "<UNINITIALIZED>"
  | boolean b => if b then "true" else "false"
  | string s => "\"" ++ s ++ "\""
  | integer n => toString n.toInt
  | longInteger n => toString n.toInt
  | float x => Decimal.NumberFormat.general.write x.toFloat
  | double x => Decimal.NumberFormat.full.write x
  | function c => s!"<Function: {Text.fold c.name}>"
  | array _ => componentText .array
  | assoc _ => componentText .assocArray
  | boxed content => content.nestedText

end Value

namespace ArrayObject

def text (a : ArrayObject) : String :=
  let lines := a.toList.map fun v => "    " ++ v.nestedText ++ "\n"
  Value.componentText .array ++ " =\n[\n" ++ String.join lines ++ "]"

end ArrayObject

namespace AssocArray

def text (a : AssocArray) : String :=
  let lines := a.toList.map fun e => "    " ++ e.shown ++ ": " ++ e.value.nestedText ++ "\n"
  Value.componentText .assocArray ++ " =\n\x7b\n" ++ String.join lines ++ "\x7d"

end AssocArray

/-- The text of a value as `print` shows it. -/
def Heap.text (h : Heap) : Value → String
  | .string s => s
  | .array r => (h.array r).text
  | .assoc r => (h.assoc r).text
  | .boxed content => h.text content
  | v => v.nestedText

/-- The elements a `for each` walks over: those of an array, the keys of an associative array. -/
def Heap.elements? (h : Heap) : Value → Option (List Value)
  | .array r => some (h.array r).toList
  | .assoc r => some ((h.assoc r).keys.map .string)
  | _ => none

end BrightScript
