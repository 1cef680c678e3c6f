import BrightScript.Evaluate.Program

/-!
# Capped arrays

An array is capped if it has at most `ArrayObject.maxSize` elements. The rules keep arrays capped in
most of what they do: storing is done at places that were checked against the greatest size, a `dim`
is refused if it asks for too many arrays, and taking elements away needs no check. The rest is lax:
an array that is made from a list of values can have any size, and so can one that gets elements at
its ends.
-/

namespace BrightScript

variable {h : Heap} {total : Nat}

/-- No array has more than the greatest size. -/
def Heap.Capped (h : Heap) : Prop :=
  ∀ a ∈ h.arrays, a.size ≤ ArrayObject.maxSize

/-- A change of the heap that keeps arrays capped. -/
def Heap.Mild (f : Heap → Heap) : Prop :=
  ∀ h : Heap, h.Capped → (f h).Capped

/-- Whether a method makes or extends an array without a check. -/
def Method.isLax : Method → Bool
  | .array .push | .array .unshift | .array .append => true
  | .assoc .keys | .assoc .items => true
  | .string .split => true
  | _ => false

def Target.isLax : Target → Bool
  | .method m _ => m.isLax
  | _ => false

/-! ## Arrays -/

namespace ArrayObject

theorem size_put (a : ArrayObject) (place : Nat) (v : Value) :
    (a.put place v).size = max a.size (place + 1) := by
  unfold put
  split
  · next h =>
    simp only [size, Array.size_setIfInBounds] at h ⊢
    omega
  · next h =>
    simp only [size, Array.size_push, Array.size_append, Array.size_replicate] at h ⊢
    omega

theorem place_lt {index : Int64} {n : Nat} (h : place index = .ok n) : n < maxSize := by
  unfold place at h
  split at h
  · next hin =>
    cases h
    exact hin.2
  · cases h

/-- Whether a change of an array keeps it within the greatest size. -/
def Bounds (f : ArrayObject → ArrayObject) : Prop :=
  ∀ a, a.size ≤ maxSize → (f a).size ≤ maxSize

theorem Bounds.put {index : Int64} {place : Nat} (h : ArrayObject.place index = .ok place)
    (v : Value) : Bounds (·.put place v) := by
  intro a ha
  have hplace := place_lt h
  rw [size_put]
  omega

theorem Bounds.pop : Bounds fun a => ⟨a.elements.pop⟩ := by
  intro a ha
  simp only [size, Array.size_pop] at ha ⊢
  omega

theorem Bounds.dropFirst : Bounds Library.dropFirst := by
  intro a ha
  simp only [Library.dropFirst, size, Array.size_extract] at ha ⊢
  omega

theorem Bounds.clear : Bounds fun _ => default :=
  fun _ _ => Nat.zero_le _

theorem Bounds.reverse : Bounds fun a => ⟨a.elements.reverse⟩ := by
  intro a ha
  simpa only [size, Array.size_reverse] using ha

end ArrayObject

/-! ## Heaps -/

namespace Heap

theorem array_newArray (h : Heap) (a : ArrayObject) :
    (h.newArray a).2.array (h.newArray a).1 = a := by
  simp [newArray, array]

theorem array_modifyArray {r : ArrayRef} (hr : r.index < h.arrays.size)
    (f : ArrayObject → ArrayObject) : (h.modifyArray r f).array r = f (h.array r) := by
  simp [Heap.array, Heap.modifyArray, hr, Array.getElem_modify]

/-- The sizes of a grid within bounds, where `total` arrays have been asked for so far. -/
def Fits : (total : Nat) → List Nat → Prop
  | _, [] => True
  | total, size :: rest => total * size ≤ ArrayObject.maxSize ∧ Fits (total * size) rest

theorem size_newMany (make : Heap → Value × Heap) (count : Nat) (made : Array Value) (h : Heap) :
    (newMany make count made h).1.size = made.size + count := by
  induction count generalizing made h with
  | zero => rfl
  | succ count ih =>
    rw [newMany]
    dsimp only
    rw [ih, Array.size_push]
    omega

namespace Capped

variable (hh : h.Capped)
include hh

theorem newArray {a : ArrayObject} (ha : a.size ≤ ArrayObject.maxSize) :
    (h.newArray a).2.Capped := by
  intro b hb
  rcases Array.mem_push.1 hb with hb | rfl
  · exact hh b hb
  · exact ha

theorem modifyArray {f : ArrayObject → ArrayObject} (hf : ArrayObject.Bounds f) (r : ArrayRef) :
    (h.modifyArray r f).Capped := by
  intro b hb
  obtain ⟨i, hi, rfl⟩ := Array.mem_iff_getElem.1 hb
  simp only [Heap.modifyArray] at hi ⊢
  rw [Array.getElem_modify]
  split
  · exact hf _ (hh _ (Array.getElem_mem _))
  · exact hh _ (Array.getElem_mem _)

theorem array (r : ArrayRef) : (h.array r).size ≤ ArrayObject.maxSize := by
  rw [Heap.array, Array.getD_eq_getD_getElem?]
  cases he : h.arrays[r.index]? with
  | none => exact Nat.zero_le _
  | some a => exact hh a (Array.mem_of_getElem? he)

theorem newMany {make : Heap → Value × Heap} (hmake : ∀ h : Heap, h.Capped → (make h).2.Capped)
    (count : Nat) (made : Array Value) : (newMany make count made h).2.Capped := by
  induction count generalizing made h with
  | zero => exact hh
  | succ count ih => exact ih (hmake h hh) _

theorem newGrid (htotal : 0 < total) {sizes : List Nat} (hfits : Fits total sizes) :
    (newGrid sizes h).2.Capped := by
  induction sizes generalizing total h with
  | nil => exact hh.newArray (Nat.zero_le _)
  | cons size rest ih =>
    obtain ⟨hsize, hrest⟩ := hfits
    have hmany : (Heap.newMany (Heap.newGrid rest) size #[] h).2.Capped := by
      rcases Nat.eq_zero_or_pos size with rfl | hpos
      · exact hh
      · exact hh.newMany (fun h hh => ih hh (Nat.mul_pos htotal hpos) hrest) size #[]
    refine hmany.newArray ?_
    rw [ArrayObject.size, size_newMany, Array.size_empty, Nat.zero_add]
    exact Nat.le_trans (Nat.le_mul_of_pos_left size htotal) hsize

end Capped

end Heap

end BrightScript
