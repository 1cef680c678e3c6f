import Std.Data.ExtTreeMap
import BrightScript.Value

/-!
# Associative arrays

Keys are compared without regard to the case of ASCII letters and kept in the order of their folded
spelling. Every entry also shows its key in some spelling: a store that keeps the spelling shows the
key as it was written, any other store leaves the spelling of an entry alone and shows a new key
folded.
-/

namespace BrightScript

/-- A value and the spelling of its key. -/
structure Entry where
  shown : String
  value : Value

/-- Values by keys. Every entry is stored under the folded spelling that it shows. -/
@[ext]
structure AssocArray where
  entries : Std.ExtTreeMap String Entry compare
  keyed : ∀ key e, entries[key]? = some e → Text.fold e.shown = key

namespace AssocArray

def empty : AssocArray :=
  ⟨∅, fun key e he => by simp at he⟩

instance : Inhabited AssocArray := ⟨empty⟩

def size (a : AssocArray) : Nat :=
  a.entries.size

def isEmpty (a : AssocArray) : Bool :=
  a.entries.isEmpty

def get? (a : AssocArray) (key : String) : Option Value :=
  a.entries[Text.fold key]?.map Entry.value

def contains (a : AssocArray) (key : String) : Bool :=
  a.entries.contains (Text.fold key)

def spelling (a : AssocArray) (key : String) (keepSpelling : Bool) : String :=
  if keepSpelling then key
  else
    match a.entries[Text.fold key]? with
    | some entry => entry.shown
    | none => Text.fold key

theorem fold_spelling (a : AssocArray) (key : String) (keepSpelling : Bool) :
    Text.fold (a.spelling key keepSpelling) = Text.fold key := by
  unfold spelling
  split
  · rfl
  · split
    · next entry hentry => exact a.keyed _ entry hentry
    · exact Text.fold_fold key

def set (a : AssocArray) (key : String) (v : Value) (keepSpelling : Bool) : AssocArray :=
  ⟨a.entries.insert (Text.fold key) ⟨a.spelling key keepSpelling, v⟩, fun other e he => by
    rw [Std.ExtTreeMap.getElem?_insert] at he
    split at he
    · next heq =>
      cases he
      exact (a.fold_spelling key keepSpelling).trans (Std.LawfulEqCmp.eq_of_compare heq)
    · exact a.keyed other e he⟩

def erase (a : AssocArray) (key : String) : AssocArray :=
  ⟨a.entries.erase (Text.fold key), fun other e he => by
    rw [Std.ExtTreeMap.getElem?_erase] at he
    split at he
    · cases he
    · exact a.keyed other e he⟩

def toList (a : AssocArray) : List Entry :=
  a.entries.toList.map (·.2)

def keys (a : AssocArray) : List String :=
  a.toList.map Entry.shown

def append (a : AssocArray) (entries : List Entry) : AssocArray :=
  entries.foldl (fun a e => a.set e.shown e.value true) a

def ofMembers (members : List (String × Value)) : AssocArray :=
  members.foldl (fun a (key, v) => a.set key v true) empty

theorem get?_set (a : AssocArray) (key other : String) (v : Value) (keep : Bool) :
    (a.set key v keep).get? other = if Text.fold key = Text.fold other then some v
      else a.get? other := by
  simp only [get?, set, Std.ExtTreeMap.getElem?_insert, Std.LawfulEqCmp.compare_eq_iff_eq]
  split <;> rfl

theorem get?_erase (a : AssocArray) (key other : String) :
    (a.erase key).get? other = if Text.fold key = Text.fold other then none
      else a.get? other := by
  simp only [get?, erase, Std.ExtTreeMap.getElem?_erase, Std.LawfulEqCmp.compare_eq_iff_eq]
  split <;> rfl

theorem contains_eq_isSome_get? (a : AssocArray) (key : String) :
    a.contains key = (a.get? key).isSome := by
  simp [contains, get?]

end AssocArray

end BrightScript
