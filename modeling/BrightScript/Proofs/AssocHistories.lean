import Mathlib.Data.List.Induction
import BrightScript.Proofs.CaughtFields
import BrightScript.Proofs.TextBytes

/-!
# Associative arrays as maps

An associative array is made by a literal and then changed by stores, removals, clearing and by
appending other arrays, or itself, to it. Each of these operations comes down to edits of single
keys (`AssocArray.Edit`). The value of a key is that of its latest store that nothing has cancelled
since (`AssocArray.Latest`), and edits of other keys leave an entry as it is, with its spelling. The
operations are run on arrays of the heap, so that an array can be appended to itself and to others
that change in between.
-/

namespace BrightScript

variable {a : AssocArray} {key : String} {h : Heap} {r : AssocRef}

/-! ## Edits -/

namespace AssocArray

/-- A change of an associative array. -/
inductive Edit where
  | set (key : String) (value : Value) (keepSpelling : Bool)
  | remove (key : String)
  | clear

namespace Edit

def apply (a : AssocArray) : Edit → AssocArray
  | set key v keep => a.set key v keep
  | remove key => a.erase key
  | clear => .empty

def Concerns (key : String) : Edit → Prop
  | set other _ _ => Text.fold other = Text.fold key
  | remove other => Text.fold other = Text.fold key
  | clear => True

def ofEntry (e : Entry) : Edit :=
  set e.shown e.value true

def ofMember (member : String × Value) : Edit :=
  set member.1 member.2 true

end Edit

def lookup? (a : AssocArray) (key : String) : Option Entry :=
  a.entries[Text.fold key]?

def Latest (edits : List Edit) (key : String) (v : Value) : Prop :=
  ∃ before written keep after, edits = before ++ .set written v keep :: after ∧
    Text.fold written = Text.fold key ∧ ∀ e ∈ after, ¬ e.Concerns key

theorem get?_eq_map_lookup? (a : AssocArray) (key : String) :
    a.get? key = (a.lookup? key).map Entry.value :=
  rfl

theorem lookup?_apply {e : Edit} (h : ¬ e.Concerns key) :
    (e.apply a).lookup? key = a.lookup? key := by
  cases e with
  | set other v keep =>
    exact (Std.ExtTreeMap.getElem?_insert).trans
      (if_neg fun heq => h (Std.LawfulEqCmp.eq_of_compare heq))
  | remove other =>
    exact (Std.ExtTreeMap.getElem?_erase).trans
      (if_neg fun heq => h (Std.LawfulEqCmp.eq_of_compare heq))
  | clear => exact absurd trivial h

theorem lookup?_foldl_apply {edits : List Edit} (h : ∀ e ∈ edits, ¬ e.Concerns key) :
    (edits.foldl Edit.apply a).lookup? key = a.lookup? key := by
  induction edits generalizing a with
  | nil => rfl
  | cons e edits ih =>
    rw [List.forall_mem_cons] at h
    exact (ih h.2).trans (lookup?_apply h.1)

/-- The latest change of a key is the last one, or the last one is none of that key. -/
theorem latest_append {edits : List Edit} {e : Edit} {v : Value} :
    Latest (edits ++ [e]) key v ↔
      (∃ written keep, e = .set written v keep ∧ Text.fold written = Text.fold key) ∨
        ¬ e.Concerns key ∧ Latest edits key v := by
  constructor
  · rintro ⟨before, written, keep, after, heq, hkey, hafter⟩
    obtain rfl | ⟨after, last, rfl⟩ := after.eq_nil_or_concat
    · obtain ⟨-, heq⟩ := List.append_inj' heq rfl
      exact .inl ⟨written, keep, List.singleton_inj.1 heq, hkey⟩
    · rw [List.concat_eq_append, ← List.cons_append, ← List.append_assoc] at heq
      obtain ⟨rfl, hlast⟩ := List.append_inj' heq rfl
      cases List.singleton_inj.1 hlast
      rw [List.concat_eq_append, List.forall_mem_append] at hafter
      exact .inr ⟨hafter.2 e List.mem_cons_self, before, written, keep, after, rfl, hkey, hafter.1⟩
  · rintro (⟨written, keep, rfl, hkey⟩ | ⟨hother, before, written, keep, after, rfl, hkey, hafter⟩)
    · exact ⟨edits, written, keep, [], rfl, hkey, fun _ he => by cases he⟩
    · refine ⟨before, written, keep, after ++ [e], by simp, hkey, ?_⟩
      rw [List.forall_mem_append, List.forall_mem_singleton]
      exact ⟨hafter, hother⟩

/-- The value of a key is the latest one. By induction on the changes from the last one back. -/
theorem get?_foldl_apply_iff {edits : List Edit} {v : Value} :
    (edits.foldl Edit.apply empty).get? key = some v ↔ Latest edits key v := by
  induction edits using List.reverseRecOn with
  | nil =>
    constructor
    · intro h
      cases h
    · rintro ⟨before, _, _, _, heq, -⟩
      cases before <;> cases heq
  | append_singleton edits e ih =>
    rw [List.foldl_append, latest_append]
    by_cases hconcerns : e.Concerns key
    · have hnot : ¬ (¬ e.Concerns key ∧ Latest edits key v) := fun h => h.1 hconcerns
      rw [or_iff_left hnot]
      show (e.apply _).get? key = some v ↔ _
      cases e with
      | set written value keep =>
        have hkey : Text.fold written = Text.fold key := hconcerns
        rw [Edit.apply, get?_set, if_pos hkey, Option.some.injEq]
        refine ⟨fun h => ⟨written, keep, h ▸ rfl, hkey⟩, ?_⟩
        rintro ⟨_, _, heq, -⟩
        cases heq
        rfl
      | remove written =>
        have hkey : Text.fold written = Text.fold key := hconcerns
        rw [Edit.apply, get?_erase, if_pos hkey]
        simp
      | clear => simp [Edit.apply, empty, get?]
    · have hnot :
          ¬ ∃ written keep, e = .set written v keep ∧ Text.fold written = Text.fold key := by
        rintro ⟨written, keep, rfl, hkey⟩
        exact hconcerns hkey
      rw [or_iff_right hnot, and_iff_right hconcerns, ← ih]
      show (e.apply _).get? key = some v ↔ _
      rw [get?_eq_map_lookup?, lookup?_apply hconcerns, ← get?_eq_map_lookup?]

/-! ## Entries -/

theorem mem_toList_iff {e : Entry} : e ∈ a.toList ↔ a.lookup? e.shown = some e := by
  constructor
  · intro he
    obtain ⟨⟨key, e⟩, hmem, rfl⟩ := List.mem_map.1 he
    have hget := Std.ExtTreeMap.mem_toList_iff_getElem?_eq_some.1 hmem
    rw [lookup?, a.keyed _ _ hget]
    exact hget
  · intro he
    exact List.mem_map.2 ⟨_, Std.ExtTreeMap.mem_toList_iff_getElem?_eq_some.2 he, rfl⟩

/-- Storing an entry that is there already. -/
theorem set_entry {e : Entry} (h : a.lookup? e.shown = some e) :
    a.set e.shown e.value true = a := by
  refine AssocArray.ext (Std.ExtTreeMap.ext_getElem? fun key => ?_)
  show (a.entries.insert (Text.fold e.shown) e)[key]? = _
  rw [Std.ExtTreeMap.getElem?_insert]
  split
  · next heq =>
    rw [← Std.LawfulEqCmp.eq_of_compare heq]
    exact h.symm
  · rfl

theorem append_of_mem {entries : List Entry} (h : ∀ e ∈ entries, a.lookup? e.shown = some e) :
    a.append entries = a := by
  induction entries with
  | nil => rfl
  | cons e entries ih =>
    rw [List.forall_mem_cons] at h
    show (a.set e.shown e.value true).append entries = a
    rw [set_entry h.1]
    exact ih h.2

theorem append_self (a : AssocArray) : a.append a.toList = a :=
  append_of_mem fun _ => mem_toList_iff.1

theorem length_keys (a : AssocArray) : a.keys.length = a.size := by
  rw [keys, toList, List.length_map, List.length_map]
  exact Std.ExtTreeMap.length_toList

theorem append_eq_foldl (a : AssocArray) (entries : List Entry) :
    a.append entries = (entries.map Edit.ofEntry).foldl Edit.apply a := by
  rw [append, List.foldl_map]
  rfl

theorem ofMembers_eq_foldl (members : List (String × Value)) :
    ofMembers members = (members.map Edit.ofMember).foldl Edit.apply empty := by
  rw [ofMembers, List.foldl_map]
  rfl

/-- What makes an associative array the map that changes of an empty one give. -/
structure IsMap (a : AssocArray) (edits : List Edit) : Prop where
  keyed : ∀ key e, a.entries[key]? = some e → key = Text.fold e.shown
  ordered : a.keys.Pairwise fun k k' => Text.bytes (Text.fold k) < Text.bytes (Text.fold k')
  distinct : a.keys.Pairwise fun k k' => Text.fold k ≠ Text.fold k'
  length : a.keys.length = a.size
  latest : ∀ key v, a.get? key = some v ↔ Latest edits key v
  contains : ∀ key, a.contains key = true ↔ ∃ v, a.get? key = some v

theorem isMap_foldl_apply (edits : List Edit) : (edits.foldl Edit.apply empty).IsMap edits where
  keyed key e he := ((edits.foldl Edit.apply empty).keyed key e he).symm
  ordered := List.pairwise_map.2 ((ordered_toList _).imp fun h => Text.bytes_lt h)
  distinct := by
    refine List.pairwise_map.2 ((ordered_toList _).imp fun {e e'} h heq => ?_)
    rw [show e.key = e'.key from heq, Std.compare_self] at h
    cases h
  length := length_keys _
  latest _ _ := get?_foldl_apply_iff
  contains key := by rw [contains_eq_isSome_get?, Option.isSome_iff_exists]

end AssocArray

/-! ## Operations on the heap -/

/-- A change that leaves an associative array as it is. -/
theorem Heap.modifyAssoc_eq_self {f : AssocArray → AssocArray} (hf : f (h.assoc r) = h.assoc r) :
    h.modifyAssoc r f = h := by
  refine congrArg (Heap.mk h.arrays) (Array.ext (by simp) fun i hi hi' => ?_)
  rw [Array.getElem_modify]
  split
  · next heq =>
    have hassoc : h.assoc r = h.assocs[i] := by simp [assoc, heq, hi']
    rwa [hassoc] at hf
  · rfl

namespace AssocArray

/-- What a script does to an associative array. -/
inductive Operation where
  | store (key : String) (value : Value) (keepSpelling : Bool)
  | remove (key : String)
  | clear
  /-- Appends the associative array of a reference, which may be the same one. -/
  | append (source : AssocRef)

namespace Operation

def perform (r : AssocRef) : Operation → Run Unit
  | store key v keep => Run.modifyAssoc r (·.set key v keep)
  | remove key => discard (Library.assocMethod .delete r [.string key])
  | clear => discard (Library.assocMethod .clear r [])
  | append source => discard (Library.assocMethod .append r [.assoc source])

/-- Runs operations one after the other, each on an associative array of its own. -/
def performAll : List (AssocRef × Operation) → Run Unit
  | [] => pure ()
  | (r, operation) :: rest => do
    operation.perform r
    performAll rest

def edits (h : Heap) : Operation → List Edit
  | store key v keep => [.set key v keep]
  | remove key => [.remove key]
  | clear => [.clear]
  | append source => (h.assoc source).toList.map Edit.ofEntry

def after (h : Heap) (r : AssocRef) (operation : Operation) : Heap :=
  h.modifyAssoc r fun a => (operation.edits h).foldl Edit.apply a

/-- The changes that operations make of the associative array of a reference. -/
def editsOf (r : AssocRef) : List (AssocRef × Operation) → Heap → List Edit
  | [], _ => []
  | (target, operation) :: rest, h =>
    (if target = r then operation.edits h else []) ++ editsOf r rest (operation.after h target)

theorem perform_apply (r : AssocRef) (operation : Operation) (s : Session) :
    operation.perform r s = .done () { s with heap := operation.after s.heap r } := by
  cases operation with
  | append source =>
    have hmodify : (fun a => (((s.heap.assoc source).toList.map Edit.ofEntry).foldl Edit.apply a)) =
        fun a : AssocArray => a.append (s.heap.assoc source).toList :=
      funext fun a => (append_eq_foldl a _).symm
    rw [after, edits, hmodify]
    rfl
  | _ => rfl

theorem assoc_after_self (hr : r.index < h.assocs.size) (operation : Operation) :
    (operation.after h r).assoc r = (operation.edits h).foldl Edit.apply (h.assoc r) := by
  simp [after, Heap.assoc, Heap.modifyAssoc, Array.getElem_modify, hr]

theorem assoc_after_of_ne {target : AssocRef} (hne : target ≠ r) (operation : Operation) :
    (operation.after h target).assoc r = h.assoc r := by
  have hindex : target.index ≠ r.index := fun heq => hne (by cases target; cases r; cases heq; rfl)
  simp [after, Heap.assoc, Heap.modifyAssoc, Array.getElem?_modify, hindex]

/-- Operations make their changes one after the other. By induction on the operations; the heap of
each one is that after those before it. -/
theorem performAll_apply (operations : List (AssocRef × Operation)) (s : Session) :
    ∃ heap, performAll operations s = .done () { s with heap := heap } ∧
      heap.assocs.size = s.heap.assocs.size ∧
      ∀ r : AssocRef, r.index < s.heap.assocs.size → heap.assoc r =
        (editsOf r operations s.heap).foldl Edit.apply (s.heap.assoc r) := by
  induction operations generalizing s with
  | nil => exact ⟨s.heap, rfl, rfl, fun _ _ => rfl⟩
  | cons first rest ih =>
    obtain ⟨target, operation⟩ := first
    have hsize : (operation.after s.heap target).assocs.size = s.heap.assocs.size := by
      simp [after, Heap.modifyAssoc]
    obtain ⟨heap, hrun, hheap, hedits⟩ := ih { s with heap := operation.after s.heap target }
    refine ⟨heap, ?_, hheap.trans hsize, fun r hr => ?_⟩
    · rw [performAll, Routine.bind_apply, perform_apply]
      exact hrun
    · rw [hedits r (hsize.symm ▸ hr), editsOf, List.foldl_append]
      congr 1
      by_cases htarget : target = r
      · subst htarget
        rw [if_pos rfl, assoc_after_self hr]
      · rw [if_neg htarget, assoc_after_of_ne htarget]
        rfl

/-- An associative array that is appended to itself. -/
theorem perform_append_self (r : AssocRef) (s : Session) :
    (append r).perform r s = .done () s := by
  have hsame : s.heap.modifyAssoc r (·.append (s.heap.assoc r).toList) = s.heap :=
    Heap.modifyAssoc_eq_self (append_self _)
  show Outcome.done () { s with heap := s.heap.modifyAssoc r _ } = _
  rw [hsame]

end Operation

end AssocArray

open AssocArray in
/-- An associative array is the map that its history gives. It is made by a literal, in any session,
and operations are run on it and on other associative arrays in any order. Then its keys are in
order, each key has its latest value, a further operation leaves the entries of other keys and the
other associative arrays as they are, and appending it to itself changes nothing. -/
theorem assocArray_isMap (s : Session) (members : List (String × Value))
    (operations : List (AssocRef × Operation)) :
    ∃ (r : AssocRef) (made t : Session),
      Run.newAssoc (.ofMembers members) s = .done (.assoc r) made ∧
      Operation.performAll operations made = .done () t ∧
      (t.heap.assoc r).IsMap
        (members.map Edit.ofMember ++ Operation.editsOf r operations made.heap) ∧
      (∀ operation : Operation, ∃ u, operation.perform r t = .done () u ∧
        (∀ key, (∀ e ∈ operation.edits t.heap, ¬ e.Concerns key) →
          (u.heap.assoc r).lookup? key = (t.heap.assoc r).lookup? key) ∧
        ∀ other, other ≠ r → u.heap.assoc other = t.heap.assoc other) ∧
      (Operation.append r).perform r t = .done () t := by
  let made : Session := { s with heap := (s.heap.newAssoc (.ofMembers members)).2 }
  let r : AssocRef := (s.heap.newAssoc (.ofMembers members)).1
  have hr : r.index < made.heap.assocs.size := by simp [r, made, Heap.newAssoc]
  obtain ⟨heap, hrun, hsize, hedits⟩ := Operation.performAll_apply operations made
  have hmade : made.heap.assoc r = (members.map Edit.ofMember).foldl Edit.apply empty :=
    (s.heap.assoc_newAssoc _).trans (ofMembers_eq_foldl members)
  refine ⟨r, made, { made with heap := heap }, rfl, hrun, ?_, fun operation => ?_,
    Operation.perform_append_self r _⟩
  · show (heap.assoc r).IsMap _
    rw [hedits r hr, hmade, ← List.foldl_append]
    exact isMap_foldl_apply _
  · refine ⟨_, operation.perform_apply r _, fun key hkey => ?_, fun other hother => ?_⟩
    · show ((operation.after heap r).assoc r).lookup? key = (heap.assoc r).lookup? key
      rw [Operation.assoc_after_self (hsize ▸ hr)]
      exact lookup?_foldl_apply hkey
    · exact Operation.assoc_after_of_ne (Ne.symm hother) operation

end BrightScript
