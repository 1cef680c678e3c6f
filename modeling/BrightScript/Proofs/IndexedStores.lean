import BrightScript.Proofs.Grids

/-!
# Storing at indexes

A store at indexes follows all indexes but the last one from array to array and puts the value into
the array it comes to. Arrays may be shared, and an array can even be an element of itself. What is
followed is the heap as it was before the store, so exactly one array changes (`Heap.Writes`). A
store that fails has changed nothing. Without any index there is no array to come to, and the
statement is over without a store.
-/

namespace BrightScript

/-! ## Arrays -/

/-- The elements after a store: the new one, those from before, and `invalid` in between. -/
theorem ArrayObject.getElem?_put (a : ArrayObject) (place : Nat) (v : Value) (i : Nat) :
    (a.put place v).elements[i]? =
      if i = place then some v
      else if i < a.size then a.elements[i]?
      else if i < place then some .invalid else none := by
  unfold put
  by_cases hin : place < a.size
  · rw [if_pos hin, Array.getElem?_setIfInBounds]
    have hin' : place < a.elements.size := hin
    by_cases hi : i = place
    · rw [if_pos hi.symm, if_pos hi, if_pos hin']
    · rw [if_neg (Ne.symm hi), if_neg hi]
      by_cases hold : i < a.size
      · rw [if_pos hold]
      · rw [if_neg hold, if_neg (by omega)]
        exact Array.getElem?_eq_none (Nat.le_of_not_lt hold)
  · have hsize : (a.elements ++ Array.replicate (place - a.size) Value.invalid).size = place := by
      simp only [size] at hin ⊢
      simp
      omega
    rw [if_neg hin, Array.getElem?_push, hsize]
    by_cases hi : i = place
    · rw [if_pos hi, if_pos hi]
    · rw [if_neg hi, if_neg hi, Array.getElem?_append]
      by_cases hold : i < a.size
      · rw [if_pos hold, if_pos (show i < a.elements.size from hold)]
      · have hlt : i - a.elements.size < place - a.size ↔ i < place := by
          simp only [size] at hold hin ⊢
          omega
        rw [if_neg hold, if_neg (show ¬ i < a.elements.size from hold), Array.getElem?_replicate]
        simp only [hlt]

theorem ArrayObject.mem_of_get {a : ArrayObject} {n : Int64} {c : ArrayRef}
    (hc : a.get n = .array c) : .array c ∈ a.toList := by
  unfold get at hc
  split at hc
  · cases hc
  · rw [Array.getD_eq_getD_getElem?] at hc
    cases helement : a.elements[n.toInt.toNat]? with
    | none =>
      rw [helement] at hc
      cases hc
    | some v =>
      rw [helement] at hc
      cases hc
      exact (Array.mem_of_getElem? helement).val

/-- An array is another one with a value stored at a place. -/
structure ArrayObject.Stores (a : ArrayObject) (place : Nat) (v : Value) (b : ArrayObject) :
    Prop where
  value : b.elements[place]? = some v
  size : b.size = max a.size (place + 1)
  kept : ∀ i, i < a.size → i ≠ place → b.elements[i]? = a.elements[i]?
  padded : ∀ i, a.size ≤ i → i < place → b.elements[i]? = some .invalid

theorem ArrayObject.stores_put (a : ArrayObject) (place : Nat) (v : Value) :
    a.Stores place v (a.put place v) where
  value := by rw [getElem?_put, if_pos rfl]
  size := a.size_put place v
  kept i hi hne := by rw [getElem?_put, if_neg hne, if_pos hi]
  padded i hi hlt := by
    rw [getElem?_put, if_neg (Nat.ne_of_lt hlt), if_neg (Nat.not_lt.2 hi), if_pos hlt]

namespace Heap

def follow (h : Heap) (r : ArrayRef) : List Int64 → Option ArrayRef
  | [] => some r
  | n :: rest =>
    match (h.array r).get n with
    | .array c => h.follow c rest
    | _ => none

/-- A heap is another one with a value stored at an index of one array. -/
structure Writes (h : Heap) (target : ArrayRef) (index : Int64) (v : Value) (h' : Heap) : Prop where
  assocs : h'.assocs = h.assocs
  arrays : h'.arrays.size = h.arrays.size
  others : ∀ r, r ≠ target → h'.array r = h.array r
  nonneg : 0 ≤ index.toInt
  stored : target.index < h.arrays.size →
    (h.array target).Stores index.toInt.toNat v (h'.array target)

variable {h : Heap} {r target : ArrayRef}

/-- Indexes lead to the array itself or to an element of an array. -/
theorem eq_or_mem_of_follow {path : List Int64} (hfollow : h.follow r path = some target) :
    target = r ∨ ∃ holder, .array target ∈ (h.array holder).toList := by
  induction path generalizing r with
  | nil =>
    cases hfollow
    exact .inl rfl
  | cons n path ih =>
    rw [follow] at hfollow
    split at hfollow
    · next c hc =>
      obtain rfl | hmem := ih hfollow
      · exact .inr ⟨r, ArrayObject.mem_of_get hc⟩
      · exact .inr hmem
    · cases hfollow

theorem writes_modifyArray {index : Int64} {place : Nat}
    (hplace : ArrayObject.place index = .ok place) (h : Heap) (target : ArrayRef) (v : Value) :
    h.Writes target index v (h.modifyArray target (·.put place v)) := by
  obtain ⟨hnonneg, rfl⟩ : 0 ≤ index.toInt ∧ index.toInt.toNat = place := by
    unfold ArrayObject.place at hplace
    split at hplace
    · next hin =>
      cases hplace
      exact ⟨Int64.le_iff_toInt_le.1 hin.1, rfl⟩
    · cases hplace
  refine ⟨rfl, Array.size_modify, fun r hr => ?_, hnonneg, fun htarget => ?_⟩
  · have hindex : target.index ≠ r.index := fun heq => hr (by cases r; cases target; cases heq; rfl)
    simp [array, modifyArray, Array.getElem?_modify, hindex]
  · rw [array_modifyArray htarget]
    exact ArrayObject.stores_put _ _ v

end Heap

/-! ## The store -/

theorem Run.heap_of_fault {α : Type} {f : Fault} {location : Location} {s t : Session}
    (ht : ((Run.fault f location : Run α) s).state? = some t) : t.heap = s.heap := by
  cases ht
  exact congrArg Core.heap (Session.core_note _ _)

namespace Evaluator

/-- Whether evaluating an expression leaves all arrays and associative arrays as they are. -/
def LeavesHeap (ev : Evaluator) (e : Expr) : Prop :=
  ∀ s t : Session, (ev.evaluate e s).state? = some t → t.heap = s.heap

/-- Indexes are evaluated one after the other, and give numbers. -/
inductive Indexes (ev : Evaluator) : List Expr → Session → List Int64 → Session → Prop
  | nil (s : Session) : Indexes ev [] s [] s
  | cons {index : Expr} {rest : List Expr} {n : Int64} {ns : List Int64} {s t u : Session} :
      ev.arrayIndex index s = .done n t → Indexes ev rest t ns u →
      Indexes ev (index :: rest) s (n :: ns) u

variable {ev : Evaluator} {closing location : Location} {v : Value} {indexes : List Expr}

theorem LeavesHeap.arrayIndex {e : Expr} (h : ev.LeavesHeap e) {s t : Session}
    (ht : (ev.arrayIndex e s).state? = some t) : t.heap = s.heap := by
  rw [Evaluator.arrayIndex, Routine.bind_apply] at ht
  have hheap := h s
  rcases hv : ev.evaluate e s with ⟨w, u⟩ | ⟨signal, u⟩ | _
  · rw [hv] at ht hheap
    have hu : u.heap = s.heap := hheap u rfl
    cases hn : w.toInt64? with
    | some n =>
      simp only [hn] at ht
      cases ht
      exact hu
    | none =>
      simp only [hn] at ht
      exact (Run.heap_of_fault ht).trans hu
  · rw [hv] at ht hheap
    exact hheap t ht
  · rw [hv] at ht
    cases ht

section Store

variable {index : Expr} {n : Int64} {s t : Session} (hindex : ev.arrayIndex index s = .done n t)
include hindex

theorem storeThrough_last (r : ArrayRef) :
    ev.storeThrough closing location v (.array r) [index] s =
      (match ArrayObject.place n with
      | .ok place => .done () { t with heap := t.heap.modifyArray r (·.put place v) }
      | .error f => Run.fault f closing t) := by
  rw [storeThrough, Routine.bind_apply, hindex]
  simp only [List.isEmpty_nil, if_true]
  cases ArrayObject.place n <;> rfl

theorem storeThrough_next (r : ArrayRef) (next : Expr) (rest : List Expr) :
    ev.storeThrough closing location v (.array r) (index :: next :: rest) s =
      ev.storeThrough closing location v ((t.heap.array r).get n) (next :: rest) t := by
  rw [storeThrough, Routine.bind_apply, hindex]
  rfl

/-- Something else than an array cannot be indexed. -/
theorem storeThrough_other {current : Value} (hcurrent : ∀ r, current ≠ .array r)
    (rest : List Expr) :
    ev.storeThrough closing location v current (index :: rest) s =
      Run.fault .badNumberOfIndexes location t := by
  rw [storeThrough, Routine.bind_apply, hindex]
  cases current with
  | array r => exact absurd rfl (hcurrent r)
  | _ => rfl

end Store

/-- A store that comes to its end, by induction on the indexes. The heap is the same up to the last
one. -/
theorem writes_of_storeThrough (hindexes : ∀ e ∈ indexes, ev.LeavesHeap e) (hne : indexes ≠ [])
    {current : Value} {s u : Session}
    (hdone : ev.storeThrough closing location v current indexes s = .done () u) :
    ∃ r path last target place w, current = .array r ∧ ev.Indexes indexes s (path ++ [last]) w ∧
      s.heap.follow r path = some target ∧ ArrayObject.place last = .ok place ∧
      u.heap = s.heap.modifyArray target (·.put place v) := by
  induction indexes generalizing current s with
  | nil => exact absurd rfl hne
  | cons index rest ih =>
    rw [List.forall_mem_cons] at hindexes
    obtain ⟨n, t, hindex, -⟩ := Routine.bind_eq_done.1 hdone
    have ht : t.heap = s.heap := hindexes.1.arrayIndex (congrArg Outcome.state? hindex)
    by_cases harray : ∃ r, current = .array r
    · obtain ⟨r, rfl⟩ := harray
      cases rest with
      | nil =>
        rw [storeThrough_last hindex] at hdone
        cases hplace : ArrayObject.place n with
        | ok place =>
          rw [hplace] at hdone
          cases hdone
          exact ⟨r, [], n, r, place, t, rfl, .cons hindex (.nil t), rfl, hplace,
            congrArg (Heap.modifyArray · r _) ht⟩
        | error f =>
          rw [hplace] at hdone
          cases hdone
      | cons next rest =>
        rw [storeThrough_next hindex] at hdone
        obtain ⟨c, path, last, target, place, w, hc, hrest, hfollow, hplace, hheap⟩ :=
          ih hindexes.2 (List.cons_ne_nil _ _) hdone
        rw [ht] at hfollow hheap hc
        refine ⟨r, n :: path, last, target, place, w, rfl, .cons hindex hrest, ?_, hplace, hheap⟩
        rw [Heap.follow, hc]
        exact hfollow
    · rw [storeThrough_other hindex fun r hr => harray ⟨r, hr⟩] at hdone
      cases hdone

/-- A store that fails has changed nothing. -/
theorem heap_of_storeThrough_exit (hindexes : ∀ e ∈ indexes, ev.LeavesHeap e) {current : Value}
    {s u : Session} {signal : Signal}
    (hexit : ev.storeThrough closing location v current indexes s = .exit signal u) :
    u.heap = s.heap := by
  induction indexes generalizing current s with
  | nil => cases hexit
  | cons index rest ih =>
    rw [List.forall_mem_cons] at hindexes
    cases hindex : ev.arrayIndex index s with
    | done n t =>
      have ht : t.heap = s.heap := hindexes.1.arrayIndex (congrArg Outcome.state? hindex)
      by_cases harray : ∃ r, current = .array r
      · obtain ⟨r, rfl⟩ := harray
        cases rest with
        | nil =>
          rw [storeThrough_last hindex] at hexit
          cases hplace : ArrayObject.place n with
          | ok place =>
            rw [hplace] at hexit
            cases hexit
          | error f =>
            rw [hplace] at hexit
            exact (Run.heap_of_fault (congrArg Outcome.state? hexit)).trans ht
        | cons next rest =>
          rw [storeThrough_next hindex] at hexit
          exact (ih hindexes.2 hexit).trans ht
      · rw [storeThrough_other hindex fun r hr => harray ⟨r, hr⟩] at hexit
        exact (Run.heap_of_fault (congrArg Outcome.state? hexit)).trans ht
    | exit other t =>
      rw [storeThrough, Routine.bind_apply, hindex] at hexit
      cases hexit
      exact hindexes.1.arrayIndex (congrArg Outcome.state? hindex)
    | exhausted =>
      rw [storeThrough, Routine.bind_apply, hindex] at hexit
      cases hexit

theorem LeavesHeap.literal (n : Nat) (l : Literal) (place : Location) :
    (ofBudget (n + 1)).LeavesHeap (.literal l place) := by
  intro s t ht
  cases ht
  rfl

end Evaluator

/-- A store at indexes of an array whose evaluation changes no array. If it comes to its end, there
is one array, the one that all indexes but the last one lead to, that has the value at the last
index; this array has grown as far as needed, and nothing else has changed. If it fails, nothing has
changed. Without indexes the statement does nothing. -/
theorem indexedSet_writes (n m : Nat) (object value : Expr) (indexes : List Expr)
    (closing location : Location) (v : Value) (r : ArrayRef) (s₀ s t : Session)
    (hvalue : (Evaluator.ofBudget n).evaluate value s₀ = .done v s)
    (hobject : (Evaluator.ofBudget n).evaluate object s = .done (.array r) t)
    (hindexes : ∀ e ∈ indexes, (Evaluator.ofBudget n).LeavesHeap e) :
    let result := (Evaluator.ofBudget n).perform m
      (.indexedSet object indexes value closing location) s₀
    (indexes ≠ [] → ∀ u, result = .done () u → ∃ path last target w,
      (Evaluator.ofBudget n).Indexes indexes t (path ++ [last]) w ∧
      t.heap.follow r path = some target ∧ t.heap.Writes target last v u.heap ∧
      (target = r ∨ ∃ holder, .array target ∈ (t.heap.array holder).toList)) ∧
    (∀ signal u, result = .exit signal u → u.heap = t.heap) ∧
    (indexes = [] → result = .done () t) := by
  intro result
  have hresult : result =
      (Evaluator.ofBudget n).storeThrough closing location v (.array r) indexes t := by
    show ((Evaluator.ofBudget n).evaluate value >>= fun v =>
      (Evaluator.ofBudget n).indexedSet object indexes v closing location) s₀ = _
    rw [Routine.bind_apply, hvalue]
    dsimp only
    rw [Evaluator.indexedSet, Routine.bind_apply, hobject]
  rw [hresult]
  refine ⟨fun hne u hdone => ?_, fun signal u hexit => ?_, ?_⟩
  · obtain ⟨_, path, last, target, place, w, hr, hpath, hfollow, hplace, hheap⟩ :=
      Evaluator.writes_of_storeThrough hindexes hne hdone
    cases hr
    refine ⟨path, last, target, w, hpath, hfollow, ?_, Heap.eq_or_mem_of_follow hfollow⟩
    rw [hheap]
    exact Heap.writes_modifyArray hplace t.heap target v
  · exact Evaluator.heap_of_storeThrough_exit hindexes hexit
  · rintro rfl
    rfl

def oneElement : Expr :=
  .arrayLiteral [.literal (.integer 1) .builtin] .builtin

/-- A store beyond the end. -/
theorem indexedSet_writes_beyond :
    ∃ (t : Heap) (u : Session), (Evaluator.ofBudget 2).perform 2
        (.indexedSet oneElement [.literal (.integer 2) .builtin] (.literal (.integer 5) .builtin)
          .builtin .builtin) (.new .standard) = .done () u ∧
      t.arrays = #[⟨#[.integer 1]⟩] ∧ t.Writes ⟨0⟩ 2 (.integer 5) u.heap ∧
      (u.heap.array ⟨0⟩).size = 3 := by
  obtain ⟨s, t, hvalue, hobject, harrays⟩ : ∃ s t,
      (Evaluator.ofBudget 2).evaluate (.literal (.integer 5) .builtin) (.new .standard) =
        .done (.integer 5) s ∧
      (Evaluator.ofBudget 2).evaluate oneElement s = .done (.array ⟨0⟩) t ∧
      t.heap.arrays = #[⟨#[.integer 1]⟩] := ⟨_, _, rfl, rfl, rfl⟩
  obtain ⟨u, hu⟩ : ∃ u, (Evaluator.ofBudget 2).perform 2
      (.indexedSet oneElement [.literal (.integer 2) .builtin] (.literal (.integer 5) .builtin)
        .builtin .builtin) (.new .standard) = .done () u := ⟨_, rfl⟩
  obtain ⟨hwrites, -⟩ := indexedSet_writes 2 2 oneElement (.literal (.integer 5) .builtin)
    [.literal (.integer 2) .builtin] .builtin .builtin (.integer 5) ⟨0⟩ (.new .standard) s t hvalue
    hobject (by simpa using Evaluator.LeavesHeap.literal 1 (.integer 2) .builtin)
  obtain ⟨path, last, target, w, hpath, hfollow, hu', -⟩ := hwrites (by decide) u hu
  obtain ⟨rfl, rfl⟩ : path = [] ∧ last = 2 := by
    generalize hns : path ++ [last] = ns at hpath
    cases hpath with
    | cons hn hrest =>
      cases hrest
      cases hn
      cases path with
      | nil => exact ⟨rfl, (List.cons.inj hns).1⟩
      | cons _ path => cases path <;> cases hns
  cases hfollow
  refine ⟨t.heap, u, hu, harrays, hu', ?_⟩
  have hin : (0 : Nat) < t.heap.arrays.size := by
    rw [harrays]
    decide
  rw [(hu'.stored hin).size, Heap.array, harrays]
  rfl

/-- Without an index no array has the value afterwards, and the statement comes to its end. -/
theorem indexedSet_without_index :
    ∃ s t u, (Evaluator.ofBudget 2).evaluate oneElement s = .done (.array ⟨0⟩) t ∧
      (Evaluator.ofBudget 2).perform 2
        (.indexedSet oneElement [] (.literal (.integer 5) .builtin) .builtin .builtin) s =
          .done () u ∧
      ¬ ∃ target index, target.index < t.heap.arrays.size ∧
        t.heap.Writes target index (.integer 5) u.heap := by
  obtain ⟨t, u, hobject, hdone, harrays, harrays'⟩ : ∃ t u,
      (Evaluator.ofBudget 2).evaluate oneElement (.new .standard) = .done (.array ⟨0⟩) t ∧
      (Evaluator.ofBudget 2).perform 2
        (.indexedSet oneElement [] (.literal (.integer 5) .builtin) .builtin .builtin)
        (.new .standard) = .done () u ∧
      t.heap.arrays = #[⟨#[.integer 1]⟩] ∧ u.heap.arrays = #[⟨#[.integer 1]⟩] :=
    ⟨_, _, rfl, rfl, rfl, rfl⟩
  refine ⟨.new .standard, t, u, hobject, hdone, ?_⟩
  rintro ⟨target, index, hin, hwrites⟩
  have hzero : target.index = 0 := by
    rw [harrays] at hin
    exact Nat.lt_one_iff.1 hin
  have hmem := Array.mem_of_getElem? (hwrites.stored hin).value
  rw [Heap.array, harrays', hzero] at hmem
  have hone : Value.integer 5 = .integer 1 := Array.mem_singleton.1 hmem
  cases hone

end BrightScript
