import BrightScript.Proofs.ArraySizes

/-!
# Dimensioned arrays

A `dim` makes a tree of arrays, level by level as its dimensions say. The tree is made depth first,
and every part of it takes up a stretch of the heap of its own, with the root of the part at its
end. So the arrays of a tree are all new, and no array is in two places of it (`Heap.IsGrid`). The
numbers of arrays on the levels are the products of the sizes above, and these are what is checked
before anything is made.
-/

namespace BrightScript

variable {name : Identifier} {v : Value} {j : Nat} {i : Int64} {dimension : Expr}

/-! ## Trees of arrays -/

def Value.arrayRef? : Value → Option ArrayRef
  | .array r => some r
  | _ => none

namespace Heap

def tally (sizes : List Nat) : Nat :=
  sizes.foldr (· * ·) 1

def elementArrays (h : Heap) (r : ArrayRef) : List ArrayRef :=
  (h.array r).toList.filterMap Value.arrayRef?

/-- The arrays on a level of a tree, each as often as it is there. On the first level there is the
root, on the next one its elements. -/
def level (h : Heap) : Nat → ArrayRef → List ArrayRef
  | 0, r => [r]
  | j + 1, r => (h.elementArrays r).flatMap (h.level j)

/-- A tree of arrays with sizes by levels and empty arrays innermost. All arrays of the tree are in
one stretch of the heap, and no two of them are the same. -/
structure IsGrid (h : Heap) (sizes : List Nat) (start stop : Nat) (root : ArrayRef) : Prop where
  size : ∀ j, ∀ r ∈ h.level j root, (h.array r).size = sizes.getD j 0
  arrays : ∀ j, ∀ r ∈ h.level j root, ∀ v ∈ (h.array r).toList, ∃ c, v = .array c
  within : ∀ j, ∀ r ∈ h.level j root, start ≤ r.index ∧ r.index < stop
  nodup : ∀ j, (h.level j root).Nodup
  disjoint : ∀ i j, i ≠ j → ∀ r ∈ h.level i root, r ∉ h.level j root
  count : ∀ j, j ≤ sizes.length → (h.level j root).length = tally (sizes.take j)

/-- Trees of the same sizes, one after the other in the heap. -/
inductive Row (h : Heap) (sizes : List Nat) : Nat → List ArrayRef → Nat → Prop
  | nil (start : Nat) : Row h sizes start [] start
  | cons {start middle stop : Nat} {c : ArrayRef} {cs : List ArrayRef} :
      h.IsGrid sizes start middle c → Row h sizes middle cs stop → Row h sizes start (c :: cs) stop

/-- A heap has all that another one has, and further arrays. -/
structure GrowsTo (h h' : Heap) : Prop where
  size_le : h.arrays.size ≤ h'.arrays.size
  array : ∀ r : ArrayRef, r.index < h.arrays.size → h'.array r = h.array r
  assocs : h'.assocs = h.assocs

variable {h h' h'' : Heap} {sizes : List Nat} {start stop : Nat} {root : ArrayRef}
  {cs : List ArrayRef}

theorem GrowsTo.refl (h : Heap) : h.GrowsTo h :=
  ⟨Nat.le_refl _, fun _ _ => rfl, rfl⟩

theorem GrowsTo.trans (hg : h.GrowsTo h') (hg' : h'.GrowsTo h'') : h.GrowsTo h'' where
  size_le := Nat.le_trans hg.size_le hg'.size_le
  array r hr := (hg'.array r (Nat.lt_of_lt_of_le hr hg.size_le)).trans (hg.array r hr)
  assocs := hg'.assocs.trans hg.assocs

theorem growsTo_newArray (h : Heap) (a : ArrayObject) : h.GrowsTo (h.newArray a).2 where
  size_le := by simp [newArray]
  array r hr := by simp [newArray, Heap.array, Array.getElem?_push, Nat.ne_of_lt hr]
  assocs := rfl

/-- A tree stays as it is when the heap grows. -/
theorem level_of_growsTo (hg : h.GrowsTo h')
    (hin : ∀ j, ∀ r ∈ h.level j root, r.index < h.arrays.size) (j : Nat) :
    h'.level j root = h.level j root := by
  induction j generalizing root with
  | zero => rfl
  | succ j ih =>
    have helements : h'.elementArrays root = h.elementArrays root := by
      rw [elementArrays, elementArrays, hg.array root (hin 0 root List.mem_cons_self)]
    rw [level, level, helements, List.flatMap_def, List.flatMap_def]
    refine congrArg List.flatten (List.map_congr_left fun c hc => ih fun i r hr => ?_)
    exact hin (i + 1) r (List.mem_flatMap.2 ⟨c, hc, hr⟩)

theorem IsGrid.growsTo (hgrid : h.IsGrid sizes start stop root) (hg : h.GrowsTo h')
    (hstop : stop ≤ h.arrays.size) : h'.IsGrid sizes start stop root := by
  have hin (j : Nat) (r : ArrayRef) (hr : r ∈ h.level j root) : r.index < h.arrays.size :=
    Nat.lt_of_lt_of_le (hgrid.within j r hr).2 hstop
  have hlevel := level_of_growsTo hg hin
  refine ⟨?_, ?_, ?_, ?_, ?_, ?_⟩ <;> simp only [hlevel]
  · exact fun j r hr => (hg.array r (hin j r hr)).symm ▸ hgrid.size j r hr
  · exact fun j r hr => (hg.array r (hin j r hr)).symm ▸ hgrid.arrays j r hr
  · exact hgrid.within
  · exact hgrid.nodup
  · exact hgrid.disjoint
  · exact hgrid.count

theorem IsGrid.lt (hgrid : h.IsGrid sizes start stop root) : start < stop :=
  have hroot := hgrid.within 0 root List.mem_cons_self
  Nat.lt_of_le_of_lt hroot.1 hroot.2

namespace Row

theorem le (hrow : h.Row sizes start cs stop) : start ≤ stop := by
  induction hrow with
  | nil => exact Nat.le_refl _
  | cons hgrid _ ih => exact Nat.le_trans (Nat.le_of_lt hgrid.lt) ih

theorem growsTo (hrow : h.Row sizes start cs stop) (hg : h.GrowsTo h')
    (hstop : stop ≤ h.arrays.size) : h'.Row sizes start cs stop := by
  induction hrow with
  | nil start => exact .nil start
  | cons hgrid hrest ih =>
    exact .cons (hgrid.growsTo hg (Nat.le_trans hrest.le hstop)) (ih hstop)

theorem exists_grid (hrow : h.Row sizes start cs stop) {c : ArrayRef} (hc : c ∈ cs) :
    ∃ first last, start ≤ first ∧ last ≤ stop ∧ h.IsGrid sizes first last c := by
  induction hrow with
  | nil => cases hc
  | cons hgrid hrest ih =>
    rcases List.mem_cons.1 hc with rfl | hc
    · exact ⟨_, _, Nat.le_refl _, hrest.le, hgrid⟩
    · obtain ⟨first, last, hfirst, hlast, hgrid'⟩ := ih hc
      exact ⟨first, last, Nat.le_trans (Nat.le_of_lt hgrid.lt) hfirst, hlast, hgrid'⟩

theorem within (hrow : h.Row sizes start cs stop) {r : ArrayRef} (hr : r ∈ cs.flatMap (h.level j)) :
    start ≤ r.index ∧ r.index < stop := by
  obtain ⟨c, hc, hr⟩ := List.mem_flatMap.1 hr
  obtain ⟨first, last, hfirst, hlast, hgrid⟩ := hrow.exists_grid hc
  have := hgrid.within j r hr
  omega

theorem nodup (hrow : h.Row sizes start cs stop) (j : Nat) : (cs.flatMap (h.level j)).Nodup := by
  induction hrow with
  | nil => exact List.nodup_nil
  | cons hgrid hrest ih =>
    rw [List.flatMap_cons]
    refine List.nodup_append.2 ⟨hgrid.nodup j, ih, ?_⟩
    rintro r hr _ hr' rfl
    have := (hgrid.within j r hr).2
    have := (hrest.within hr').1
    omega

theorem disjoint (hrow : h.Row sizes start cs stop) {i : Nat} (hne : i ≠ j) {r : ArrayRef}
    (hr : r ∈ cs.flatMap (h.level i)) (hr' : r ∈ cs.flatMap (h.level j)) : False := by
  induction hrow with
  | nil => cases hr
  | cons hgrid hrest ih =>
    rw [List.flatMap_cons] at hr hr'
    rcases List.mem_append.1 hr with hr | hr <;> rcases List.mem_append.1 hr' with hr' | hr'
    · exact hgrid.disjoint i j hne r hr hr'
    · have := (hgrid.within i r hr).2
      have := (hrest.within hr').1
      omega
    · have := (hgrid.within j r hr').2
      have := (hrest.within hr).1
      omega
    · exact ih hr hr'

theorem count (hrow : h.Row sizes start cs stop) (hj : j ≤ sizes.length) :
    (cs.flatMap (h.level j)).length = cs.length * tally (sizes.take j) := by
  induction hrow with
  | nil => simp
  | cons hgrid _ ih =>
    rw [List.flatMap_cons, List.length_append, ih, hgrid.count j hj, List.length_cons,
      Nat.succ_mul, Nat.add_comm]

end Row

theorem level_succ_of_array (hroot : h.array root = ⟨(cs.map Value.array).toArray⟩) (j : Nat) :
    h.level (j + 1) root = cs.flatMap (h.level j) := by
  have helements : h.elementArrays root = cs := by
    rw [elementArrays, hroot]
    show (cs.map Value.array).filterMap Value.arrayRef? = cs
    rw [List.filterMap_map]
    exact List.filterMap_some
  rw [level, helements]

/-- An array of trees behind these trees. Without dimensions there are none of them. -/
theorem Row.isGrid (hrow : h.Row sizes.tail start cs stop) (hlength : cs.length = sizes.getD 0 0)
    (hroot : h.array root = ⟨(cs.map Value.array).toArray⟩) (hindex : root.index = stop) :
    h.IsGrid sizes start (stop + 1) root := by
  have hle := hrow.le
  have hlevel := level_succ_of_array hroot
  have hself {r : ArrayRef} (hr : r ∈ h.level 0 root) : r = root := List.mem_singleton.1 hr
  have hnext {j : Nat} {r : ArrayRef} (hr : r ∈ h.level (j + 1) root) :
      ∃ first last c, h.IsGrid sizes.tail first last c ∧ r ∈ h.level j c ∧
        start ≤ r.index ∧ r.index < stop := by
    rw [hlevel] at hr
    obtain ⟨c, hc, hmem⟩ := List.mem_flatMap.1 hr
    obtain ⟨first, last, -, -, hgrid⟩ := hrow.exists_grid hc
    exact ⟨first, last, c, hgrid, hmem, hrow.within hr⟩
  have hroot' {j : Nat} {r : ArrayRef} (hr : r ∈ h.level (j + 1) root) : r ∉ h.level 0 root := by
    intro hr'
    obtain ⟨_, _, _, -, -, -, hlt⟩ := hnext hr
    rw [hself hr', hindex] at hlt
    exact Nat.lt_irrefl _ hlt
  refine ⟨?_, ?_, ?_, ?_, ?_, ?_⟩
  · rintro (_ | j) r hr
    · rw [hself hr, hroot, ← hlength]
      simp [ArrayObject.size]
    · obtain ⟨_, _, _, hgrid, hmem, -⟩ := hnext hr
      rw [hgrid.size j r hmem]
      cases sizes <;> rfl
  · rintro (_ | j) r hr v hv
    · rw [hself hr, hroot] at hv
      obtain ⟨c, -, rfl⟩ := List.mem_map.1 hv
      exact ⟨c, rfl⟩
    · obtain ⟨_, _, _, hgrid, hmem, -⟩ := hnext hr
      exact hgrid.arrays j r hmem v hv
  · rintro (_ | j) r hr
    · rw [hself hr]
      omega
    · obtain ⟨_, _, _, -, -, hin⟩ := hnext hr
      omega
  · rintro (_ | j)
    · simp [level]
    · rw [hlevel]
      exact hrow.nodup j
  · rintro (_ | i) (_ | j) hne r hr hr'
    · exact hne rfl
    · exact hroot' hr' hr
    · exact hroot' hr hr'
    · rw [hlevel] at hr hr'
      exact hrow.disjoint (fun heq => hne (congrArg (· + 1) heq)) hr hr'
  · rintro (_ | j) hj
    · rfl
    · cases sizes with
      | nil => cases hj
      | cons size sizes =>
        rw [hlevel, hrow.count (Nat.le_of_succ_le_succ hj), hlength]
        rfl

/-! ## Making a tree -/

/-- What is made is a tree of the given sizes in a stretch at the end of the heap. -/
def MakesGrid (make : Heap → Value × Heap) (sizes : List Nat) : Prop :=
  ∀ h : Heap, ∃ root h', make h = (.array root, h') ∧ h.GrowsTo h' ∧
    h'.IsGrid sizes h.arrays.size h'.arrays.size root

/-- By induction on the number of trees: one after the other, each behind those before it. -/
theorem MakesGrid.newMany {make : Heap → Value × Heap} (hmake : MakesGrid make sizes) (count : Nat)
    (made : Array Value) (h : Heap) :
    ∃ cs h', Heap.newMany make count made h = (made ++ (cs.map Value.array).toArray, h') ∧
      cs.length = count ∧ h.GrowsTo h' ∧ h'.Row sizes h.arrays.size cs h'.arrays.size := by
  induction count generalizing made h with
  | zero => exact ⟨[], h, by simp [Heap.newMany], rfl, .refl h, .nil _⟩
  | succ count ih =>
    obtain ⟨c, middle, hmade, hgrows, hgrid⟩ := hmake h
    obtain ⟨cs, h', hrest, hlength, hgrows', hrow⟩ := ih (made.push (.array c)) middle
    refine ⟨c :: cs, h', ?_, congrArg (· + 1) hlength, hgrows.trans hgrows',
      .cons (hgrid.growsTo hgrows' (Nat.le_refl _)) hrow⟩
    rw [Heap.newMany, hmade]
    dsimp only
    rw [hrest]
    simp

theorem makesGrid_newGrid (sizes : List Nat) : MakesGrid (newGrid sizes) sizes := by
  induction sizes with
  | nil =>
    intro h
    refine ⟨(h.newArray default).1, (h.newArray default).2, rfl, h.growsTo_newArray default, ?_⟩
    have hsize : (h.newArray default).2.arrays.size = h.arrays.size + 1 := Array.size_push _
    rw [hsize]
    exact (Row.nil h.arrays.size).isGrid rfl (h.array_newArray default) rfl
  | cons size sizes ih =>
    intro h
    obtain ⟨cs, middle, hmany, rfl, hgrows, hrow⟩ := ih.newMany size #[] h
    let a : ArrayObject := ⟨(cs.map Value.array).toArray⟩
    have hgrows' := middle.growsTo_newArray a
    refine ⟨(middle.newArray a).1, (middle.newArray a).2, ?_, hgrows.trans hgrows', ?_⟩
    · rw [newGrid, hmany]
      simp [a]
    · have hsize : (middle.newArray a).2.arrays.size = middle.arrays.size + 1 := Array.size_push _
      rw [hsize]
      exact Row.isGrid (hrow.growsTo hgrows' (Nat.le_refl _)) rfl (middle.array_newArray a) rfl

/-- Sizes are within bounds if all products of the first ones are. -/
theorem fits_iff {total : Nat} : Fits total sizes ↔
    ∀ j, j < sizes.length → total * tally (sizes.take (j + 1)) ≤ ArrayObject.maxSize := by
  induction sizes generalizing total with
  | nil => exact iff_of_true trivial fun _ hj => by cases hj
  | cons size sizes ih =>
    have htally (j : Nat) : total * tally ((size :: sizes).take (j + 1)) =
        total * size * tally (sizes.take j) := (Nat.mul_assoc total size _).symm
    rw [Fits, ih]
    constructor
    · rintro ⟨hsize, hrest⟩ (_ | j) hj
      · exact (htally 0).trans (Nat.mul_one _) ▸ hsize
      · exact (htally (j + 1)) ▸ hrest j (Nat.lt_of_succ_lt_succ hj)
    · intro hall
      refine ⟨?_, fun j hj => ?_⟩
      · exact (htally 0).trans (Nat.mul_one _) ▸ hall 0 (Nat.succ_pos _)
      · exact (htally (j + 1)) ▸ hall (j + 1) (Nat.succ_lt_succ hj)

end Heap

/-! ## Dimensions -/

theorem Value.toInt64?_of_wholeNumber? {n : Int64} (h : v.wholeNumber? = some n) :
    v.toInt64? = some n := by
  cases v with
  | integer | longInteger => exact h
  | _ => cases h

/-- The number of elements of an array, given its highest index. -/
def Heap.sizeOfHighest (highest : Int64) : Nat :=
  (highest.toInt + 1).toNat

namespace Evaluator

/-- Dimensions are evaluated one after the other, and give integers. -/
inductive Highest (ev : Evaluator) : List Expr → Session → List Int64 → Session → Prop
  | nil (s : Session) : Highest ev [] s [] s
  | cons {dimension : Expr} {rest : List Expr} {v : Value} {i : Int64} {is : List Int64}
      {s t u : Session} : ev.evaluate dimension s = .done v t → v.unbox.wholeNumber? = some i →
      Highest ev rest t is u → Highest ev (dimension :: rest) s (i :: is) u

open Heap (sizeOfHighest Fits tally)

variable {ev : Evaluator} {dimensions : List Expr} {highest : List Int64} {s t : Session}
  {total : Nat}

/-- One dimension: it is checked, and the next ones are evaluated. -/
theorem sizes_cons (hv : ev.evaluate dimension s = .done v t) (hi : v.unbox.wholeNumber? = some i)
    (rest : List Expr) :
    ev.sizes total (dimension :: rest) s =
      if ArrayObject.maxSize < total * sizeOfHighest i then
        Run.fault .indexOutOfBounds dimension.location t
      else (ev.sizes (total * sizeOfHighest i) rest >>= fun more =>
        pure (sizeOfHighest i :: more)) t := by
  rw [sizes, Routine.bind_apply, hv]
  simp only [Value.toInt64?_of_wholeNumber? hi]
  by_cases hsize : ArrayObject.maxSize < total * sizeOfHighest i
  · exact (congrFun (if_pos hsize) t).trans (if_pos hsize).symm
  · exact (congrFun (if_neg hsize) t).trans (if_neg hsize).symm

theorem Highest.sizes (h : ev.Highest dimensions s highest t)
    (hfits : Fits total (highest.map sizeOfHighest)) :
    ev.sizes total dimensions s = .done (highest.map sizeOfHighest) t := by
  induction h generalizing total with
  | nil => rfl
  | cons hv hi _ ih =>
    obtain ⟨hsize, hrest⟩ := hfits
    rw [sizes_cons hv hi, if_neg (Nat.not_lt.2 hsize), Routine.bind_apply, ih hrest]
    rfl

/-- The first dimension that is too large is refused; those behind it are not evaluated. -/
theorem Highest.sizes_refused {u : Session} (h : ev.Highest dimensions s highest t)
    (hfits : Fits total (highest.map sizeOfHighest)) (hv : ev.evaluate dimension t = .done v u)
    (hi : v.unbox.wholeNumber? = some i)
    (hlarge : ArrayObject.maxSize < total * tally ((highest ++ [i]).map sizeOfHighest))
    (after : List Expr) :
    ev.sizes total (dimensions ++ dimension :: after) s =
      Run.fault .indexOutOfBounds dimension.location u := by
  induction h generalizing total with
  | nil =>
    have hlarge' : ArrayObject.maxSize < total * sizeOfHighest i := by
      simpa [tally] using hlarge
    rw [List.nil_append, sizes_cons hv hi, if_pos hlarge']
  | cons hv' hi' _ ih =>
    obtain ⟨hsize, hrest⟩ := hfits
    rw [List.cons_append, sizes_cons hv' hi', if_neg (Nat.not_lt.2 hsize), Routine.bind_apply,
      ih hrest hv ((Nat.mul_assoc total _ _).symm ▸ hlarge)]
    rfl

/-- Sizes that are not within bounds are refused somewhere. -/
theorem Highest.sizes_ne_done (h : ev.Highest dimensions s highest t)
    (hfits : ¬ Fits total (highest.map sizeOfHighest)) (found : List Nat) (w : Session) :
    ev.sizes total dimensions s ≠ .done found w := by
  induction h generalizing total found w with
  | nil => exact absurd trivial hfits
  | @cons dimension rest v i is s t u hv hi _ ih =>
    rw [sizes_cons hv hi]
    split
    · exact fun heq => by cases heq
    · next hsize =>
      have hrest : ¬ Fits (total * sizeOfHighest i) (is.map sizeOfHighest) :=
        fun hrest => hfits ⟨Nat.le_of_not_lt hsize, hrest⟩
      rw [Routine.bind_apply]
      cases hmore : ev.sizes (total * sizeOfHighest i) rest t with
      | done more w => exact absurd hmore (ih hrest more w)
      | _ => exact fun heq => by cases heq

theorem Highest.snoc {u : Session} (h : ev.Highest dimensions s highest t)
    (hv : ev.evaluate dimension t = .done v u) (hi : v.unbox.wholeNumber? = some i) :
    ev.Highest (dimensions ++ [dimension]) s (highest ++ [i]) u := by
  induction h with
  | nil => exact .cons hv hi (.nil u)
  | cons hv' hi' _ ih => exact .cons hv' hi' (ih hv)

/-- The variables of the call stay as they are while dimensions are evaluated. -/
theorem Highest.active {n : Nat} (h : (ofBudget n).Highest dimensions s highest t) :
    t.scopes.active = s.scopes.active := by
  induction h with
  | nil => rfl
  | @cons dimension _ _ _ _ s _ _ hv _ _ ih =>
    have hframes := Contract.sameFrames_of_ends
      ((Contract.frames False).evaluate n dimension (s := s) False.elim)
      (congrArg Outcome.state? hv)
    exact ih.trans hframes.active

theorem dim_eq (hname : name.isReserved = false) :
    ev.dim name dimensions = ev.sizes 1 dimensions >>= fun found =>
      (Routine.change fun s =>
        ((Heap.newGrid found s.heap).1, { s with heap := (Heap.newGrid found s.heap).2 })) >>=
      Run.bindLocal name := by
  have hreject : Run.rejectReserved name Run.reservedTarget = pure () := by
    rw [Run.rejectReserved, hname]
    rfl
  rw [dim, hreject, pure_bind]

/-- A `dim` whose sizes are found makes a tree and binds the variable to it. -/
theorem dim_of_sizes {found : List Nat} (hname : name.isReserved = false)
    (hglobal : Text.fold name.name ≠ "global") (hfound : ev.sizes 1 dimensions s = .done found t) :
    ∃ root u, ev.dim name dimensions s = .done () u ∧
      u.scopes = t.scopes.bind name.name (.array root) ∧ t.heap.GrowsTo u.heap ∧
      u.heap.IsGrid found t.heap.arrays.size u.heap.arrays.size root := by
  obtain ⟨root, heap, hmade, hgrows, hgrid⟩ := Heap.makesGrid_newGrid found t.heap
  refine ⟨root, { t with heap := heap, scopes := t.scopes.bind name.name (.array root) }, ?_, rfl,
    hgrows, hgrid⟩
  have hbind : Run.bindLocal name (.array root) =
      Run.modifyScopes (·.bind name.name (.array root)) := if_neg hglobal
  rw [dim_eq hname, Routine.bind_apply, hfound]
  dsimp only
  rw [Routine.bind_apply, Routine.change]
  dsimp only
  rw [hmade]
  dsimp only
  rw [hbind]
  rfl

/-- A `dim` whose sizes are refused. -/
theorem dim_of_fault {location : Location} (hname : name.isReserved = false)
    (hfault : ev.sizes 1 dimensions s = Run.fault .indexOutOfBounds location t) :
    ev.dim name dimensions s = Run.fault .indexOutOfBounds location t := by
  rw [dim_eq hname, Routine.bind_apply, hfault]
  rfl

/-- A `dim` that comes to its end has found sizes. -/
theorem exists_sizes_of_dim (hname : name.isReserved = false)
    (hdone : ev.dim name dimensions s = .done () t) :
    ∃ found u, ev.sizes 1 dimensions s = .done found u := by
  rw [dim_eq hname] at hdone
  obtain ⟨found, u, hsizes, -⟩ := Routine.bind_eq_done.1 hdone
  exact ⟨found, u, hsizes⟩

/-- A `dim` comes to its end exactly when its sizes fit. -/
theorem Highest.exists_dim_iff (h : ev.Highest dimensions s highest t)
    (hname : name.isReserved = false) (hglobal : Text.fold name.name ≠ "global") :
    (∃ u, ev.dim name dimensions s = .done () u) ↔ Fits 1 (highest.map sizeOfHighest) := by
  constructor
  · rintro ⟨u, hu⟩
    obtain ⟨found, w, hfound⟩ := exists_sizes_of_dim hname hu
    exact Classical.not_not.1 fun hnot => h.sizes_ne_done hnot found w hfound
  · intro hfits
    obtain ⟨_, u, hu, -⟩ := dim_of_sizes hname hglobal (h.sizes hfits)
    exact ⟨u, hu⟩

end Evaluator

open Heap (sizeOfHighest tally) in
/-- A `dim` of a variable with dimensions that are integers. It comes to its end exactly when no
product of the first sizes is above the greatest size of an array. Then the variable is bound to a
new tree of arrays, with as many elements in the arrays of each level as the dimension of the level
says and with no array in two places, on top of what was in the heap; but a variable `m` is not
seen. Otherwise the first dimension for which the product is too large is an index out of bounds,
and no variable has changed. -/
theorem dim_makes_grid (n : Nat) (name : Identifier) (dimensions : List Expr) (s : Session)
    (hname : name.isReserved = false) (hglobal : Text.fold name.name ≠ "global") :
    (∀ (highest : List Int64) (t : Session), (Evaluator.ofBudget n).Highest dimensions s highest t →
      let sizes := highest.map sizeOfHighest
      ((∃ u, (Evaluator.ofBudget n).dim name dimensions s = .done () u) ↔
        ∀ j, j < sizes.length → tally (sizes.take (j + 1)) ≤ ArrayObject.maxSize) ∧
      ∀ u, (Evaluator.ofBudget n).dim name dimensions s = .done () u → ∃ root,
        u.scopes.active.locals[Text.fold name.name]? = some (.array root) ∧
        u.scopes.get name =
          (if Text.fold name.name = "m" then .assoc u.scopes.m else .array root) ∧
        t.heap.GrowsTo u.heap ∧
        u.heap.IsGrid sizes t.heap.arrays.size u.heap.arrays.size root ∧
        ∀ j, j ≤ sizes.length → (u.heap.level j root).length ≤ ArrayObject.maxSize) ∧
    (∀ (before after : List Expr) (dimension : Expr) (highest : List Int64) (i : Int64) (v : Value)
        (t u : Session), dimensions = before ++ dimension :: after →
      (Evaluator.ofBudget n).Highest before s highest t →
      (Evaluator.ofBudget n).evaluate dimension t = .done v u → v.unbox.wholeNumber? = some i →
      (∀ j, j < highest.length →
        tally ((highest.map sizeOfHighest).take (j + 1)) ≤ ArrayObject.maxSize) →
      ArrayObject.maxSize < tally ((highest ++ [i]).map sizeOfHighest) →
      ((Evaluator.ofBudget n).dim name dimensions s).FailsWith 16 dimension.location ∧
      ∀ w, ((Evaluator.ofBudget n).dim name dimensions s).state? = some w →
        w.scopes.active = s.scopes.active) := by
  have hbounds (sizes : List Nat) : Heap.Fits 1 sizes ↔
      ∀ j, j < sizes.length → tally (sizes.take (j + 1)) ≤ ArrayObject.maxSize := by
    simp only [Heap.fits_iff, Nat.one_mul]
  constructor
  · intro highest t hhighest sizes
    have hfits := hhighest.exists_dim_iff hname hglobal
    refine ⟨hfits.trans (hbounds sizes), fun u hu => ?_⟩
    have hin := hfits.1 ⟨u, hu⟩
    obtain ⟨root, u', hu', hscopes, hgrows, hgrid⟩ :=
      Evaluator.dim_of_sizes hname hglobal (hhighest.sizes hin)
    cases hu.symm.trans hu'
    refine ⟨root, ?_, ?_, hgrows, hgrid, fun j hj => ?_⟩
    · rw [hscopes]
      exact Std.ExtTreeMap.getElem?_insert_self
    · by_cases hm : Text.fold name.name = "m"
      · simp [Scopes.get, Scopes.get?, Scopes.m, hm]
      · have hline : Text.fold name.name ≠ "line_num" := by
          intro hline
          rw [Identifier.isReserved, hline] at hname
          exact absurd hname (by decide)
        rw [if_neg hm, hscopes]
        exact t.scopes.get_bind _ (by simp [hm, hline])
    · rw [hgrid.count j hj]
      cases j with
      | zero => exact show 1 ≤ Nat.pow 2 24 by decide
      | succ j => exact (hbounds sizes).1 hin j hj
  · rintro before after dimension highest i v t u rfl hhighest hv hi hfits hlarge
    have hfirst : Heap.Fits 1 (highest.map sizeOfHighest) :=
      (hbounds _).2 (by simpa only [List.length_map] using hfits)
    have hrefused : (Evaluator.ofBudget n).sizes 1 (before ++ dimension :: after) s =
        Run.fault .indexOutOfBounds dimension.location u :=
      hhighest.sizes_refused hfirst hv hi (by rwa [Nat.one_mul]) after
    rw [Evaluator.dim_of_fault hname hrefused]
    refine ⟨Run.fault_failsWith _ _ _, fun w hw => ?_⟩
    have hactive : w.scopes.active = u.scopes.active := by
      cases hw
      exact congrArg (fun c : Core => c.scopes.active) (Session.core_note _ _)
    exact hactive.trans (hhighest.snoc hv hi).active

/-- Two arrays of three arrays each, and a product of sizes that is too large. -/
theorem dim_makes_grid_of_literals :
    (∃ u root, (Evaluator.ofBudget 2).dim ⟨"a", .builtin⟩
        [.literal (.integer 1) .builtin, .literal (.longInteger 2) .builtin]
        (.new .standard) = .done () u ∧ u.scopes.get ⟨"a", .builtin⟩ = .array root ∧
      (u.heap.level 1 root).length = 2 ∧ (u.heap.level 2 root).length = 6) ∧
    ((Evaluator.ofBudget 2).dim ⟨"a", .builtin⟩
        [.literal (.integer 4095) .builtin, .literal (.longInteger 4096) .builtin]
        (.new .standard)).FailsWith 16 .builtin := by
  constructor
  · obtain ⟨hmade, -⟩ := dim_makes_grid 2 ⟨"a", .builtin⟩
      [.literal (.integer 1) .builtin, .literal (.longInteger 2) .builtin] (.new .standard)
      (by decide) (by decide)
    obtain ⟨haccepted, hgrid⟩ := hmade [1, 2] _ (.cons rfl rfl (.cons rfl rfl (.nil _)))
    obtain ⟨u, hu⟩ := haccepted.2 (by decide)
    obtain ⟨root, -, hget, -, hroot, -⟩ := hgrid u hu
    exact ⟨u, root, hu, hget, hroot.count 1 (by decide), hroot.count 2 (by decide)⟩
  · obtain ⟨-, hrefused⟩ := dim_makes_grid 2 ⟨"a", .builtin⟩
      [.literal (.integer 4095) .builtin, .literal (.longInteger 4096) .builtin] (.new .standard)
      (by decide) (by decide)
    exact (hrefused [.literal (.integer 4095) .builtin] [] (.literal (.longInteger 4096) .builtin)
      [4095] 4096 _ _ _ rfl (.cons rfl rfl (.nil _)) rfl rfl (by decide) (by decide)).1

/-- After `dim m[1]` the name `m` still stands for the associative array of the call. -/
theorem dim_of_m_unseen : ∃ u root,
    (Evaluator.ofBudget 2).dim ⟨"m", .builtin⟩ [.literal (.integer 1) .builtin]
      (.new .standard) = .done () u ∧
    u.scopes.active.locals["m"]? = some (.array root) ∧
    u.scopes.get ⟨"m", .builtin⟩ = .assoc u.scopes.m :=
  ⟨_, _, rfl, rfl, rfl⟩

end BrightScript
