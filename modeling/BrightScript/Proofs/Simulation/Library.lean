import BrightScript.Proofs.Simulation

/-!
# Library functions keep simulations

Global functions and methods read the session, allocate and change collections, complain on the
error channel and raise errors. They bind no names and do not jump, so they are related at the grade
of expressions. Those that grow arrays without a check are related if that is let through.
-/

namespace BrightScript.Walk

variable {v : Value} {args : List Value}

variable {P : Value → Prop} {lax : Prop} (sim : Walk P lax)
variable {g : Grade} {α : Type} {Q : α → Prop}

/-! ## Collections -/

theorem allocate (f : Heap → Value × Heap)
    (hf : ∀ h : Heap, h.Holds P → P (f h).1 ∧ (f h).2.Holds P)
    (hm : lax ∨ Heap.Mild fun h => (f h).2) :
    sim.rel g P (Routine.change fun s => ((f s.heap).1, { s with heap := (f s.heap).2 }))
      (Routine.change fun s => ((f s.heap).1, { s with heap := (f s.heap).2 })) := by
  rw [Routine.change_eq]
  refine sim.lift (sim.bind (sim.view (Q := P) (fun c => (f c.heap).1) ?_) fun v hv => ?_)
  · exact fun s hs => (hf s.heap hs.heap).1
  · exact sim.bind (sim.update (.heap (fun h hh => (hf h hh).2) hm)) fun _ _ => sim.ret hv

theorem newArray {a : ArrayObject} (ha : a.Holds P) (hm : lax ∨ a.size ≤ ArrayObject.maxSize) :
    sim.rel g P (Run.newArray a) (Run.newArray a) :=
  sim.allocate (fun h => (.array (h.newArray a).1, (h.newArray a).2))
    (fun _ hh => ⟨sim.admissible.plain rfl, hh.newArray ha⟩)
    (hm.imp_right fun hsize _ hh => hh.newArray hsize)

theorem newAssoc {a : AssocArray} (ha : a.Holds P) :
    sim.rel g P (Run.newAssoc a) (Run.newAssoc a) :=
  sim.allocate (fun h => (.assoc (h.newAssoc a).1, (h.newAssoc a).2))
    (fun _ hh => ⟨sim.admissible.plain rfl, hh.newAssoc ha⟩) (.inr fun _ hh => hh)

theorem modifyArray {r : ArrayRef} {f : ArrayObject → ArrayObject}
    (hf : ∀ a, a.Holds P → (f a).Holds P) (hm : lax ∨ ArrayObject.Bounds f) :
    sim.rel g (fun _ => True) (Run.modifyArray r f) (Run.modifyArray r f) :=
  sim.lift (sim.update (.heap (fun _ hh => hh.modifyArray hf r)
    (hm.imp_right fun hbounds _ hh => hh.modifyArray hbounds r)))

theorem modifyAssoc {r : AssocRef} {f : AssocArray → AssocArray}
    (hf : ∀ a, a.Holds P → (f a).Holds P) :
    sim.rel g (fun _ => True) (Run.modifyAssoc r f) (Run.modifyAssoc r f) :=
  sim.lift (sim.update (.heap (fun _ hh => hh.modifyAssoc hf r) (.inr fun _ hh => hh)))

theorem array (r : ArrayRef) :
    sim.rel g (fun a => a.Holds P) (Run.array r) (Run.array r) :=
  sim.lift (sim.view (fun c => c.heap.array r) fun _ hs => hs.heap.array r)

theorem assoc (r : AssocRef) :
    sim.rel g (fun a => a.Holds P) (Run.assoc r) (Run.assoc r) :=
  sim.lift (sim.view (fun c => c.heap.assoc r) fun _ hs => hs.heap.assoc r)

/-- A view whose value does not matter to `P`. -/
theorem look (f : Core → α) :
    sim.rel g (fun _ => True) (Routine.view fun s => f s.core) (Routine.view fun s => f s.core) :=
  sim.lift (sim.view f fun _ _ => trivial)

theorem plain (hv : v.isPlain = true) : sim.rel g P (pure v : Run Value) (pure v) :=
  sim.done (sim.admissible.plain hv)

theorem arrayMethod (m : ArrayMethod) (hlax : (Method.array m).isLax = true → lax) (r : ArrayRef)
    (hargs : ∀ v ∈ args, P v) :
    sim.rel .expression P (Library.arrayMethod m r args) (Library.arrayMethod m r args) := by
  have hi : P .invalid := sim.admissible.plain rfl
  cases m with
  | count | join | isEmpty => exact sim.bind (sim.array r) fun _ _ => sim.plain rfl
  | push =>
    simp only [Library.arrayMethod]
    split
    · next v hv =>
      have hv : P v := hargs v (List.mem_of_mem_head? hv)
      exact sim.bind (sim.modifyArray (fun a ha => ha.push hv) (.inl (hlax rfl))) fun _ _ => sim.plain rfl
    · exact sim.plain rfl
  | pop =>
    refine sim.bind (sim.array r) fun a ha => ?_
    exact sim.bind (sim.modifyArray (fun a ha => ha.pop) (.inr .pop)) fun _ _ => sim.ret (ha.back hi)
  | shift =>
    refine sim.bind (sim.array r) fun a ha => ?_
    exact sim.bind (sim.modifyArray (fun a ha => ha.dropFirst) (.inr .dropFirst)) fun _ _ =>
      sim.ret (ha.get hi 0)
  | unshift =>
    simp only [Library.arrayMethod]
    split
    · next v hv =>
      have hv : P v := hargs v (List.mem_of_mem_head? hv)
      have one : ArrayObject.Holds P ⟨#[v]⟩ := ArrayObject.Holds.empty.push hv
      exact sim.bind (sim.modifyArray (fun a ha => one.append ha) (.inl (hlax rfl))) fun _ _ =>
        sim.plain rfl
    · exact sim.plain rfl
  | peek => exact sim.bind (sim.array r) fun a ha => sim.ret (ha.back hi)
  | clear => exact sim.bind (sim.modifyArray (fun _ _ => .empty) (.inr .clear)) fun _ _ => sim.plain rfl
  | append =>
    simp only [Library.arrayMethod]
    split
    · refine sim.bind (sim.array _) fun more hm => ?_
      exact sim.bind (sim.modifyArray (fun a ha => ha.append hm) (.inl (hlax rfl))) fun _ _ =>
        sim.plain rfl
    · exact sim.plain rfl
  | getEntry =>
    simp only [Library.arrayMethod]
    split
    · exact sim.bind (sim.array r) fun a ha => sim.ret (ha.get hi _)
    · exact sim.plain rfl
  | setEntry =>
    simp only [Library.arrayMethod]
    split
    · next index v hindex hv =>
      have hv : P v := hargs v (List.mem_of_getElem? hv)
      split
      · next place hplace =>
        exact sim.bind (sim.modifyArray (fun a ha => ha.put hi hv _) (.inr (.put hplace v)))
          fun _ _ => sim.plain rfl
      · exact sim.bind (Q := fun _ => False) sim.faultHere fun _ h => h.elim
    · exact sim.plain rfl
  | reverse =>
    exact sim.bind (sim.modifyArray (fun a ha => ha.reverse) (.inr .reverse)) fun _ _ =>
      sim.plain rfl

theorem newItems {entries : List Entry} (h : ∀ e ∈ entries, P e.value) :
    sim.rel .expression (fun vs => ∀ v ∈ vs, P v) (Library.newItems entries)
      (Library.newItems entries) := by
  induction entries with
  | nil => exact sim.ret fun _ hv => absurd hv List.not_mem_nil
  | cons e rest ih =>
    have hmembers : ∀ m ∈ [("key", Value.string e.shown), ("value", e.value)], P m.2 := by
      intro m hm
      rcases List.mem_cons.1 hm with rfl | hm
      · exact sim.admissible.plain rfl
      · rw [List.mem_singleton.1 hm]
        exact h e List.mem_cons_self
    refine sim.bind (sim.newAssoc (.ofMembers hmembers)) fun item hitem => ?_
    refine sim.bind (ih fun e' he' => h e' (List.mem_cons_of_mem e he')) fun items hitems => ?_
    exact sim.ret (List.forall_mem_cons.2 ⟨hitem, hitems⟩)

theorem newTexts (hlax : lax) (texts : List String) :
    sim.rel .expression P (Run.newArray (.ofList (texts.map .string)))
      (Run.newArray (.ofList (texts.map .string))) := by
  refine sim.newArray (.ofList fun v hv => ?_) (.inl hlax)
  obtain ⟨text, -, rfl⟩ := List.mem_map.1 hv
  exact sim.admissible.plain rfl

theorem assocMethod (m : AssocMethod) (hlax : (Method.assoc m).isLax = true → lax) (r : AssocRef)
    (hargs : ∀ v ∈ args, P v) :
    sim.rel .expression P (Library.assocMethod m r args) (Library.assocMethod m r args) := by
  have hi : P .invalid := sim.admissible.plain rfl
  cases m with
  | count | doesExist | isEmpty => exact sim.bind (sim.assoc r) fun _ _ => sim.plain rfl
  | addReplace =>
    have hv : P (args.getD 1 .invalid) := by
      rw [List.getD_eq_getElem?_getD]
      cases he : args[1]? with
      | none => exact hi
      | some v => exact hargs v (List.mem_of_getElem? he)
    exact sim.bind (sim.modifyAssoc fun a ha => ha.set hv _ _) fun _ _ => sim.plain rfl
  | lookup =>
    refine sim.bind (sim.assoc r) fun a ha => sim.ret ?_
    cases he : a.get? (Library.textAt args 0) with
    | none => exact hi
    | some v => exact ha.get? he
  | delete =>
    refine sim.bind (sim.assoc r) fun a ha => ?_
    exact sim.bind (sim.modifyAssoc fun a ha => ha.erase _) fun _ _ => sim.plain rfl
  | clear => exact sim.bind (sim.modifyAssoc fun _ _ => .empty) fun _ _ => sim.plain rfl
  | keys => exact sim.bind (sim.assoc r) fun a _ => sim.newTexts (hlax rfl) a.keys
  | items =>
    refine sim.bind (sim.assoc r) fun a ha => ?_
    exact sim.bind (sim.newItems ha.toList) fun items hitems =>
      sim.newArray (.ofList hitems) (.inl (hlax rfl))
  | append =>
    simp only [Library.assocMethod]
    split
    · refine sim.bind (sim.assoc _) fun more hm => ?_
      exact sim.bind (sim.modifyAssoc fun a ha => ha.append hm.toList) fun _ _ => sim.plain rfl
    · exact sim.plain rfl

/-! ## Texts and global functions -/

theorem stringMethod (m : StringMethod) (hlax : (Method.string m).isLax = true → lax)
    {receiver : Value} (hr : P receiver) (args : List Value) :
    sim.rel .expression P (Library.stringMethod m receiver args)
      (Library.stringMethod m receiver args) := by
  refine sim.bind (sim.look fun c => Library.contentText c.heap receiver) fun text _ => ?_
  cases m with
  | getString => exact sim.ret (sim.admissible.unbox hr)
  | split => exact sim.newTexts (hlax rfl) _
  | instr =>
    simp only []
    split <;> exact sim.plain rfl
  | _ => exact sim.plain rfl

theorem create {className : String} {make : Run Value} (h : Library.create? className = some make) :
    sim.rel .expression P make make := by
  have box {v : Value} (hv : v.isBoxable = true) (hp : v.isPlain = true) :
      sim.rel .expression P (pure (.boxed v) : Run Value) (pure (.boxed v)) :=
    sim.ret (sim.admissible.boxed hv (sim.admissible.plain hp))
  unfold Library.create? at h
  split at h
  · cases h; exact sim.newArray .empty (.inr (Nat.zero_le _))
  · cases h; exact sim.newAssoc .empty
  · cases h; exact box rfl rfl
  · split at h <;> cases h <;> exact box rfl rfl
  · cases h

theorem tab (target : Int) :
    sim.rel .expression P (Library.tab target) (Library.tab target) := by
  refine sim.bind (sim.look Core.column) fun column _ => ?_
  split
  · exact sim.plain rfl
  · split
    · exact sim.faultHere
    · exact sim.plain rfl

theorem readClock : sim.rel .expression (fun _ => True) Run.readClock Run.readClock := by
  unfold Run.readClock
  rw [Routine.change_eq]
  refine sim.bind (sim.look fun c => c.clock 0) fun _ _ => ?_
  exact sim.bind (sim.update .readClock) fun _ _ => sim.ret trivial

theorem builtin (b : Builtin) (hargs : ∀ v ∈ args, P v) :
    sim.rel .expression P (b.invoke args) (b.invoke args) := by
  cases b with
  | int | fix =>
    simp only [Builtin.invoke]
    split
    · exact sim.plain rfl
    · exact sim.faultHere
  | abs =>
    simp only [Builtin.invoke]
    split
    · next v hv =>
      obtain ⟨w, -, hw⟩ := Option.bind_eq_some_iff.1 hv
      exact sim.plain (Value.isPlain_magnitude? hw)
    · exact sim.faultHere
  | instr =>
    simp only [Builtin.invoke]
    split <;> exact sim.plain rfl
  | val =>
    simp only [Builtin.invoke]
    split <;> exact sim.plain rfl
  | box =>
    refine sim.ret (sim.admissible.box ?_)
    cases args with
    | nil => exact sim.admissible.plain rfl
    | cons v vs => exact hargs v List.mem_cons_self
  | createObject =>
    simp only [Builtin.invoke]
    split
    · next make hmake => exact sim.create hmake
    · refine sim.bind (sim.look Core.location) fun location _ => ?_
      exact sim.bind (sim.update (.complain _)) fun _ _ => sim.plain rfl
  | getGlobalAA => exact sim.bind (sim.look fun c => c.scopes.rootM) fun _ _ => sim.plain rfl
  | upTime => exact sim.bind sim.readClock fun _ _ => sim.plain rfl
  | tab => exact sim.tab _
  | pos => exact sim.bind (sim.look Core.column) fun _ _ => sim.plain rfl
  | _ =>
    simp only [Builtin.invoke]
    exact sim.plain rfl

theorem component?_ne_array (h : ∀ r, v ≠ .array r) : v.component? ≠ some .array := by
  cases v with
  | array r => exact absurd rfl (h r)
  | boxed content => cases content <;> simp [Value.component?, Component.ofContent]
  | _ => simp [Value.component?]

theorem component?_ne_assocArray (h : ∀ r, v ≠ .assoc r) : v.component? ≠ some .assocArray := by
  cases v with
  | assoc r => exact absurd rfl (h r)
  | boxed content => cases content <;> simp [Value.component?, Component.ofContent]
  | _ => simp [Value.component?]

theorem invoke_array_stray (m : ArrayMethod) (h : ∀ r, v ≠ .array r) (args : List Value) :
    (Method.array m).invoke v args = Library.wrongReceiver .array v := by
  cases v with
  | array r => exact absurd rfl (h r)
  | _ => rfl

theorem invoke_assoc_stray (m : AssocMethod) (h : ∀ r, v ≠ .assoc r) (args : List Value) :
    (Method.assoc m).invoke v args = Library.wrongReceiver .assocArray v := by
  cases v with
  | assoc r => exact absurd rfl (h r)
  | _ => rfl

/-- A method keeps the relation. A receiver of another component is let through only if `P` lets
it through. -/
theorem method {i : Identity} {m : Method} {receiver : Value} {context : Option AssocRef}
    (h : P (.function ⟨i, .method m receiver, context⟩)) (hlax : m.isLax = true → lax)
    (hargs : ∀ v ∈ args, P v) :
    sim.rel .expression P (m.invoke receiver args) (m.invoke receiver args) := by
  have hr : P receiver := sim.admissible.receiver h
  cases m with
  | array m =>
    by_cases hv : ∃ r, receiver = .array r
    · obtain ⟨r, rfl⟩ := hv
      exact sim.arrayMethod m hlax r hargs
    · have hv : ∀ r, receiver ≠ .array r := fun r e => hv ⟨r, e⟩
      have hs := sim.stray (Q := P) h (component?_ne_array hv)
      rwa [invoke_array_stray m hv]
  | assoc m =>
    by_cases hv : ∃ r, receiver = .assoc r
    · obtain ⟨r, rfl⟩ := hv
      exact sim.assocMethod m hlax r hargs
    · have hv : ∀ r, receiver ≠ .assoc r := fun r e => hv ⟨r, e⟩
      have hs := sim.stray (Q := P) h (component?_ne_assocArray hv)
      rwa [invoke_assoc_stray m hv]
  | string m => exact sim.stringMethod m hlax hr args
  | text w =>
    exact sim.bind (sim.look fun c => Library.contentText c.heap receiver) fun _ _ => sim.plain rfl
  | content w => exact sim.ret (sim.admissible.unbox hr)

end BrightScript.Walk
