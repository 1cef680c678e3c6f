import BrightScript.Proofs.Admissible

/-!
# Values a session stores

`Session.Holds P` says that every value stored in the heap or bound to a name satisfies `P`. Each
operation on arrays, associative arrays, the heap and the scopes has one lemma here: it keeps the
predicate if the values it is given satisfy it, and what it reads satisfies the predicate.
-/

namespace BrightScript

variable {h : Heap} {a : ArrayObject} {v : Value} {s : Scopes}

/-- Every element satisfies `P`. -/
def ArrayObject.Holds (P : Value → Prop) (a : ArrayObject) : Prop :=
  ∀ v ∈ a.elements, P v

/-- The value of every entry satisfies `P`. -/
def AssocArray.Holds (P : Value → Prop) (a : AssocArray) : Prop :=
  ∀ (key : String) (e : Entry), a.entries[key]? = some e → P e.value

/-- Every value in a collection satisfies `P`. -/
structure Heap.Holds (P : Value → Prop) (h : Heap) : Prop where
  arrays : ∀ a ∈ h.arrays, a.Holds P
  assocs : ∀ a ∈ h.assocs, a.Holds P

/-- Every bound value satisfies `P`. -/
def Bindings.Holds (P : Value → Prop) (b : Bindings) : Prop :=
  ∀ (key : String) (v : Value), b[key]? = some v → P v

/-- Every value bound in one of the scopes satisfies `P`. -/
structure Scopes.Holds (P : Value → Prop) (s : Scopes) : Prop where
  globals : Bindings.Holds P s.globals
  modules : Bindings.Holds P s.modules
  locals : Bindings.Holds P s.active.locals

/-- Every value stored in the session satisfies `P`. -/
structure Session.Holds (P : Value → Prop) (s : Session) : Prop where
  heap : s.heap.Holds P
  scopes : s.scopes.Holds P

/-- The values that a thrown error carries satisfy `P`. -/
def ScriptError.Holds (P : Value → Prop) (e : ScriptError) : Prop :=
  ∀ member ∈ e.extra, P member.2

/-- A field that an error can carry. The number and the text are no such fields, and a backtrace is
an array. -/
def ScriptError.IsCarried (member : String × Value) : Prop :=
  Text.fold member.1 ≠ "number" ∧ Text.fold member.1 ≠ "message" ∧
    (Text.fold member.1 = "backtrace" → ∃ r, member.2 = .array r)

/-- An error that rules raise: it carries fields that it can carry, with values that satisfy `P`. -/
structure ScriptError.Raised (P : Value → Prop) (e : ScriptError) : Prop where
  holds : e.Holds P
  carried : ∀ member ∈ e.extra, IsCarried member

/-- The values that a signal carries satisfy `P`. -/
def Signal.Holds (P : Value → Prop) : Signal → Prop
  | .returning (some v) _ => P v
  | .error e => e.Holds P
  | _ => True

variable {P : Value → Prop}

/-! ## Arrays -/

namespace ArrayObject.Holds

theorem empty : (default : ArrayObject).Holds P := by
  intro v hv
  cases Array.not_mem_empty v hv

theorem ofList {values : List Value} (h : ∀ v ∈ values, P v) :
    (ArrayObject.ofList values).Holds P := by
  intro v hv
  exact h v (List.mem_toArray.1 hv)

theorem toList (h : a.Holds P) : ∀ v ∈ a.toList, P v := by
  intro v hv
  exact h v (Array.mem_toList_iff.1 hv)

theorem getD (h : a.Holds P) (hi : P .invalid) (i : Nat) : P (a.elements.getD i .invalid) := by
  rw [Array.getD_eq_getD_getElem?]
  cases he : a.elements[i]? with
  | none => exact hi
  | some v => exact h v (Array.mem_of_getElem? he)

theorem get (h : a.Holds P) (hi : P .invalid) (index : Int64) : P (a.get index) := by
  unfold ArrayObject.get
  split
  · exact hi
  · exact h.getD hi _

theorem back (h : a.Holds P) (hi : P .invalid) : P (a.elements.back?.getD .invalid) := by
  cases he : a.elements.back? with
  | none => exact hi
  | some v => exact h v (Array.mem_of_back? he)

theorem push (h : a.Holds P) (hv : P v) : ArrayObject.Holds P ⟨a.elements.push v⟩ := by
  intro w hw
  rcases Array.mem_push.1 hw with hw | rfl
  · exact h w hw
  · exact hv

theorem pop (h : a.Holds P) : ArrayObject.Holds P ⟨a.elements.pop⟩ := by
  intro w hw
  rw [← Array.mem_toList_iff, Array.toList_pop] at hw
  exact h.toList w ((List.dropLast_sublist _).subset hw)

theorem dropFirst (h : a.Holds P) : (Library.dropFirst a).Holds P := by
  intro w hw
  obtain ⟨i, hi, rfl⟩ := Array.mem_extract_iff_getElem.1 hw
  exact h _ (Array.getElem_mem _)

theorem append {a b : Array Value} (ha : ArrayObject.Holds P ⟨a⟩) (hb : ArrayObject.Holds P ⟨b⟩) :
    ArrayObject.Holds P ⟨a ++ b⟩ := by
  intro w hw
  rcases Array.mem_append.1 hw with hw | hw
  · exact ha w hw
  · exact hb w hw

theorem reverse (h : a.Holds P) : ArrayObject.Holds P ⟨a.elements.reverse⟩ := by
  intro w hw
  exact h w (Array.mem_reverse.1 hw)

theorem put (h : a.Holds P) (hi : P .invalid) (hv : P v) (place : Nat) :
    (a.put place v).Holds P := by
  unfold ArrayObject.put
  split
  · intro w hw
    rcases Array.mem_or_eq_of_mem_setIfInBounds hw with hw | rfl
    · exact h w hw
    · exact hv
  · have filled : ArrayObject.Holds P ⟨Array.replicate (place - a.size) Value.invalid⟩ := by
      intro w hw
      rw [(Array.mem_replicate.1 hw).2]
      exact hi
    exact (h.append filled).push hv

end ArrayObject.Holds

/-! ## Associative arrays -/

namespace AssocArray.Holds

variable {a : AssocArray}

theorem empty : AssocArray.empty.Holds P := by
  intro key e he
  simp [AssocArray.empty] at he

theorem get? (h : a.Holds P) {key : String} (hv : a.get? key = some v) : P v := by
  obtain ⟨e, he, rfl⟩ := Option.map_eq_some_iff.1 hv
  exact h _ e he

theorem set (h : a.Holds P) (hv : P v) (key : String) (keep : Bool) :
    (a.set key v keep).Holds P := by
  intro other e he
  simp only [AssocArray.set, Std.ExtTreeMap.getElem?_insert] at he
  split at he
  · cases he; exact hv
  · exact h other e he

theorem erase (h : a.Holds P) (key : String) : (a.erase key).Holds P := by
  intro other e he
  simp only [AssocArray.erase, Std.ExtTreeMap.getElem?_erase] at he
  split at he
  · cases he
  · exact h other e he

theorem toList (h : a.Holds P) : ∀ e ∈ a.toList, P e.value := by
  intro e he
  obtain ⟨⟨key, _⟩, hm, rfl⟩ := List.mem_map.1 he
  exact h key _ (Std.ExtTreeMap.mem_toList_iff_getElem?_eq_some.1 hm)

theorem append (h : a.Holds P) {entries : List Entry}
    (he : ∀ e ∈ entries, P e.value) : (a.append entries).Holds P := by
  induction entries generalizing a with
  | nil => exact h
  | cons e rest ih =>
    have hset := h.set (he e List.mem_cons_self) e.shown true
    exact ih hset fun e' he' => he e' (List.mem_cons_of_mem e he')

theorem ofMembers {members : List (String × Value)} (h : ∀ m ∈ members, P m.2) :
    (AssocArray.ofMembers members).Holds P := by
  suffices fold : ∀ (a : AssocArray), a.Holds P →
      (members.foldl (fun a m => a.set m.1 m.2 true) a).Holds P from fold _ empty
  induction members with
  | nil => exact fun a ha => ha
  | cons m rest ih =>
    intro a ha
    have hset := ha.set (h m List.mem_cons_self) m.1 true
    exact ih (fun m' hm' => h m' (List.mem_cons_of_mem m hm')) _ hset

end AssocArray.Holds

/-! ## The heap -/

namespace Heap.Holds

theorem array (hh : h.Holds P) (r : ArrayRef) : (h.array r).Holds P := by
  unfold Heap.array
  rw [Array.getD_eq_getD_getElem?]
  cases he : h.arrays[r.index]? with
  | none => exact ArrayObject.Holds.empty
  | some a => exact hh.arrays a (Array.mem_of_getElem? he)

theorem assoc (hh : h.Holds P) (r : AssocRef) : (h.assoc r).Holds P := by
  unfold Heap.assoc
  rw [Array.getD_eq_getD_getElem?]
  cases he : h.assocs[r.index]? with
  | none => exact AssocArray.Holds.empty
  | some a => exact hh.assocs a (Array.mem_of_getElem? he)

theorem newArray (hh : h.Holds P) (ha : a.Holds P) : (h.newArray a).2.Holds P := by
  refine ⟨fun b hb => ?_, hh.assocs⟩
  rcases Array.mem_push.1 hb with hb | rfl
  · exact hh.arrays b hb
  · exact ha

theorem newAssoc (hh : h.Holds P) {a : AssocArray} (ha : a.Holds P) : (h.newAssoc a).2.Holds P := by
  refine ⟨hh.arrays, fun b hb => ?_⟩
  rcases Array.mem_push.1 hb with hb | rfl
  · exact hh.assocs b hb
  · exact ha

theorem modifyArray (hh : h.Holds P) {f : ArrayObject → ArrayObject}
    (hf : ∀ a, a.Holds P → (f a).Holds P) (r : ArrayRef) : (h.modifyArray r f).Holds P := by
  refine ⟨fun b hb => ?_, hh.assocs⟩
  obtain ⟨i, hi, rfl⟩ := Array.mem_iff_getElem.1 hb
  simp only [Heap.modifyArray] at hi ⊢
  rw [Array.getElem_modify]
  split
  · exact hf _ (hh.arrays _ (Array.getElem_mem _))
  · exact hh.arrays _ (Array.getElem_mem _)

theorem modifyAssoc (hh : h.Holds P) {f : AssocArray → AssocArray}
    (hf : ∀ a, a.Holds P → (f a).Holds P) (r : AssocRef) : (h.modifyAssoc r f).Holds P := by
  refine ⟨hh.arrays, fun b hb => ?_⟩
  obtain ⟨i, hi, rfl⟩ := Array.mem_iff_getElem.1 hb
  simp only [Heap.modifyAssoc] at hi ⊢
  rw [Array.getElem_modify]
  split
  · exact hf _ (hh.assocs _ (Array.getElem_mem _))
  · exact hh.assocs _ (Array.getElem_mem _)

/-- Making several values keeps the predicate if making one does. -/
theorem newMany {make : Heap → Value × Heap}
    (hmake : ∀ h : Heap, h.Holds P → P (make h).1 ∧ (make h).2.Holds P) (count : Nat)
    {made : Array Value} (hmade : ArrayObject.Holds P ⟨made⟩) (hh : h.Holds P) :
    ArrayObject.Holds P ⟨(Heap.newMany make count made h).1⟩ ∧
      (Heap.newMany make count made h).2.Holds P := by
  induction count generalizing made h with
  | zero => exact ⟨hmade, hh⟩
  | succ count ih =>
    obtain ⟨hv, hh'⟩ := hmake h hh
    exact ih (hmade.push hv) hh'

theorem newGrid (hP : Admissible P) (sizes : List Nat) (hh : h.Holds P) :
    P (Heap.newGrid sizes h).1 ∧ (Heap.newGrid sizes h).2.Holds P := by
  induction sizes generalizing h with
  | nil => exact ⟨hP.plain rfl, hh.newArray ArrayObject.Holds.empty⟩
  | cons size rest ih =>
    have none : ArrayObject.Holds P ⟨#[]⟩ := ArrayObject.Holds.empty
    obtain ⟨hmade, hh'⟩ := newMany (fun h hh => ih hh) size none hh
    exact ⟨hP.plain rfl, hh'.newArray hmade⟩

theorem newEntries (hP : Admissible P) (entries : List TraceEntry) (hh : h.Holds P) :
    (∀ v ∈ (h.newEntries entries).1, P v) ∧ (h.newEntries entries).2.Holds P := by
  induction entries generalizing h with
  | nil => exact ⟨by simp [Heap.newEntries], hh⟩
  | cons entry rest ih =>
    have members : (AssocArray.ofMembers entry.members).Holds P := by
      refine AssocArray.Holds.ofMembers fun m hm => ?_
      simp only [TraceEntry.members, List.mem_cons, List.not_mem_nil, or_false] at hm
      rcases hm with rfl | rfl | rfl <;> exact hP.plain rfl
    obtain ⟨hvs, hh'⟩ := ih (hh.newAssoc members)
    exact ⟨List.forall_mem_cons.2 ⟨hP.plain rfl, hvs⟩, hh'⟩

theorem newBacktrace (hP : Admissible P) (reached : Location) (stack : List Frame)
    (hh : h.Holds P) : (h.newBacktrace reached stack).2.Holds P := by
  obtain ⟨hvs, hh'⟩ := newEntries hP (traceFrom reached stack).reverse hh
  exact hh'.newArray (ArrayObject.Holds.ofList hvs)

theorem elements? (hP : Admissible P) (hh : h.Holds P) {elements : List Value}
    (he : h.elements? v = some elements) : ∀ w ∈ elements, P w := by
  unfold Heap.elements? at he
  split at he
  · cases he; exact (hh.array _).toList
  · cases he
    intro w hw
    obtain ⟨key, -, rfl⟩ := List.mem_map.1 hw
    exact hP.plain rfl
  · cases he

theorem member? (hP : Admissible P) (hh : h.Holds P) {source : Value} {name : String}
    (hv : h.member? source name = some v) : P v := by
  unfold Heap.member? at hv
  split at hv
  · obtain ⟨w, hw, rfl⟩ := Option.map_eq_some_iff.1 hv
    exact hP.readFrom ((hh.assoc _).get? hw)
  · cases hv

end Heap.Holds

/-! ## Scopes -/

theorem Bindings.Holds.insert {b : Bindings} (h : Bindings.Holds P b) (hv : P v) (key : String) :
    Bindings.Holds P (b.insert key v) := by
  intro other w hw
  rw [Std.ExtTreeMap.getElem?_insert] at hw
  split at hw
  · cases hw; exact hv
  · exact h other w hw

theorem Bindings.Holds.erase {b : Bindings} (h : Bindings.Holds P b) (key : String) :
    Bindings.Holds P (b.erase key) := by
  intro other w hw
  rw [Std.ExtTreeMap.getElem?_erase] at hw
  split at hw
  · cases hw
  · exact h other w hw

theorem Bindings.Holds.empty : Bindings.Holds P ∅ := by
  intro key v hv
  simp at hv

namespace Scopes.Holds

theorem get? (hP : Admissible P) (h : s.Holds P) {name : Identifier} (he : s.get? name = some v) :
    P v := by
  simp only [Scopes.get?, Option.orElse_eq_orElse, Option.orElse_eq_or] at he
  split at he
  · cases he; exact hP.plain rfl
  · split at he
    · cases he; exact hP.plain rfl
    · rcases Option.or_eq_some_iff.1 he with he | ⟨-, he⟩
      · exact h.locals _ v he
      · rcases Option.or_eq_some_iff.1 he with he | ⟨-, he⟩
        · exact h.modules _ v he
        · exact h.globals _ v he

theorem get (hP : Admissible P) (h : s.Holds P) (name : Identifier) : P (s.get name) := by
  rw [Scopes.get]
  cases he : s.get? name with
  | none => exact hP.plain rfl
  | some v => exact h.get? hP he

theorem bind (h : s.Holds P) (hv : P v) (name : String) : (s.bind name v).Holds P :=
  ⟨h.globals, h.modules, h.locals.insert hv _⟩

theorem defineModule (h : s.Holds P) (hv : P v) (name : String) (location? : Option Location) :
    (s.defineModule name v location?).Holds P :=
  ⟨h.globals, h.modules.insert hv _, h.locals⟩

theorem removeLocal (h : s.Holds P) (name : String) : (s.remove name .function).Holds P :=
  ⟨h.globals, h.modules, h.locals.erase _⟩

theorem setPending (h : s.Holds P) (label : Option String) : (s.setPending label).Holds P :=
  ⟨h.globals, h.modules, h.locals⟩

theorem fresh (h : s.Holds P) (m : AssocRef) : (s.resume (.fresh m)).Holds P :=
  ⟨h.globals, h.modules, Bindings.Holds.empty⟩

/-- Coming back to a call takes its variables from before and the functions from now. -/
theorem resume {t : Scopes} (h : s.Holds P) (ht : t.Holds P) : (t.resume s.active).Holds P :=
  ⟨ht.globals, ht.modules, h.locals⟩

end Scopes.Holds

def Scopes.entry? (s : Scopes) : Option Callable :=
  entryNames.findSome? fun name =>
    match s.get? ⟨name, .builtin⟩ with
    | some (.function c) => some c
    | _ => none

theorem Scopes.Holds.entry? (hP : Admissible P) (h : s.Holds P) {c : Callable}
    (he : s.entry? = some c) : P (.function c) := by
  obtain ⟨name, -, hc⟩ := List.exists_of_findSome?_eq_some he
  split at hc
  · next c' hget =>
    cases hc
    exact h.get? hP hget
  · cases hc

theorem Scopes.Holds.withGlobals (hP : Admissible P) (h : s.Holds P) : s.withGlobals.Holds P := by
  refine List.foldlRecOn Builtin.globals _ h fun t ht b _ => ?_
  exact ⟨ht.globals.insert hP.builtin _, ht.modules, ht.locals⟩

theorem Session.Holds.trivial (s : Session) : s.Holds fun _ => True :=
  ⟨⟨fun _ _ _ _ => True.intro, fun _ _ _ _ _ => True.intro⟩,
    ⟨fun _ _ _ => True.intro, fun _ _ _ => True.intro, fun _ _ _ => True.intro⟩⟩

theorem Session.Holds.new (hP : Admissible P) (options : Options) :
    (Session.new options).Holds P := by
  have nothing : Heap.empty.Holds P := by
    constructor <;> exact fun a ha => absurd ha (Array.not_mem_empty a)
  have root (m : AssocRef) : (Scopes.ofRoot m).Holds P :=
    ⟨Bindings.Holds.empty, Bindings.Holds.empty, Bindings.Holds.empty⟩
  exact ⟨nothing.newAssoc AssocArray.Holds.empty, (root _).withGlobals hP⟩

/-! ## Errors -/

/-- What a field of a thrown array adds to the fields that the error carries along. -/
theorem Thrown.mem_extra_withMember {t t' : Thrown} {entry : Entry} {member : String × Value}
    (h : t.withMember entry = .ok t') (hm : member ∈ t'.extra) :
    member ∈ t.extra ∨ (∃ r, member = ("backtrace", .array r)) ∨
      member = ("rethrown", .boolean true) ∨
      Text.fold entry.shown ∉ ["backtrace", "message", "number", "rethrown"] ∧
        member = (entry.shown, entry.value) := by
  unfold Thrown.withMember at h
  split at h <;> cases h
  case h_8 r _ hr =>
    obtain hm | hm := List.mem_append.1 hm
    · exact .inl hm
    · simp only [List.mem_cons, List.not_mem_nil, or_false] at hm
      exact .inr (hm.imp (fun heq => ⟨r, heq⟩) .inl)
  case h_10 =>
    obtain hm | hm := List.mem_append.1 hm
    · exact .inl hm
    · exact .inr (.inr (.inr ⟨by simp_all, List.mem_singleton.1 hm⟩))
  all_goals exact .inl hm

/-- What holds before any field of a thrown array is read and is kept by each of them. -/
theorem Thrown.ofEntries_induction {I : Thrown → Prop} {entries : List Entry}
    (start : ∀ number message, I ⟨number, message, []⟩)
    (step : ∀ (t t' : Thrown), ∀ entry ∈ entries, I t → t.withMember entry = .ok t' → I t') :
    I (Thrown.ofEntries entries) := by
  have run (rest : List Entry) (hrest : rest ⊆ entries) (t t' : Thrown) (ht : I t)
      (hrun : rest.foldlM Thrown.withMember t = .ok t') : I t' := by
    induction rest generalizing t with
    | nil => cases hrun; exact ht
    | cons entry rest ih =>
      obtain ⟨hentry, hrest⟩ := List.cons_subset.1 hrest
      rw [List.foldlM_cons] at hrun
      cases hu : t.withMember entry with
      | error reason => rw [hu] at hrun; cases hrun
      | ok u => rw [hu] at hrun; exact ih hrest u (step t u entry hentry ht hu) hrun
  unfold Thrown.ofEntries
  split
  · next ht => exact run entries (List.Subset.refl _) _ _ (start _ _) ht
  · exact start _ _

/-- The members of an error that a script throws are those of the thrown value. -/
theorem Thrown.ofValue_members {Q : String × Value → Prop} (h : Heap) (v : Value)
    (hbacktrace : ∀ r, Q ("backtrace", .array r)) (hmark : Q ("rethrown", .boolean true))
    (hother : ∀ r, ∀ entry ∈ (h.assoc r).toList,
      Text.fold entry.shown ∉ ["backtrace", "message", "number", "rethrown"] →
        Q (entry.shown, entry.value)) :
    ∀ member ∈ (Thrown.ofValue h v).extra, Q member := by
  have nothing : ∀ member ∈ ([] : List (String × Value)), Q member := fun _ hm => by cases hm
  unfold Thrown.ofValue
  split
  · exact nothing
  · next r _ =>
    refine ofEntries_induction (I := fun t => ∀ member ∈ t.extra, Q member)
      (fun _ _ => nothing) fun t t' entry hentry ht hstep member hm => ?_
    obtain hm | ⟨r, rfl⟩ | rfl | ⟨hkey, rfl⟩ := mem_extra_withMember hstep hm
    · exact ht member hm
    · exact hbacktrace r
    · exact hmark
    · exact hother _ entry hentry hkey
  · exact nothing

theorem Thrown.ofValue_extra (hP : Admissible P) (hh : h.Holds P) (v : Value) :
    ∀ member ∈ (Thrown.ofValue h v).extra, P member.2 :=
  ofValue_members h v (fun _ => hP.plain rfl) (hP.plain rfl)
    fun r entry hentry _ => (hh.assoc r).toList entry hentry

theorem Thrown.ofValue_carried (h : Heap) (v : Value) :
    ∀ member ∈ (Thrown.ofValue h v).extra, ScriptError.IsCarried member := by
  have hbacktrace : Text.fold "backtrace" ≠ "number" ∧ Text.fold "backtrace" ≠ "message" := by
    decide
  refine ofValue_members h v (fun r => ⟨hbacktrace.1, hbacktrace.2, fun _ => ⟨r, rfl⟩⟩)
    ⟨by decide, by decide, fun h => absurd h (by decide)⟩ fun r entry _ hkey => ?_
  unfold ScriptError.IsCarried
  simp_all

/-- All errors but thrown ones carry no fields. -/
theorem ScriptError.Raised.of_extra {e : ScriptError} (h : e.extra = []) : e.Raised P := by
  constructor <;>
  · intro member hm
    rw [h] at hm
    cases hm

theorem Signal.Holds.trivial (signal : Signal) : signal.Holds fun _ => True := by
  cases signal with
  | returning value? => cases value? <;> exact True.intro
  | error => exact fun _ _ => True.intro
  | _ => exact True.intro

theorem ScriptError.Holds.members (hP : Admissible P) {e : ScriptError} (he : e.Holds P)
    {backtrace : Value} (hb : P backtrace) : (e.members backtrace).Holds P := by
  unfold ScriptError.members
  have plain : (AssocArray.ofMembers
      [("backtrace", backtrace), ("message", .string e.message), ("number", .integer e.number),
       ("rethrown", .boolean false)]).Holds P := by
    refine AssocArray.Holds.ofMembers fun m hm => ?_
    simp only [List.mem_cons, List.not_mem_nil, or_false] at hm
    rcases hm with rfl | rfl | rfl | rfl
    · exact hb
    all_goals exact hP.plain rfl
  refine List.foldlRecOn e.extra _ plain fun a ha member hm => ?_
  refine AssocArray.Holds.set ?_ (he member hm) _ _
  split
  · split
    · exact ha.set hb _ _
    · exact ha
  · exact ha

end BrightScript
