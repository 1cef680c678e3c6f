import BrightScript.Proofs.Mirror

/-!
# Library functions in mirrors

Global functions and methods find their arguments by position. What they read of them does not
depend on the spelling of names, and functions among them are passed on.
-/

namespace BrightScript

/-! ## Arguments and elements -/

namespace Library

variable {sp : Spelling}

@[simp] theorem textAt_spelled (args : List Value) (i : Nat) :
    textAt (args.map (Value.spelled sp)) i = textAt args i := by
  rw [textAt, textAt, List.getElem?_map, Option.map_map]
  cases args[i]? with
  | none => rfl
  | some v =>
    simp only [Option.map_some, Function.comp_apply, Value.unbox_spelled]
    cases v.unbox <;> rfl

@[simp] theorem integerAt_spelled (args : List Value) (i : Nat) :
    integerAt (args.map (Value.spelled sp)) i = integerAt args i := by
  rw [integerAt, integerAt, List.getElem?_map]
  cases args[i]? <;> simp

@[simp] theorem numberAt_spelled (args : List Value) (i : Nat) :
    numberAt (args.map (Value.spelled sp)) i = numberAt args i := by
  rw [numberAt, numberAt, List.getElem?_map]
  cases args[i]? <;> simp

theorem toInt64?_head?_spelled (args : List Value) :
    (args.map (Value.spelled sp)).head?.bind Value.toInt64? = args.head?.bind Value.toInt64? := by
  cases args <;> simp

theorem toFloat?_head?_spelled (args : List Value) :
    (args.map (Value.spelled sp)).head?.bind Value.toFloat? = args.head?.bind Value.toFloat? := by
  cases args <;> simp

theorem magnitude?_spelled (v : Value) : magnitude? (v.spelled sp) = magnitude? v := by
  cases v <;> rfl

theorem join_spelled (a : ArrayObject) (separator : String) :
    join (a.spelled sp) separator = join a separator := by
  have hstrings : strings? (a.toList.map (Value.spelled sp)) = strings? a.toList := by
    rw [strings?, strings?, List.mapM_map]
    refine congrArg (List.mapM · a.toList) (funext fun v => ?_)
    simp only [Function.comp_apply, Value.unbox_spelled]
    cases v.unbox <;> rfl
  rw [join, ArrayObject.toList_spelled, hstrings, join]

end Library

namespace Mirror

variable (k : Mirror) {α β : Type}

theorem plain {v : Value} (hv : v.isPlain = true) : k.Gives (pure v : Run Value) (pure v) := by
  have h := k.ret (Value.spelled k.sp) v
  rwa [Value.spelled_of_isPlain hv] at h

/-! ## Collections -/

/-- A change that gives nothing. -/
theorem noResult {x y : Run Unit} (h : k.Follows id x y) :
    k.Gives (do x; return .invalid) (do y; return .invalid) :=
  k.bind h fun _ => k.plain rfl

theorem arrayMethod (m : ArrayMethod) (r : ArrayRef) (args : List Value) :
    k.Gives (Library.arrayMethod m r args)
      (Library.arrayMethod m r (args.map (Value.spelled k.sp))) := by
  cases m with
  | count =>
    refine k.bind (k.array r) fun a => ?_
    rw [ArrayObject.size_spelled]
    exact k.plain rfl
  | isEmpty =>
    refine k.bind (k.array r) fun a => ?_
    rw [ArrayObject.isEmpty_spelled]
    exact k.plain rfl
  | join =>
    refine k.bind (k.array r) fun a => ?_
    rw [Library.join_spelled, Library.textAt_spelled]
    exact k.plain rfl
  | push =>
    cases args with
    | nil => exact k.plain rfl
    | cons v vs =>
      refine k.noResult (k.modifyArray r fun a => ?_)
      simp [ArrayObject.spelled]
  | unshift =>
    cases args with
    | nil => exact k.plain rfl
    | cons v vs =>
      refine k.noResult (k.modifyArray r fun a => ?_)
      simp [ArrayObject.spelled]
  | pop =>
    refine k.bind (k.array r) fun a => ?_
    refine k.bind (k.modifyArray r fun b => ?_) fun _ => ?_
    · simp [ArrayObject.spelled, Array.map_pop]
    · rw [ArrayObject.back_spelled]
      exact k.ret _ _
  | shift =>
    refine k.bind (k.array r) fun a => ?_
    refine k.bind (k.modifyArray r fun b => ?_) fun _ => ?_
    · simp [Library.dropFirst, ArrayObject.spelled, ArrayObject.size, Array.map_extract]
    · rw [ArrayObject.get_spelled]
      exact k.ret _ _
  | peek =>
    refine k.bind (k.array r) fun a => ?_
    rw [ArrayObject.back_spelled]
    exact k.ret _ _
  | clear => exact k.noResult (k.modifyArray r fun _ => ArrayObject.spelled_default.symm)
  | reverse =>
    refine k.noResult (k.modifyArray r fun a => ?_)
    simp [ArrayObject.spelled]
  | append =>
    cases args with
    | nil => exact k.plain rfl
    | cons v vs =>
      cases v with
      | array other =>
        refine k.bind (k.array other) fun more => ?_
        refine k.noResult (k.modifyArray r fun a => ?_)
        simp [ArrayObject.spelled]
      | _ => exact k.plain rfl
  | getEntry =>
    simp only [Library.arrayMethod, Library.toInt64?_head?_spelled]
    split
    · refine k.bind (k.array r) fun a => ?_
      rw [ArrayObject.get_spelled]
      exact k.ret _ _
    · exact k.plain rfl
  | setEntry =>
    simp only [Library.arrayMethod, Library.toInt64?_head?_spelled, List.getElem?_map]
    cases args.head?.bind Value.toInt64? with
    | none => exact k.plain rfl
    | some index =>
      cases args[1]? with
      | none => exact k.plain rfl
      | some v =>
        dsimp only [Option.map_some]
        split
        · exact k.noResult (k.modifyArray r fun a => (a.spelled_put _ v).symm)
        · exact k.bind (k.faultHere id _) fun _ => k.plain rfl

theorem newItems (entries : List Entry) :
    k.Follows (List.map (Value.spelled k.sp)) (Library.newItems entries)
      (Library.newItems (entries.map (Entry.spelled k.sp))) := by
  induction entries with
  | nil => exact k.ret _ []
  | cons e rest ih =>
    have item := k.newAssoc (.ofMembers [("key", .string e.shown), ("value", e.value)])
    rw [AssocArray.spelled_ofMembers] at item
    refine k.bind item fun v => ?_
    exact k.bind ih fun vs => k.ret _ (v :: vs)

theorem newTexts (texts : List String) :
    k.Gives (Run.newArray (.ofList (texts.map .string)))
      (Run.newArray (.ofList (texts.map .string))) := by
  have h := k.newArray (.ofList (texts.map .string))
  rw [ArrayObject.spelled_ofList, List.map_map] at h
  exact h

theorem assocMethod (m : AssocMethod) (r : AssocRef) (args : List Value) :
    k.Gives (Library.assocMethod m r args)
      (Library.assocMethod m r (args.map (Value.spelled k.sp))) := by
  unfold Library.assocMethod
  rw [Library.textAt_spelled]
  cases m with
  | count =>
    refine k.bind (k.assoc r) fun a => ?_
    rw [AssocArray.size_spelled]
    exact k.plain rfl
  | isEmpty =>
    refine k.bind (k.assoc r) fun a => ?_
    rw [AssocArray.isEmpty_spelled]
    exact k.plain rfl
  | doesExist =>
    refine k.bind (k.assoc r) fun a => ?_
    rw [AssocArray.contains_spelled]
    exact k.plain rfl
  | addReplace =>
    refine k.noResult (k.modifyAssoc r fun a => ?_)
    rw [AssocArray.spelled_set, List.getD_eq_getElem?_getD, List.getD_eq_getElem?_getD,
      List.getElem?_map]
    cases args[1]? <;> rfl
  | lookup =>
    refine k.bind (k.assoc r) fun a => ?_
    rw [AssocArray.get?_spelled]
    cases a.get? (Library.textAt args 0) with
    | none => exact k.plain rfl
    | some v => exact k.ret _ v
  | delete =>
    refine k.bind (k.assoc r) fun a => ?_
    rw [AssocArray.contains_spelled]
    refine k.bind (k.modifyAssoc r fun b => ?_) fun _ => k.plain rfl
    exact (b.spelled_erase _).symm
  | clear =>
    exact k.noResult (k.modifyAssoc r fun _ => (AssocArray.spelled_ofMembers []).symm)
  | keys =>
    refine k.bind (k.assoc r) fun a => ?_
    rw [AssocArray.keys_spelled]
    exact k.newTexts a.keys
  | items =>
    refine k.bind (k.assoc r) fun a => ?_
    rw [AssocArray.toList_spelled]
    refine k.bind (k.newItems a.toList) fun items => ?_
    rw [← ArrayObject.spelled_ofList]
    exact k.newArray _
  | append =>
    cases args with
    | nil => exact k.plain rfl
    | cons v vs =>
      cases v with
      | assoc other =>
        refine k.bind (k.assoc other) fun more => ?_
        refine k.noResult (k.modifyAssoc r fun a => ?_)
        rw [AssocArray.toList_spelled, AssocArray.spelled_append]
      | _ => exact k.plain rfl

/-! ## Texts and global functions -/

theorem contentText (receiver : Value) :
    k.Follows id (Routine.view fun s => Library.contentText s.heap receiver)
      (Routine.view fun s => Library.contentText s.heap (receiver.spelled k.sp)) := by
  refine k.view fun s => ?_
  simp only [Library.contentText, Value.unbox_spelled]
  exact s.heap.text_spelled receiver.unbox

theorem stringMethod (m : StringMethod) (receiver : Value) (args : List Value) :
    k.Gives (Library.stringMethod m receiver args)
      (Library.stringMethod m (receiver.spelled k.sp) (args.map (Value.spelled k.sp))) := by
  refine k.bind (k.contentText receiver) fun text => ?_
  simp only [Library.integerAt_spelled, Library.textAt_spelled, List.length_map, id]
  cases m with
  | getString =>
    dsimp only
    rw [Value.unbox_spelled]
    exact k.ret _ _
  | split => exact k.newTexts _
  | instr =>
    dsimp only
    split <;> exact k.plain rfl
  | _ => exact k.plain rfl

theorem create {className : String} {make : Run Value} (h : Library.create? className = some make) :
    k.Gives make make := by
  have box {v : Value} (hv : v.isPlain = true) :
      k.Gives (pure (.boxed v) : Run Value) (pure (.boxed v)) := by
    have h := k.ret (Value.spelled k.sp) (.boxed v)
    rwa [Value.spelled, Value.spelled_of_isPlain hv] at h
  have empty := k.newAssoc .empty
  rw [show AssocArray.empty.spelled k.sp = .empty from AssocArray.spelled_ofMembers []] at empty
  have none := k.newArray default
  rw [ArrayObject.spelled_default] at none
  unfold Library.create? at h
  split at h
  · cases h; exact none
  · cases h; exact empty
  · cases h; exact box rfl
  · split at h <;> cases h <;> exact box rfl
  · cases h

theorem tab (target : Int) : k.Gives (Library.tab target) (Library.tab target) := by
  refine k.bind (k.look fun _ => rfl) fun column => ?_
  dsimp only [id]
  split
  · exact k.plain rfl
  · split
    · exact k.faultHere _ _
    · exact k.plain rfl

theorem builtin (b : Builtin) (args : List Value) :
    k.Gives (b.invoke args) (b.invoke (args.map (Value.spelled k.sp))) := by
  cases b with
  | int | fix =>
    simp only [Builtin.invoke, Library.toFloat?_head?_spelled]
    split
    · exact k.plain rfl
    · exact k.faultHere _ _
  | abs =>
    have hmagnitude : (args.map (Value.spelled k.sp)).head?.bind (Library.magnitude? ·.unbox) =
        args.head?.bind (Library.magnitude? ·.unbox) := by
      cases args <;> simp [Library.magnitude?_spelled]
    simp only [Builtin.invoke, hmagnitude]
    split
    · next v hv =>
      obtain ⟨w, -, hw⟩ := Option.bind_eq_some_iff.1 hv
      exact k.plain (Value.isPlain_magnitude? hw)
    · exact k.faultHere _ _
  | mid =>
    simp only [Builtin.invoke, Library.textAt_spelled, Library.integerAt_spelled,
      List.getElem?_map]
    cases args[2]? with
    | none => exact k.plain rfl
    | some v =>
      dsimp only [Option.map_some]
      rw [Value.toInt64?_spelled]
      exact k.plain rfl
  | instr =>
    simp only [Builtin.invoke, Library.textAt_spelled, Library.integerAt_spelled]
    split <;> exact k.plain rfl
  | val =>
    simp only [Builtin.invoke, Library.textAt_spelled, List.getElem?_map]
    cases args[1]? with
    | none => exact k.plain rfl
    | some radix =>
      have hradix : (radix.spelled k.sp).toInt64? = radix.toInt64? := radix.toInt64?_spelled
      cases radix with
      | boxed content =>
        dsimp only [Option.map_some, Value.spelled] at hradix ⊢
        rw [hradix]
        exact k.plain rfl
      | _ => exact k.plain rfl
  | typeName =>
    cases args with
    | nil => exact k.plain rfl
    | cons v vs =>
      simp only [Builtin.invoke, List.map_cons, List.headD_cons, Value.typeName_spelled]
      exact k.plain rfl
  | box =>
    cases args with
    | nil => exact k.ret _ (Value.box .invalid)
    | cons v vs =>
      simp only [Builtin.invoke, List.map_cons, List.headD_cons, Value.box_spelled]
      exact k.ret _ v.box
  | createObject =>
    simp only [Builtin.invoke, Library.textAt_spelled]
    split
    · next make hmake => exact k.create hmake
    · exact k.bind k.location fun location => k.noResult (k.complain _)
  | getGlobalAA | pos => exact k.bind (k.look fun _ => rfl) fun _ => k.plain rfl
  | upTime => exact k.bind k.readClock fun _ => k.plain rfl
  | tab =>
    simp only [Builtin.invoke, Library.integerAt_spelled]
    exact k.tab _
  | _ =>
    simp only [Builtin.invoke, Library.textAt_spelled, Library.integerAt_spelled,
      Library.numberAt_spelled]
    exact k.plain rfl

theorem wrongReceiver (image : α → β) (c : Component) (receiver : Value) :
    k.Follows image (Library.wrongReceiver c receiver)
      (Library.wrongReceiver c (receiver.spelled k.sp)) := by
  unfold Library.wrongReceiver Library.strayError
  rw [Value.typeName_spelled]
  exact k.bind k.location fun location => k.leave image (.error (.plain _ location))

theorem method (m : Method) (receiver : Value) (args : List Value) :
    k.Gives (m.invoke receiver args)
      (m.invoke (receiver.spelled k.sp) (args.map (Value.spelled k.sp))) := by
  cases m with
  | array m =>
    cases receiver with
    | array r => exact k.arrayMethod m r args
    | _ => exact k.wrongReceiver _ .array _
  | assoc m =>
    cases receiver with
    | assoc r => exact k.assocMethod m r args
    | _ => exact k.wrongReceiver _ .assocArray _
  | string m => exact k.stringMethod m receiver args
  | text w => exact k.bind (k.contentText receiver) fun _ => k.plain rfl
  | content w =>
    simp only [Method.invoke, Value.unbox_spelled]
    exact k.ret _ _

end Mirror

end BrightScript
