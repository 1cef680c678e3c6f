import BrightScript.Proofs.Spelling

/-!
# Spelling of names in sessions

What is read of collections, backtraces, bindings and errors does not depend on the spelling of
names, and every change of them commutes with spelling names anew.
-/

namespace BrightScript

variable {sp : Spelling}

/-! ## Collections -/

namespace ArrayObject

@[simp] theorem size_spelled (a : ArrayObject) : (a.spelled sp).size = a.size := by
  simp [size, spelled]

@[simp] theorem isEmpty_spelled (a : ArrayObject) : (a.spelled sp).isEmpty = a.isEmpty := by
  simp [isEmpty, spelled, Array.isEmpty]

@[simp] theorem toList_spelled (a : ArrayObject) :
    (a.spelled sp).toList = a.toList.map (Value.spelled sp) := by
  simp [toList, spelled]

theorem spelled_ofList (vs : List Value) :
    ((ofList vs).spelled sp) = ofList (vs.map (Value.spelled sp)) := by
  simp [ofList, spelled]

theorem spelled_default : ((default : ArrayObject).spelled sp) = default :=
  spelled_ofList []

theorem get_spelled (a : ArrayObject) (index : Int64) :
    (a.spelled sp).get index = (a.get index).spelled sp := by
  unfold get
  split
  · rfl
  · simp only [spelled, Array.getD_eq_getD_getElem?, Array.getElem?_map]
    cases a.elements[index.toInt.toNat]? <;> rfl

theorem back_spelled (a : ArrayObject) :
    (a.spelled sp).elements.back?.getD .invalid = (a.elements.back?.getD .invalid).spelled sp := by
  simp only [spelled, Array.back?_map]
  cases a.elements.back? <;> rfl

theorem spelled_put (a : ArrayObject) (place : Nat) (v : Value) :
    (a.put place v).spelled sp = (a.spelled sp).put place (v.spelled sp) := by
  unfold put
  rw [size_spelled]
  split
  · simp [spelled, Array.map_setIfInBounds]
  · simp [spelled, Value.spelled]

@[simp] theorem text_spelled (a : ArrayObject) : (a.spelled sp).text = a.text := by
  have hlines : (a.toList.map (Value.spelled sp)).map (fun v => "    " ++ v.nestedText ++ "\n") =
      a.toList.map fun v => "    " ++ v.nestedText ++ "\n" := by
    simp only [List.map_map, Function.comp_def, Value.nestedText_spelled]
  unfold text
  rw [toList_spelled, hlines]

end ArrayObject

namespace AssocArray

@[simp] theorem size_spelled (a : AssocArray) : (a.spelled sp).size = a.size := by
  simp [size, spelled]

@[simp] theorem isEmpty_spelled (a : AssocArray) : (a.spelled sp).isEmpty = a.isEmpty := by
  simp [isEmpty, spelled, Std.ExtTreeMap.isEmpty_eq_size_beq_zero]

theorem get?_spelled (a : AssocArray) (key : String) :
    (a.spelled sp).get? key = (a.get? key).map (Value.spelled sp) := by
  simp only [get?, spelled, Std.ExtTreeMap.getElem?_map, Option.map_map]
  rfl

theorem get?_spell (a : AssocArray) (key : String) : a.get? (sp.spell key) = a.get? key := by
  simp only [get?, Spelling.fold_spell]

@[simp] theorem contains_spelled (a : AssocArray) (key : String) :
    (a.spelled sp).contains key = a.contains key := by
  simp [contains, spelled]

theorem spelled_set (a : AssocArray) (key : String) (v : Value) (keep : Bool) :
    (a.set key v keep).spelled sp = (a.spelled sp).set key (v.spelled sp) keep := by
  have hspelling : (a.spelled sp).spelling key keep = a.spelling key keep := by
    simp only [spelling, spelled, Std.ExtTreeMap.getElem?_map]
    cases a.entries[Text.fold key]? <;> rfl
  refine AssocArray.ext (Std.ExtTreeMap.ext_getElem? fun k => ?_)
  simp only [set, hspelling]
  simp only [spelled, Std.ExtTreeMap.getElem?_map, Std.ExtTreeMap.getElem?_insert]
  split <;> rfl

/-- A store that does not keep the spelling does not depend on it. -/
theorem set_spell (a : AssocArray) (key : String) (v : Value) :
    a.set (sp.spell key) v false = a.set key v false := by
  refine AssocArray.ext ?_
  simp only [set, spelling, Spelling.fold_spell]
  rfl

theorem spelled_erase (a : AssocArray) (key : String) :
    (a.erase key).spelled sp = (a.spelled sp).erase key := by
  refine AssocArray.ext (Std.ExtTreeMap.ext_getElem? fun k => ?_)
  simp only [erase, spelled, Std.ExtTreeMap.getElem?_map, Std.ExtTreeMap.getElem?_erase]
  split <;> rfl

@[simp] theorem toList_spelled (a : AssocArray) :
    (a.spelled sp).toList = a.toList.map (Entry.spelled sp) := by
  simp [toList, spelled, Std.ExtTreeMap.toList_map, Function.comp_def]

@[simp] theorem keys_spelled (a : AssocArray) : (a.spelled sp).keys = a.keys := by
  simp [keys, Function.comp_def, Entry.spelled]

theorem spelled_append (a : AssocArray) (entries : List Entry) :
    (a.append entries).spelled sp = (a.spelled sp).append (entries.map (Entry.spelled sp)) := by
  induction entries generalizing a with
  | nil => rfl
  | cons e rest ih =>
    refine (ih _).trans ?_
    rw [spelled_set]
    rfl

theorem spelled_ofMembers (members : List (String × Value)) :
    (ofMembers members).spelled sp =
      ofMembers (members.map fun (key, v) => (key, v.spelled sp)) := by
  have hfold (a : AssocArray) :
      (members.foldl (fun a (key, v) => a.set key v true) a).spelled sp =
      (members.map fun (key, v) => (key, v.spelled sp)).foldl
        (fun a (key, v) => a.set key v true) (a.spelled sp) := by
    induction members generalizing a with
    | nil => rfl
    | cons m rest ih =>
      refine (ih _).trans ?_
      rw [spelled_set]
      rfl
  have hempty : (empty.spelled sp) = empty :=
    AssocArray.ext (Std.ExtTreeMap.ext_getElem? fun k => by simp [empty, spelled])
  rw [ofMembers, hfold, hempty, ofMembers]

@[simp] theorem text_spelled (a : AssocArray) : (a.spelled sp).text = a.text := by
  have hlines : (a.toList.map (Entry.spelled sp)).map
        (fun e => "    " ++ e.shown ++ ": " ++ e.value.nestedText ++ "\n") =
      a.toList.map fun e => "    " ++ e.shown ++ ": " ++ e.value.nestedText ++ "\n" := by
    simp only [List.map_map, Function.comp_def, Entry.spelled, Value.nestedText_spelled]
  unfold text
  rw [toList_spelled, hlines]

end AssocArray

namespace Heap

theorem array_spelled (h : Heap) (r : ArrayRef) :
    (h.spelled sp).array r = (h.array r).spelled sp := by
  simp only [array, spelled, Array.getD_eq_getD_getElem?, Array.getElem?_map]
  cases h.arrays[r.index]? with
  | none => exact ArrayObject.spelled_default.symm
  | some a => rfl

theorem assoc_spelled (h : Heap) (r : AssocRef) :
    (h.spelled sp).assoc r = (h.assoc r).spelled sp := by
  simp only [assoc, spelled, Array.getD_eq_getD_getElem?, Array.getElem?_map]
  cases h.assocs[r.index]? with
  | none => exact (AssocArray.spelled_ofMembers []).symm
  | some a => rfl

theorem newArray_spelled (h : Heap) (a : ArrayObject) :
    (h.spelled sp).newArray (a.spelled sp) = ((h.newArray a).1, (h.newArray a).2.spelled sp) := by
  simp [newArray, spelled]

theorem newAssoc_spelled (h : Heap) (a : AssocArray) :
    (h.spelled sp).newAssoc (a.spelled sp) = ((h.newAssoc a).1, (h.newAssoc a).2.spelled sp) := by
  simp [newAssoc, spelled]

theorem map_modify {α : Type} (xs : Array α) (i : Nat) {g f f' : α → α}
    (hf : ∀ a, f' (g a) = g (f a)) : (xs.map g).modify i f' = (xs.modify i f).map g := by
  refine Array.ext_getElem? fun j => ?_
  rw [Array.getElem?_modify, Array.getElem?_map, Array.getElem?_map, Array.getElem?_modify]
  split
  · cases xs[j]? with
    | none => rfl
    | some a => exact congrArg some (hf a)
  · rfl

theorem modifyArray_spelled (h : Heap) (r : ArrayRef) {f f' : ArrayObject → ArrayObject}
    (hf : ∀ a, f' (a.spelled sp) = ((f a).spelled sp)) :
    (h.spelled sp).modifyArray r f' = (h.modifyArray r f).spelled sp := by
  simp only [modifyArray, spelled, map_modify h.arrays r.index hf]

theorem modifyAssoc_spelled (h : Heap) (r : AssocRef) {f f' : AssocArray → AssocArray}
    (hf : ∀ a, f' (a.spelled sp) = ((f a).spelled sp)) :
    (h.spelled sp).modifyAssoc r f' = (h.modifyAssoc r f).spelled sp := by
  simp only [modifyAssoc, spelled, map_modify h.assocs r.index hf]

theorem newMany_spelled {make : Heap → Value × Heap}
    (hmake : ∀ h, make (h.spelled sp) = ((make h).1.spelled sp, (make h).2.spelled sp))
    (count : Nat)
    (made : Array Value) (h : Heap) :
    newMany make count (made.map (Value.spelled sp)) (h.spelled sp) =
      ((newMany make count made h).1.map (Value.spelled sp),
        (newMany make count made h).2.spelled sp) := by
  induction count generalizing made h with
  | zero => rfl
  | succ count ih =>
    rw [newMany, newMany, hmake]
    dsimp only
    rw [← Array.map_push]
    exact ih _ _

theorem newGrid_spelled (sizes : List Nat) (h : Heap) :
    newGrid sizes (h.spelled sp) =
      ((newGrid sizes h).1.spelled sp, (newGrid sizes h).2.spelled sp) := by
  induction sizes generalizing h with
  | nil =>
    have hnew : (h.spelled sp).newArray ((default : ArrayObject).spelled sp) = _ :=
      h.newArray_spelled default
    rw [ArrayObject.spelled_default] at hnew
    exact congrArg (fun r => (Value.array r.1, r.2)) hnew
  | cons size rest ih =>
    have hmany := newMany_spelled ih size #[] h
    rw [newGrid, newGrid]
    simp only [Array.map_empty] at hmany
    rw [hmany]
    exact congrArg (fun r => (Value.array r.1, r.2)) (newArray_spelled _ ⟨_⟩)

theorem text_spelled (h : Heap) : ∀ v : Value, (h.spelled sp).text (v.spelled sp) = h.text v
  | .boxed content => text_spelled h content
  | .array r => (congrArg ArrayObject.text (h.array_spelled r)).trans (ArrayObject.text_spelled _)
  | .assoc r => (congrArg AssocArray.text (h.assoc_spelled r)).trans (AssocArray.text_spelled _)
  | .function c => Value.nestedText_spelled (.function c)
  | .invalid | .uninitialized | .boolean _ | .string _ | .integer _ | .longInteger _ | .float _
  | .double _ => rfl

theorem elements?_spelled (h : Heap) (v : Value) :
    (h.spelled sp).elements? (v.spelled sp) =
      (h.elements? v).map (List.map (Value.spelled sp)) := by
  cases v with
  | array r =>
    show some ((h.spelled sp).array r).toList = some ((h.array r).toList.map (Value.spelled sp))
    rw [array_spelled, ArrayObject.toList_spelled]
  | assoc r =>
    show some (((h.spelled sp).assoc r).keys.map Value.string) =
      some (((h.assoc r).keys.map Value.string).map (Value.spelled sp))
    rw [assoc_spelled, AssocArray.keys_spelled, List.map_map]
    rfl
  | _ => rfl

theorem member?_spelled (h : Heap) (v : Value) (name : String) :
    (h.spelled sp).member? (v.spelled sp) name = (h.member? v name).map (Value.spelled sp) := by
  cases v with
  | assoc r =>
    show (((h.spelled sp).assoc r).get? name).map (·.readFrom r) =
      (((h.assoc r).get? name).map (·.readFrom r)).map (Value.spelled sp)
    rw [assoc_spelled, AssocArray.get?_spelled, Option.map_map, Option.map_map]
    exact congrArg (Option.map · _) (funext fun v => v.readFrom_spelled r)
  | _ => rfl

theorem member?_spell (h : Heap) (v : Value) (name : String) :
    h.member? v (sp.spell name) = h.member? v name := by
  cases v with
  | assoc r => exact congrArg (Option.map _) (AssocArray.get?_spell _ _)
  | _ => rfl

end Heap

/-! ## Backtraces -/

theorem Frame.signatureText_spelled (f : Frame) :
    (f.spelled sp).signatureText = f.signatureText := by
  have hparameters :
      (f.spelled sp).signature.arguments.map (fun a => s!"{a.name} As {a.kind.name}") =
      f.signature.arguments.map fun a => s!"{a.name} As {a.kind.name}" := by
    show (f.signature.arguments.map (Argument.spelled sp)).map _ = _
    rw [List.map_map]
    rfl
  exact congrArg (fun list => s!"{f.name}({list}) As {f.signature.returns.name}")
    (congrArg (String.intercalate ",") hparameters)

def TraceEntry.spelled (sp : Spelling) (e : TraceEntry) : TraceEntry :=
  { e with frame := e.frame.spelled sp }

theorem traceFrom_spelled (reached : Location) (stack : List Frame) :
    traceFrom reached (stack.map (Frame.spelled sp)) =
      (traceFrom reached stack).map (TraceEntry.spelled sp) := by
  induction stack generalizing reached with
  | nil => rfl
  | cons frame rest ih => exact congrArg (_ :: ·) (ih frame.call)

theorem backtraceText_spelled (reached : Location) (stack : List Frame) :
    backtraceText reached (stack.map (Frame.spelled sp)) = backtraceText reached stack := by
  have htext (entries : List TraceEntry) :
      traceText (entries.map (TraceEntry.spelled sp)) = traceText entries := by
    induction entries with
    | nil => rfl
    | cons entry rest ih =>
      have hsignature : (entry.spelled sp).frame.signatureText = entry.frame.signatureText :=
        entry.frame.signatureText_spelled
      rw [List.map_cons, traceText, List.length_map, hsignature, ih]
      rfl
  rw [backtraceText, traceFrom_spelled, htext, backtraceText]

namespace Heap

theorem newEntries_spelled (h : Heap) (entries : List TraceEntry) :
    (h.spelled sp).newEntries (entries.map (TraceEntry.spelled sp)) =
      ((h.newEntries entries).1.map (Value.spelled sp), (h.newEntries entries).2.spelled sp) := by
  induction entries generalizing h with
  | nil => rfl
  | cons entry rest ih =>
    have hmembers : (entry.spelled sp).members = entry.members := by
      unfold TraceEntry.members
      rw [show (entry.spelled sp).frame.signatureText = _ from entry.frame.signatureText_spelled]
      rfl
    have hplain : (AssocArray.ofMembers entry.members).spelled sp = .ofMembers entry.members :=
      AssocArray.spelled_ofMembers _
    have hnew : (h.spelled sp).newAssoc ((AssocArray.ofMembers entry.members).spelled sp) = _ :=
      h.newAssoc_spelled (.ofMembers entry.members)
    rw [hplain] at hnew
    rw [List.map_cons, newEntries, hmembers, hnew]
    dsimp only
    rw [ih]
    rfl

theorem newBacktrace_spelled (h : Heap) (reached : Location) (stack : List Frame) :
    (h.spelled sp).newBacktrace reached (stack.map (Frame.spelled sp)) =
      ((h.newBacktrace reached stack).1, (h.newBacktrace reached stack).2.spelled sp) := by
  rw [newBacktrace, traceFrom_spelled, ← List.map_reverse, newEntries_spelled]
  dsimp only
  rw [← ArrayObject.spelled_ofList]
  exact newArray_spelled _ _

end Heap

/-! ## Bindings -/

namespace Bindings

theorem getElem?_spelled (b : Bindings) (key : String) :
    (spelled sp b)[key]? = b[key]?.map (Value.spelled sp) :=
  Std.ExtTreeMap.getElem?_map

theorem spelled_insert (b : Bindings) (key : String) (v : Value) :
    spelled sp (b.insert key v) = (spelled sp b).insert key (v.spelled sp) := by
  refine Std.ExtTreeMap.ext_getElem? fun k => ?_
  simp only [spelled, Std.ExtTreeMap.getElem?_map, Std.ExtTreeMap.getElem?_insert]
  split <;> rfl

theorem spelled_erase (b : Bindings) (key : String) :
    spelled sp (b.erase key) = (spelled sp b).erase key := by
  refine Std.ExtTreeMap.ext_getElem? fun k => ?_
  simp only [spelled, Std.ExtTreeMap.getElem?_map, Std.ExtTreeMap.getElem?_erase]
  split <;> rfl

theorem spelled_empty : spelled sp (∅ : Bindings) = ∅ :=
  Std.ExtTreeMap.ext_getElem? fun k => by simp [spelled]

end Bindings

namespace Scopes

theorem get?_spelled (s : Scopes) (name : Identifier) :
    (s.spelled sp).get? name = (s.get? name).map (Value.spelled sp) := by
  simp only [get?, spelled, Activation.spelled, Bindings.getElem?_spelled]
  split
  · rfl
  split
  · rfl
  cases s.active.locals[Text.fold name.name]? <;> cases s.modules[Text.fold name.name]? <;> rfl

theorem get_spelled (s : Scopes) (name : Identifier) :
    (s.spelled sp).get (name.spelled sp) = (s.get name).spelled sp := by
  have hname : s.get? (name.spelled sp) = s.get? name := by
    simp only [get?, Identifier.fold_spelled]
    rfl
  rw [get, get?_spelled, hname, get]
  cases s.get? name <;> rfl

theorem spelled_bind (s : Scopes) (name : String) (v : Value) :
    (s.bind name v).spelled sp = (s.spelled sp).bind name (v.spelled sp) := by
  have hlocals : Bindings.spelled sp (s.active.locals.insert (Text.fold name) v) = _ :=
    Bindings.spelled_insert s.active.locals (Text.fold name) v
  cases v <;> simp only [bind, spelled, Activation.spelled, hlocals, Value.spelled]

theorem spelled_remove (s : Scopes) (name : String) :
    (s.remove name .function).spelled sp = (s.spelled sp).remove name .function := by
  simp only [remove, spelled, Activation.spelled, Bindings.spelled_erase]

theorem has_spelled (s : Scopes) (name : String) :
    (s.spelled sp).has name [.module] = s.has name [.module] := by
  simp [has, bindings, spelled, Bindings.spelled]

theorem spelled_declare (s : Scopes) (name : Identifier) (body : Procedure) :
    (s.declare name body).spelled sp = (s.spelled sp).declare name (body.spelled sp) := by
  have hmem : Text.fold name.name ∈ (s.spelled sp).modules ↔ Text.fold name.name ∈ s.modules := by
    simp [spelled, Bindings.spelled]
  by_cases h : Text.fold name.name ∈ s.modules
  · rw [declare, declare, if_pos h, if_pos (hmem.2 h)]
  · rw [declare, declare, if_neg h, if_neg (mt hmem.1 h)]
    simp only [defineModule, spelled, Bindings.spelled_insert, Procedure.location_spelled]
    cases body
    rfl

theorem list_spelled (s : Scopes) :
    (s.spelled sp).list .function =
      (s.list .function).map fun (name, v) => (name, v.spelled sp) := by
  simp [list, bindings, spelled, Activation.spelled, Bindings.spelled, Std.ExtTreeMap.toList_map]

end Scopes

/-! ## Errors -/

namespace ScriptError

/-- An error that took nothing along has no names to fold. -/
theorem spelled_of_fresh {e : ScriptError} (hb : e.backtrace = none) (hx : e.extra = []) :
    (e.spelled sp) = e := by
  cases e
  cases hb
  cases hx
  rfl

theorem members_spelled (e : ScriptError) (backtrace : Value) :
    (e.members backtrace).spelled sp = (e.spelled sp).members (backtrace.spelled sp) := by
  unfold members
  dsimp only
  show _ = (e.extra.map fun (key, v) => (key, v.spelled sp)).foldl _ _
  rw [List.foldl_map]
  generalize hplain : AssocArray.ofMembers [("backtrace", backtrace),
    ("message", .string e.message), ("number", .integer e.number), ("rethrown", .boolean false)] = a
  have hplain' : AssocArray.ofMembers [("backtrace", backtrace.spelled sp),
      ("message", .string (e.spelled sp).message), ("number", .integer (e.spelled sp).number),
      ("rethrown", .boolean false)] = a.spelled sp := by
    rw [← hplain, AssocArray.spelled_ofMembers]
    rfl
  rw [hplain']
  clear hplain hplain'
  induction e.extra generalizing a with
  | nil => rfl
  | cons member rest ih =>
    obtain ⟨key, v⟩ := member
    refine (ih _).trans (congrArg (fun b => List.foldl _ b rest) ?_)
    rw [AssocArray.spelled_set]
    refine congrArg (fun b : AssocArray => b.set key (v.spelled sp) true) ?_
    cases v with
    | boolean b =>
      cases b with
      | true =>
        dsimp only [Value.spelled]
        split
        · exact AssocArray.spelled_set _ _ _ _
        · rfl
      | false => rfl
    | _ => rfl

end ScriptError

namespace Thrown

def spelled (sp : Spelling) (t : Thrown) : Thrown :=
  { t with extra := t.extra.map fun (key, v) => (key, v.spelled sp) }

theorem withMember_spelled (t : Thrown) (entry : Entry) :
    (t.spelled sp).withMember (entry.spelled sp) = (t.withMember entry).map (spelled sp) := by
  obtain ⟨shown, v⟩ := entry
  simp only [withMember, Entry.spelled]
  generalize Text.fold shown = key
  cases hplain : v.isPlain with
  | true =>
    rw [Value.spelled_of_isPlain hplain]
    split <;> simp_all [spelled, Except.map, Value.spelled, Value.spelled_of_isPlain]
  | false =>
    -- A function and a box are no numbers, texts or arrays, whatever their spelling.
    cases v with
    | function c => split <;> simp_all [spelled, Except.map, Value.spelled]
    | boxed content => split <;> simp_all [spelled, Except.map, Value.spelled]
    | _ => cases hplain

theorem ofEntries_spelled (entries : List Entry) :
    ofEntries (entries.map (Entry.spelled sp)) = (ofEntries entries).spelled sp := by
  have hfold (t : Thrown) : (entries.map (Entry.spelled sp)).foldlM withMember (t.spelled sp) =
      (entries.foldlM withMember t).map (spelled sp) := by
    induction entries generalizing t with
    | nil => rfl
    | cons entry rest ih =>
      rw [List.map_cons, List.foldlM_cons, List.foldlM_cons, withMember_spelled]
      cases t.withMember entry with
      | error reason => rfl
      | ok u => exact ih u
  have hstart :
      (entries.map (Entry.spelled sp)).foldlM withMember ⟨Fault.userDefined.number, "", []⟩ =
      (entries.foldlM withMember ⟨Fault.userDefined.number, "", []⟩).map (spelled sp) :=
    hfold ⟨Fault.userDefined.number, "", []⟩
  rw [ofEntries, hstart, ofEntries]
  cases entries.foldlM withMember ⟨Fault.userDefined.number, "", []⟩ <;> rfl

theorem ofValue_spelled (h : Heap) (v : Value) :
    ofValue (h.spelled sp) (v.spelled sp) = (ofValue h v).spelled sp := by
  unfold ofValue
  rw [Value.unbox_spelled]
  cases v.unbox with
  | assoc r =>
    dsimp only [Value.spelled]
    rw [Heap.assoc_spelled, AssocArray.toList_spelled, ofEntries_spelled]
  | _ => rfl

end Thrown

/-! ## Pauses -/

namespace Console

theorem describe_spelled (h : Heap) (v : Value) :
    describe (h.spelled sp) (v.spelled sp) = describe h v := by
  cases v with
  | array r =>
    refine congrArg (fun count : Nat => s!"roArray refcnt=_ count:{count}") ?_
    rw [Heap.array_spelled, ArrayObject.size_spelled]
  | assoc r =>
    refine congrArg (fun count : Nat => s!"roAssociativeArray refcnt=_ count:{count}") ?_
    rw [Heap.assoc_spelled, AssocArray.size_spelled]
  | function c => exact congrArg (fun name => s!"Function val:{name}") c.name_spelled
  | boxed content =>
    have htype : (Value.boxed (content.spelled sp)).typeName = (Value.boxed content).typeName :=
      Value.typeName_spelled (.boxed content)
    have htext : (h.spelled sp).text (.boxed (content.spelled sp)) = h.text (.boxed content) :=
      h.text_spelled (.boxed content)
    dsimp only [Value.spelled, describe]
    rw [htype, htext]
  | _ => rfl

theorem answer_spelled (h : Heap) (c : BreakContext) (line : String) :
    answer (h.spelled sp) (c.spelled sp) line = answer h c line := by
  have hlisting : listing (h.spelled sp) (c.spelled sp).locals = listing h c.locals := by
    simp only [listing, BreakContext.spelled, List.map_map, Function.comp_def, describe_spelled]
  unfold answer
  rw [hlisting]
  rfl

theorem pause_spelled (h : Heap) (c : BreakContext) (input : List String) :
    pause (h.spelled sp) (c.spelled sp) input = pause h c input := by
  have hconverse : converse (h.spelled sp) (c.spelled sp) input = converse h c input := by
    induction input with
    | nil => rfl
    | cons line rest ih =>
      unfold converse
      rw [answer_spelled, ih]
  have hheader : header (c.spelled sp) = header c := by
    unfold header BreakContext.spelled
    cases c.error <;> rfl
  rw [pause, pause, hconverse, hheader]

end Console

/-- The decisions of the debugger do not depend on the spelling of names. Only a debugger of the
host sees functions as they are written. -/
def Debugger.Ignores (sp : Spelling) : Debugger → Prop
  | .scripted _ | .console _ _ => True
  | .host decide _ => ∀ contexts, decide (contexts.map (BreakContext.spelled sp)) = decide contexts

namespace Session

theorem traced_spelled (s : Session) (e : ScriptError) :
    (s.spelled sp).traced (e.spelled sp) = (s.traced e).spelled sp := by
  cases hb : e.backtrace <;> simp [traced, spelled, ScriptError.spelled, hb]

theorem note_spelled (s : Session) (e : ScriptError) :
    (s.spelled sp).note (e.spelled sp) = (s.note e).spelled sp := by
  have hlog : (s.log.spelled sp).record (e.spelled sp) = (s.log.record e).spelled sp := by
    simp [ErrorLog.record, ErrorLog.spelled, Notice.spelled, Function.comp_def]
  cases htry : s.tryMode <;> simp [note, spelled, htry, hlog]

theorem isFull_spelled (s : Session) : (s.spelled sp).isFull = s.isFull := by
  simp [isFull, spelled]

theorem breakContext_spelled (s : Session) (pause : Break) :
    (s.spelled sp).breakContext (pause.spelled sp) = (s.breakContext pause).spelled sp := by
  simp [breakContext, spelled, Break.spelled, BreakContext.spelled, backtraceText_spelled,
    Scopes.list_spelled]

theorem debugger_spelled (s : Session) : (s.spelled sp).debugger = s.debugger.spelled sp :=
  rfl

theorem verdict_spelled (s : Session) (pause : Break) (h : s.debugger.Ignores sp) :
    (s.spelled sp).verdict (pause.spelled sp) =
      { s.verdict pause with debugger := (s.verdict pause).debugger.spelled sp } := by
  unfold verdict
  rw [breakContext_spelled, debugger_spelled]
  rcases hd : s.debugger with (_ | ⟨action, rest⟩) | ⟨input, output⟩ | ⟨decide, seen⟩
  · rfl
  · rfl
  · have htold : Console.pause (s.spelled sp).heap ((s.breakContext pause).spelled sp) input =
        Console.pause s.heap (s.breakContext pause) input := Console.pause_spelled _ _ _
    simp only [Debugger.spelled, htold]
  · rw [hd] at h
    have hdecide : decide ((s.breakContext pause :: seen).map (BreakContext.spelled sp)) =
        decide (s.breakContext pause :: seen) := h _
    exact congrArg (Verdict.mk · _ _ _) hdecide

theorem ignores_verdict (s : Session) (pause : Break) (h : s.debugger.Ignores sp) :
    (s.verdict pause).debugger.Ignores sp := by
  unfold verdict
  rcases hd : s.debugger with (_ | ⟨action, rest⟩) | ⟨input, output⟩ | ⟨decide, seen⟩
  · trivial
  · trivial
  · trivial
  · rw [hd] at h
    exact h

theorem consult_spelled (s : Session) (pause : Break) (h : s.debugger.Ignores sp) :
    (s.spelled sp).consult (pause.spelled sp) =
      ((s.consult pause).1, (s.consult pause).2.spelled sp) := by
  have hwrite (t : Session) (channel : Channel) (text : String) :
      (t.spelled sp).write channel text = (t.write channel text).spelled sp := by
    cases channel <;> rfl
  rw [consult, consult, verdict_spelled s pause h, ← hwrite]
  rfl

theorem entry?_spelled (s : Session) :
    Session.entry? (s.spelled sp) = s.entry?.map (Callable.spelled sp) := by
  unfold entry?
  induction entryNames with
  | nil => rfl
  | cons name rest ih =>
    have hget : (s.spelled sp).scopes.get? ⟨name, .builtin⟩ = _ :=
      s.scopes.get?_spelled ⟨name, .builtin⟩
    rw [List.findSome?_cons, List.findSome?_cons, hget]
    cases s.scopes.get? ⟨name, .builtin⟩ with
    | none => exact ih
    | some v =>
      cases v with
      | function c => rfl
      | _ => exact ih

end Session

end BrightScript
